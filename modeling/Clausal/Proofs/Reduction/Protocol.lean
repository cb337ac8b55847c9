import Clausal.Reduction.Reducer
import Clausal.Proofs.Control

/-!
# The protocol of the reducer

Calls break no contract if and only if they are the beginning of complete levels one after another. A
level is begun, filled with clauses, ended at least once and reduced, and complete levels may stand
between any two of its calls. They do not disturb it: the tree of a level is that of its own calls alone.
-/
namespace Clausal

/-- A call to the reducer. -/
inductive Call where
  | beginMatcher (name : String)
  | beginClause (body : Tree)
  | assign (name : String) (place : Place)
  | require (condition : Tree)
  | endClause
  | endMatcher
  | finish

namespace Call

/-- Makes the call and gives the trees that it returns: one if it reduces a matcher, else none. -/
def run : Call → ReduceM (List Tree)
  | .beginMatcher name => do Reducer.beginMatcher name; return []
  | .beginClause body => do Reducer.beginClause body; return []
  | .assign name place => do Reducer.assign name place; return []
  | .require condition => do Reducer.require condition; return []
  | .endClause => do Reducer.endClause; return []
  | .endMatcher => do Reducer.endMatcher; return []
  | .finish => return [← Reducer.finish]

/-- Makes the calls one after another, up to the first that breaks a contract, and gives the trees. -/
def runAll : List Call → ReduceM (List Tree)
  | [] => return []
  | c :: cs => do
    let trees ← c.run
    return trees ++ (← runAll cs)

/-! ## Words of calls -/

/-- It adds to the open clause. -/
def IsAdd : Call → Prop
  | .assign _ _ => True
  | .require _ => True
  | _ => False

/-- A clause is opened, filled and closed. -/
def IsClause (cs : List Call) : Prop :=
  ∃ body adds, (∀ a ∈ adds, IsAdd a) ∧ cs = .beginClause body :: adds ++ [.endClause]

/-- What stands between the begin of a level and its reduction: clauses, and then at least one end. -/
def IsBody (cs : List Call) : Prop :=
  ∃ (clauses : List (List Call)) (n : Nat), (∀ c ∈ clauses, IsClause c) ∧
    cs = clauses.flatten ++ List.replicate (n + 1) .endMatcher

/-- The word is these calls in order, with complete levels before, between and behind them. -/
inductive Weaves : List Call → List Call → Prop where
  | nil : Weaves [] []
  | own {c : Call} {own word : List Call} : Weaves own word → Weaves (c :: own) (c :: word)
  | level {name : String} {body inner own word : List Call} : IsBody body → Weaves body inner →
      Weaves own word → Weaves own (.beginMatcher name :: inner ++ .finish :: word)

/-- The calls made on each level that is begun and not reduced, the innermost level first. -/
def note : List (List Call) → Call → List (List Call)
  | levels, .beginMatcher name => [.beginMatcher name] :: levels
  | _ :: levels, .finish => levels
  | own :: levels, c => (own ++ [c]) :: levels
  | [], _ => []

def unfinished (calls : List Call) : List (List Call) :=
  calls.foldl note []

/-! ## What a call can do -/

end Call

/-- What a call that breaks no contract does to the level it is made on. -/
inductive Level.Takes : Level → Call → Level → Prop where
  | beginClause {l : Level} {body : Tree} : l.ended = false → l.opened = none →
      l.Takes (.beginClause body) { l with opened := some { body := body } }
  | assign {l : Level} {c : ClauseState} {n : String} {p : Place} : l.opened = some c →
      l.Takes (.assign n p)
        { l with opened := some { c with assignments := c.assignments ++ [(n, p.toTree)] } }
  | require {l : Level} {c : ClauseState} {t : Tree} : l.opened = some c →
      l.Takes (.require t) { l with opened := some { c with conditions := c.conditions ++ [t] } }
  | endClause {l : Level} {c : ClauseState} : l.opened = some c →
      l.Takes .endClause { l with opened := none, clauses := l.clauses ++ [c] }
  | endMatcher {l : Level} : l.opened = none → l.Takes .endMatcher { l with ended := true }

namespace Call

variable {c : Call} {cs ds own word calls : List Call} {name : String} {l l' : Level}
  {ls : List Level} {r r' : Reducer} {ts : List Tree}

/-- All that a call can do without breaking a contract. -/
inductive Step : Reducer → Call → List Tree → Reducer → Prop where
  | beginMatcher {ls : List Level} {n : String} :
      Step ⟨ls⟩ (.beginMatcher n) [] ⟨{ matcher := n } :: ls⟩
  | onTop {l l' : Level} {ls : List Level} {c : Call} : l.Takes c l' →
      Step ⟨l :: ls⟩ c [] ⟨l' :: ls⟩
  | finish {l : Level} {ls : List Level} : l.ended = true → Step ⟨l :: ls⟩ .finish [l.toTree] ⟨ls⟩

theorem run_eq_ok_iff : c.run r = .ok ts r' ↔ Step r c ts r' := by
  obtain ⟨levels⟩ := r
  constructor
  · intro h
    cases levels with
    | nil =>
      cases c <;> cases h
      exact .beginMatcher
    | cons l ls =>
      obtain ⟨m, cs, opened, ended⟩ := l
      cases c with
      | beginMatcher n =>
        cases h
        exact .beginMatcher
      | beginClause body =>
        cases ended <;> cases opened <;> cases h
        exact .onTop (.beginClause rfl rfl)
      | assign n p =>
        cases opened <;> cases h
        exact .onTop (.assign rfl)
      | require t =>
        cases opened <;> cases h
        exact .onTop (.require rfl)
      | endClause =>
        cases opened <;> cases h
        exact .onTop (.endClause rfl)
      | endMatcher =>
        cases opened <;> cases h
        exact .onTop (.endMatcher rfl)
      | finish =>
        cases ended <;> cases h
        exact .finish rfl
  · intro h
    cases h with
    | beginMatcher => rfl
    | @onTop l l' ls c htakes =>
      obtain ⟨m, cs, opened, ended⟩ := l
      cases htakes with
      | beginClause hended hopened =>
        cases hended
        cases hopened
        rfl
      | assign hopened =>
        cases hopened
        rfl
      | require hopened =>
        cases hopened
        rfl
      | endClause hopened =>
        cases hopened
        rfl
      | endMatcher hopened =>
        cases hopened
        rfl
    | @finish l ls hended =>
      obtain ⟨m, cs, opened, ended⟩ := l
      cases hended
      rfl

theorem runAll_cons_eq_ok_iff : runAll (c :: cs) r = .ok ts r' ↔
    ∃ ts₁ r₁ ts₂, Step r c ts₁ r₁ ∧ runAll cs r₁ = .ok ts₂ r' ∧ ts = ts₁ ++ ts₂ := by
  rw [runAll]
  constructor
  · intro h
    obtain ⟨ts₁, r₁, hc, h⟩ := exists_of_run_bind_eq_ok h
    obtain ⟨ts₂, r₂, hcs, h⟩ := exists_of_run_bind_eq_ok h
    cases h
    exact ⟨ts₁, r₁, ts₂, run_eq_ok_iff.mp hc, hcs, rfl⟩
  · rintro ⟨ts₁, r₁, ts₂, hc, hcs, rfl⟩
    rw [run_bind_of_eq_ok (run_eq_ok_iff.mpr hc), run_bind_of_eq_ok hcs]
    rfl

theorem runAll_append_eq_ok_iff : runAll (cs ++ ds) r = .ok ts r' ↔
    ∃ ts₁ r₁ ts₂, runAll cs r = .ok ts₁ r₁ ∧ runAll ds r₁ = .ok ts₂ r' ∧ ts = ts₁ ++ ts₂ := by
  induction cs generalizing r ts with
  | nil =>
    constructor
    · intro h
      exact ⟨[], r, ts, rfl, h, rfl⟩
    · rintro ⟨ts₁, r₁, ts₂, hcs, hds, rfl⟩
      cases hcs
      exact hds
  | cons c cs ih =>
    rw [List.cons_append, runAll_cons_eq_ok_iff]
    constructor
    · rintro ⟨ts₁, r₁, ts₂, hc, hrest, rfl⟩
      obtain ⟨ts₃, r₂, ts₄, hcs, hds, rfl⟩ := ih.mp hrest
      exact ⟨ts₁ ++ ts₃, r₂, ts₄, runAll_cons_eq_ok_iff.mpr ⟨ts₁, r₁, ts₃, hc, hcs, rfl⟩, hds,
        (List.append_assoc ..).symm⟩
    · rintro ⟨ts₁, r₂, ts₄, hfirst, hds, rfl⟩
      obtain ⟨ts₁, r₁, ts₃, hc, hcs, rfl⟩ := runAll_cons_eq_ok_iff.mp hfirst
      exact ⟨ts₁, r₁, ts₃ ++ ts₄, hc, ih.mpr ⟨ts₃, r₂, ts₄, hcs, hds, rfl⟩, List.append_assoc ..⟩

theorem runAll_singleton_eq_ok_iff : runAll [c] r = .ok ts r' ↔ Step r c ts r' := by
  rw [runAll_cons_eq_ok_iff]
  constructor
  · rintro ⟨ts₁, r₁, ts₂, hc, hnil, rfl⟩
    cases hnil
    rw [List.append_nil]
    exact hc
  · intro h
    exact ⟨ts, r', [], h, rfl, (List.append_nil ts).symm⟩

end Call

/-! ## Levels -/

/-- These calls, made on a new level of the matcher, make this level. -/
inductive Level.Made (name : String) : List Call → Level → Prop where
  | fresh : Level.Made name [] { matcher := name }
  | call {own : List Call} {c : Call} {l l' : Level} : Level.Made name own l → l.Takes c l' →
      Level.Made name (own ++ [c]) l'

/-- How far the calls on a level have come, and what the level shows of it: between two clauses, within
one, or ended. -/
inductive Level.Stands : Level → List Call → Prop where
  | idle {l : Level} {clauses : List (List Call)} : l.opened = none → l.ended = false →
      (∀ c ∈ clauses, Call.IsClause c) → l.Stands clauses.flatten
  | within {l : Level} {clauses : List (List Call)} {body : Tree} {adds : List Call} :
      l.opened ≠ none → l.ended = false → (∀ c ∈ clauses, Call.IsClause c) →
      (∀ a ∈ adds, Call.IsAdd a) → l.Stands (clauses.flatten ++ .beginClause body :: adds)
  | ended {l : Level} {clauses : List (List Call)} {n : Nat} : l.opened = none → l.ended = true →
      (∀ c ∈ clauses, Call.IsClause c) →
      l.Stands (clauses.flatten ++ List.replicate (n + 1) .endMatcher)

namespace Level

variable {c : Call} {cs own word calls : List Call} {name : String} {l l' : Level} {ls : List Level}

theorem Made.run (h : Made name own l) (ls : List Level) :
    Call.runAll own ⟨{ matcher := name } :: ls⟩ = .ok [] ⟨l :: ls⟩ := by
  induction h with
  | fresh => rfl
  | call _ htakes ih =>
    exact Call.runAll_append_eq_ok_iff.mpr
      ⟨[], _, [], ih, Call.runAll_singleton_eq_ok_iff.mpr (.onTop htakes), rfl⟩

/-! The calls of a body can be made on a new level, and end it. -/

theorem Made.adds (h : Made name own l) (hopened : l.opened ≠ none) (hended : l.ended = false)
    (hcs : ∀ a ∈ cs, Call.IsAdd a) :
    ∃ l', Made name (own ++ cs) l' ∧ l'.opened ≠ none ∧ l'.ended = false := by
  induction cs generalizing own l with
  | nil => exact ⟨l, (List.append_nil own).symm ▸ h, hopened, hended⟩
  | cons a cs ih =>
    obtain ⟨ha, hcs⟩ := List.forall_mem_cons.mp hcs
    obtain ⟨state, hstate⟩ := Option.ne_none_iff_exists'.mp hopened
    have hmade : ∃ l', Made name (own ++ [a]) l' ∧ l'.opened ≠ none ∧ l'.ended = false := by
      cases a with
      | assign n p => exact ⟨_, h.call (.assign hstate), Option.some_ne_none _, hended⟩
      | require t => exact ⟨_, h.call (.require hstate), Option.some_ne_none _, hended⟩
      | _ => exact ha.elim
    obtain ⟨l', hmade, hopened, hended⟩ := hmade
    rw [List.append_cons]
    exact ih hmade hopened hended hcs

theorem Made.clause (h : Made name own l) (hopened : l.opened = none) (hended : l.ended = false)
    (hcs : Call.IsClause cs) :
    ∃ l', Made name (own ++ cs) l' ∧ l'.opened = none ∧ l'.ended = false := by
  obtain ⟨body, adds, hadds, rfl⟩ := hcs
  obtain ⟨l', hmade, hopened, hended⟩ :=
    (h.call (.beginClause hended hopened)).adds (Option.some_ne_none _) hended hadds
  obtain ⟨state, hstate⟩ := Option.ne_none_iff_exists'.mp hopened
  have hclosed := hmade.call (.endClause hstate)
  rw [List.append_assoc, List.append_assoc] at hclosed
  exact ⟨_, hclosed, rfl, hended⟩

theorem Made.clauses {clauses : List (List Call)} (h : Made name own l) (hopened : l.opened = none)
    (hended : l.ended = false) (hclauses : ∀ c ∈ clauses, Call.IsClause c) :
    ∃ l', Made name (own ++ clauses.flatten) l' ∧ l'.opened = none ∧ l'.ended = false := by
  induction clauses generalizing own l with
  | nil => exact ⟨l, (List.append_nil own).symm ▸ h, hopened, hended⟩
  | cons c clauses ih =>
    obtain ⟨hc, hclauses⟩ := List.forall_mem_cons.mp hclauses
    obtain ⟨l', hmade, hopened, hended⟩ := h.clause hopened hended hc
    rw [List.flatten_cons, ← List.append_assoc]
    exact ih hmade hopened hended hclauses

theorem Made.ends (h : Made name own l) (hopened : l.opened = none) (n : Nat) :
    ∃ l', Made name (own ++ List.replicate (n + 1) .endMatcher) l' ∧ l'.opened = none ∧
      l'.ended = true := by
  induction n with
  | zero => exact ⟨_, h.call (.endMatcher hopened), hopened, rfl⟩
  | succ n ih =>
    obtain ⟨l', hmade, hopened, -⟩ := ih
    rw [List.replicate_succ', ← List.append_assoc]
    exact ⟨_, hmade.call (.endMatcher hopened), hopened, rfl⟩

theorem exists_made_of_body (h : Call.IsBody cs) (name : String) :
    ∃ l, Made name cs l ∧ l.ended = true := by
  obtain ⟨clauses, n, hclauses, rfl⟩ := h
  obtain ⟨l, hmade, hopened, -⟩ := (Made.fresh : Made name [] _).clauses rfl rfl hclauses
  obtain ⟨l', hmade', -, hended⟩ := hmade.ends hopened n
  exact ⟨l', hmade', hended⟩

/-! What was called on a level so far can be completed to a body. -/

theorem Stands.call (h : l.Stands own) (ht : l.Takes c l') : l'.Stands (own ++ [c]) := by
  cases h with
  | @idle clauses hopened hended hclauses =>
    cases ht with
    | @beginClause body =>
      exact @within _ clauses body [] (Option.some_ne_none _) hended hclauses (List.forall_mem_nil _)
    | assign hsome => simp [hopened] at hsome
    | require hsome => simp [hopened] at hsome
    | endClause hsome => simp [hopened] at hsome
    | endMatcher => exact .ended (n := 0) hopened rfl hclauses
  | @within clauses body adds hopened hended hclauses hadds =>
    cases ht with
    | beginClause _ hnone => exact absurd hnone hopened
    | assign =>
      rw [List.append_assoc, List.cons_append]
      exact .within (Option.some_ne_none _) hended hclauses
        (List.forall_mem_append.mpr ⟨hadds, List.forall_mem_singleton.mpr trivial⟩)
    | require =>
      rw [List.append_assoc, List.cons_append]
      exact .within (Option.some_ne_none _) hended hclauses
        (List.forall_mem_append.mpr ⟨hadds, List.forall_mem_singleton.mpr trivial⟩)
    | endClause =>
      have hclauses' : ∀ c ∈ clauses ++ [.beginClause body :: adds ++ [.endClause]], Call.IsClause c :=
        List.forall_mem_append.mpr ⟨hclauses, List.forall_mem_singleton.mpr ⟨body, adds, hadds, rfl⟩⟩
      simpa using Stands.idle (l := { l with opened := none, clauses := _ }) rfl hended hclauses'
    | endMatcher hnone => exact absurd hnone hopened
  | @ended clauses n hopened hended hclauses =>
    cases ht with
    | beginClause hnot => simp [hended] at hnot
    | assign hsome => simp [hopened] at hsome
    | require hsome => simp [hopened] at hsome
    | endClause hsome => simp [hopened] at hsome
    | endMatcher =>
      rw [List.append_assoc, ← List.replicate_succ']
      exact .ended hopened rfl hclauses

theorem Stands.completes (h : l.Stands own) : ∃ rest, Call.IsBody (own ++ rest) := by
  cases h with
  | @idle clauses _ _ hclauses => exact ⟨[.endMatcher], clauses, 0, hclauses, rfl⟩
  | @within clauses body adds _ _ hclauses hadds =>
    refine ⟨[.endClause, .endMatcher], clauses ++ [.beginClause body :: adds ++ [.endClause]], 0,
      List.forall_mem_append.mpr ⟨hclauses, List.forall_mem_singleton.mpr ⟨body, adds, hadds, rfl⟩⟩, ?_⟩
    simp
  | @ended clauses n _ _ hclauses => exact ⟨[], clauses, n, hclauses, List.append_nil _⟩

theorem Stands.isBody (h : l.Stands own) (hended : l.ended = true) : Call.IsBody own := by
  cases h with
  | idle _ hnot => simp [hended] at hnot
  | within _ hnot => simp [hended] at hnot
  | ended _ _ hclauses => exact ⟨_, _, hclauses, rfl⟩

end Level

namespace Call

variable {c : Call} {cs own own' word word' calls : List Call} {levels : List (List Call)}
  {name : String} {l : Level} {ls : List Level} {r r' : Reducer} {ts : List Tree}

/-! ## Woven words -/

theorem weaves_self (cs : List Call) : Weaves cs cs := by
  induction cs with
  | nil => exact .nil
  | cons c cs ih => exact .own ih

theorem Weaves.append (h : Weaves own word) (h' : Weaves own' word') :
    Weaves (own ++ own') (word ++ word') := by
  induction h with
  | nil => exact h'
  | own _ ih => exact .own ih
  | level hbody hinner _ _ ih => simpa using Weaves.level hbody hinner ih

/-- What is woven in between does not disturb the calls. -/
theorem Weaves.run (h : Weaves own word) (hrun : runAll own r = .ok ts r') :
    ∃ ts', runAll word r = .ok ts' r' := by
  induction h generalizing r r' ts with
  | nil => exact ⟨ts, hrun⟩
  | own _ ih =>
    obtain ⟨ts₁, r₁, ts₂, hc, hown, rfl⟩ := runAll_cons_eq_ok_iff.mp hrun
    obtain ⟨ts', hword⟩ := ih hown
    exact ⟨_, runAll_cons_eq_ok_iff.mpr ⟨ts₁, r₁, ts', hc, hword, rfl⟩⟩
  | @level name body inner own word hbody _ _ ihinner ih =>
    obtain ⟨l, hmade, hended⟩ := Level.exists_made_of_body hbody name
    obtain ⟨ts₁, hinner⟩ := ihinner (hmade.run r.levels)
    obtain ⟨ts₂, hword⟩ := ih hrun
    have hfinish : runAll (.finish :: word) ⟨l :: r.levels⟩ = .ok ([l.toTree] ++ ts₂) r' :=
      runAll_cons_eq_ok_iff.mpr ⟨_, _, ts₂, .finish hended, hword, rfl⟩
    rw [List.cons_append]
    exact ⟨_, runAll_cons_eq_ok_iff.mpr ⟨[], _, _, .beginMatcher,
      runAll_append_eq_ok_iff.mpr ⟨ts₁, _, _, hinner, hfinish, rfl⟩, rfl⟩⟩

/-- The calls are complete levels, and behind them the levels that stand on the reducer, each begun and
with complete levels between its own calls. -/
inductive Pending : List Level → List Call → Prop where
  | nil {word : List Call} : Weaves [] word → Pending [] word
  | level {name : String} {l : Level} {ls : List Level} {own word calls : List Call} :
      Pending ls calls → l.Stands own → Weaves own word →
      Pending (l :: ls) (calls ++ .beginMatcher name :: word)

theorem Pending.append (h : Pending ls calls) (hw : Weaves [] word) : Pending ls (calls ++ word) := by
  cases h with
  | nil hcalls => exact .nil (hcalls.append hw)
  | level houter hstands hinner =>
    rw [List.append_assoc, List.cons_append]
    refine .level houter hstands ?_
    simpa using hinner.append hw

theorem Pending.step (h : Pending r.levels calls) (hc : Step r c ts r') :
    Pending r'.levels (calls ++ [c]) := by
  cases hc with
  | beginMatcher =>
    exact .level h (@Level.Stands.idle _ [] rfl rfl (List.forall_mem_nil _)) .nil
  | onTop htakes =>
    cases h with
    | level houter hstands hinner =>
      rw [List.append_assoc, List.cons_append]
      exact .level houter (hstands.call htakes) (hinner.append (weaves_self [c]))
  | finish hended =>
    cases h with
    | @level name _ _ own word calls houter hstands hinner =>
      have hword : Weaves [] (.beginMatcher name :: word ++ .finish :: []) :=
        .level (hstands.isBody hended) hinner .nil
      rw [List.append_assoc]
      exact houter.append hword

theorem Pending.run (h : Pending r.levels calls) (hrun : runAll cs r = .ok ts r') :
    Pending r'.levels (calls ++ cs) := by
  induction cs generalizing r calls ts with
  | nil =>
    cases hrun
    rw [List.append_nil]
    exact h
  | cons c cs ih =>
    obtain ⟨_, r₁, _, hc, hcs, -⟩ := runAll_cons_eq_ok_iff.mp hrun
    rw [List.append_cons]
    exact ih (h.step hc) hcs

/-- From the innermost level outwards, every level can be ended and reduced. -/
theorem Pending.completes (h : Pending ls calls) : ∃ rest, Weaves [] (calls ++ rest) := by
  induction ls generalizing calls with
  | nil =>
    cases h with
    | nil hcalls => exact ⟨[], (List.append_nil calls).symm ▸ hcalls⟩
  | cons l ls ih =>
    cases h with
    | @level name _ _ own word calls houter hstands hinner =>
      obtain ⟨last, hbody⟩ := hstands.completes
      have hword : Weaves [] (.beginMatcher name :: (word ++ last) ++ .finish :: []) :=
        .level hbody (hinner.append (weaves_self last)) .nil
      obtain ⟨rest, hrest⟩ := ih (houter.append hword)
      exact ⟨last ++ .finish :: rest, by simpa using hrest⟩

/-! ## The levels that are not reduced -/

/-- Each level is what its own calls make of a new one. -/
inductive Keeps : List (List Call) → List Level → Prop where
  | nil : Keeps [] []
  | cons {name : String} {own : List Call} {l : Level} {levels : List (List Call)} {ls : List Level} :
      Level.Made name own l → Keeps levels ls → Keeps ((.beginMatcher name :: own) :: levels) (l :: ls)

theorem Keeps.step (h : Keeps levels r.levels) (hc : Step r c ts r') :
    Keeps (note levels c) r'.levels := by
  cases hc with
  | beginMatcher => exact .cons .fresh h
  | onTop htakes =>
    cases h with
    | cons hmade hls =>
      have hmade' := hmade.call htakes
      cases htakes <;> exact .cons hmade' hls
  | finish _ =>
    cases h with
    | cons _ hls => exact hls

theorem Keeps.run (h : Keeps levels r.levels) (hrun : runAll cs r = .ok ts r') :
    Keeps (cs.foldl note levels) r'.levels := by
  induction cs generalizing r levels ts with
  | nil =>
    cases hrun
    exact h
  | cons c cs ih =>
    obtain ⟨_, r₁, _, hc, hcs, -⟩ := runAll_cons_eq_ok_iff.mp hrun
    exact ih (h.step hc) hcs

theorem Keeps.length_eq (h : Keeps levels ls) : ls.length = levels.length := by
  induction h with
  | nil => rfl
  | cons _ _ ih => exact congrArg (· + 1) ih

/-- The calls of an ended level, made again with nothing in between. -/
theorem runAll_made (h : Level.Made name own l) (hended : l.ended = true) :
    runAll ((.beginMatcher name :: own) ++ [.finish]) {} = .ok [l.toTree] {} := by
  have hfinish : runAll [.finish] ⟨[l]⟩ = .ok [l.toTree] {} :=
    runAll_singleton_eq_ok_iff.mpr (.finish hended)
  exact runAll_cons_eq_ok_iff.mpr ⟨[], _, _, .beginMatcher,
    runAll_append_eq_ok_iff.mpr ⟨[], _, _, h.run [], hfinish, rfl⟩, rfl⟩

/-- A call that breaks a contract changes the number of levels as if it did not. -/
theorem depth_run (c : Call) (h : r.depth = levels.length) :
    (leftBy (c.run r)).depth = (note levels c).length := by
  obtain ⟨ls⟩ := r
  cases ls with
  | nil =>
    obtain rfl : levels = [] := List.eq_nil_of_length_eq_zero h.symm
    cases c <;> rfl
  | cons l ls =>
    obtain ⟨own, levels, rfl⟩ := List.exists_cons_of_length_eq_add_one h.symm
    obtain ⟨m, clauses, opened, ended⟩ := l
    cases c with
    | beginMatcher n => exact congrArg (· + 1) h
    | finish => cases ended <;> exact Nat.succ.inj h
    | _ => cases opened <;> cases ended <;> exact h

theorem depth_runs (calls : List Call) (h : r.depth = levels.length) :
    (calls.foldl (fun r c => leftBy (c.run r)) r).depth = (calls.foldl note levels).length := by
  induction calls generalizing r levels with
  | nil => exact h
  | cons c calls ih => exact ih (depth_run c h)

/-- Calls on a new reducer break no contract if and only if they begin a word of complete levels. The
depth is the number of levels begun and not yet reduced, also behind calls that break a contract. What
is returned for a level is what its own calls alone return on a new reducer. -/
theorem protocol (calls : List Call) :
    ((∃ ts r, runAll calls {} = .ok ts r) ↔ ∃ rest, Weaves [] (calls ++ rest)) ∧
    (calls.foldl (fun (r : Reducer) (c : Call) => leftBy (c.run r)) {}).depth =
      (unfinished calls).length ∧
    ∀ ts r, runAll calls {} = .ok ts r → r.depth = (unfinished calls).length ∧
      ∀ t r', Reducer.finish r = .ok t r' →
        ∃ own outer, unfinished calls = own :: outer ∧ runAll (own ++ [.finish]) {} = .ok [t] {} := by
  refine ⟨⟨?_, ?_⟩, depth_runs calls rfl, fun ts r hrun => ?_⟩
  · rintro ⟨ts, r, hrun⟩
    exact (Pending.nil .nil).run hrun |>.completes
  · rintro ⟨rest, hword⟩
    obtain ⟨ts, hrun⟩ := hword.run (r := {}) rfl
    obtain ⟨ts₁, r₁, -, hcalls, -⟩ := runAll_append_eq_ok_iff.mp hrun
    exact ⟨ts₁, r₁, hcalls⟩
  · have hkeeps : Keeps (unfinished calls) r.levels := Keeps.nil.run hrun
    refine ⟨hkeeps.length_eq, fun t r' hfinish => ?_⟩
    have hstep : Step r .finish [t] r' := run_eq_ok_iff.mp (run_bind_of_eq_ok hfinish)
    generalize unfinished calls = levels at hkeeps
    cases hstep with
    | finish hended =>
      cases hkeeps with
      | cons hmade _ => exact ⟨_, _, rfl, runAll_made hmade hended⟩

/-- A level of `g` is reduced within a clause of `f`, which is then filled, closed and ended. -/
theorem protocol_level_in_clause :
    let calls : List Call := [.beginMatcher "f", .beginClause (.symbol "x"), .beginMatcher "g",
      .endMatcher, .finish, .require (.symbol "c"), .endClause, .endMatcher]
    let own : List Call :=
      [.beginMatcher "f", .beginClause (.symbol "x"), .require (.symbol "c"), .endClause, .endMatcher]
    let l : Level :=
      { matcher := "f", clauses := [{ conditions := [.symbol "c"], body := .symbol "x" }], ended := true }
    (∃ rest, Weaves [] (calls ++ rest)) ∧ runAll calls {} = .ok [.fault "g"] ⟨[l]⟩ ∧
      Reducer.finish ⟨[l]⟩ = .ok l.toTree {} ∧ unfinished calls = [own] ∧
      runAll (own ++ [.finish]) {} = .ok [l.toTree] {} := by
  intro calls own l
  have hrun : runAll calls {} = .ok [.fault "g"] ⟨[l]⟩ := rfl
  have hfinish : Reducer.finish ⟨[l]⟩ = .ok l.toTree {} := rfl
  have hown : unfinished calls = [own] := rfl
  obtain ⟨hiff, -, hlevels⟩ := protocol calls
  obtain ⟨own', outer, hunfinished, halone⟩ := (hlevels _ _ hrun).2 _ _ hfinish
  obtain ⟨rfl, -⟩ := List.cons.inj (hown.symm.trans hunfinished)
  exact ⟨hiff.mp ⟨_, _, hrun⟩, hrun, hfinish, hown, halone⟩

end Call
end Clausal
