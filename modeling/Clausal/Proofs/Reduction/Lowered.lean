import Clausal.Proofs.Matcher.Bound
import Clausal.Reduction.Matcher

/-!
# The tree of a matcher

The tree is written down here as a function of the syntax, and the run of the reducer is shown to give it
if every pattern has its places; else the run breaks a contract. Which of the two it is, and with which
tree or contract, does not depend on the levels that the reducer holds, and neither outcome leaves a trace
on them: what stands below a level is never touched, and a level that is left behind is taken away.
-/
namespace Clausal

open Reducer

namespace Step

/-- The condition that a step adds to its clause. -/
def test? : Step → Option Tree
  | .capture _ _ => none
  | .equal e place => place.map (·.equalTest e)
  | .tag c place => place.map (·.tagTest c)

/-- The assignment that a step adds to its clause. -/
def assignment? : Step → Option (String × Tree)
  | .capture n place => place.map fun p => (n, p.toTree)
  | .equal _ _ => none
  | .tag _ _ => none

end Step

/-- The clause with what the steps add to it. -/
def ClauseState.fill (c : ClauseState) (steps : List Step) : ClauseState :=
  { c with
    assignments := c.assignments ++ steps.filterMap Step.assignment?
    conditions := c.conditions ++ steps.filterMap Step.test? }

theorem ClauseState.fill_nil (c : ClauseState) : c.fill [] = c := by
  simp only [fill, List.filterMap_nil, List.append_nil]

theorem ClauseState.fill_append (c : ClauseState) (l₁ l₂ : List Step) :
    c.fill (l₁ ++ l₂) = (c.fill l₁).fill l₂ := by
  simp only [fill, List.filterMap_append, List.append_assoc]

theorem ClauseState.fill_cons (c : ClauseState) (s : Step) (l : List Step) :
    c.fill (s :: l) = (c.fill [s]).fill l :=
  c.fill_append [s] l

mutual

/-- The tree of an expression. -/
def Expr.lowered : Expr → Tree
  | .literal _ l => .literal l
  | .name _ n => .symbol n
  | .call _ callee args => .call callee.lowered (Expr.loweredAll args)
  | .cond _ c t e => .cond c.lowered t.lowered e.lowered
  | .letIn _ n _ value body => .letIn n value.lowered body.lowered
  | .access _ value f _ => .access value.lowered f none
  | .matching _ scrutinees ⟨name, _, params, _, clauses⟩ =>
    .letAll ((params.map (·.name)).zip (Expr.loweredAll scrutinees))
      (ClauseState.chain (.fault name) (Matcher.clauseStates clauses))

/-- The trees of expressions. -/
def Expr.loweredAll : List Expr → List Tree
  | [] => []
  | e :: es => e.lowered :: Expr.loweredAll es

/-- What the reducer makes of clauses. -/
def Matcher.clauseStates : List Clause → List ClauseState
  | [] => []
  | ⟨_, patterns, body⟩ :: clauses =>
    ClauseState.fill { body := body.lowered } (Pattern.stepsAll patterns) ::
      Matcher.clauseStates clauses

end

/-- The tree of a matcher. -/
def Matcher.lowered (m : Matcher) : Tree :=
  ClauseState.chain (.fault m.name) (Matcher.clauseStates m.clauses)

/-! ## Runs that leave the levels below alone -/

/-- A pattern lacks its place, or is a group. -/
def Violation.OfPattern (v : Violation) : Prop :=
  v = .reducedUnbound ∨ v = .reducedGroup

/-- Whatever stands below the level, the run turns it into `l'` if `p` holds. Else it breaks a contract,
the same whatever stands below, and nothing below is touched either. -/
def OnLevel (x : ReduceM Unit) (l : Level) (p : Prop) (l' : Level) : Prop :=
  (p ∧ ∀ ls, x ⟨l :: ls⟩ = .ok () ⟨l' :: ls⟩) ∨
    (¬ p ∧ ∃ v left, v.OfPattern ∧ ∀ ls, x ⟨l :: ls⟩ = .error v ⟨left :: ls⟩)

/-- Whatever levels there are, the run answers `a` if `p` holds, and else breaks a contract, the same
whatever levels there are. Either way it leaves them as they were. -/
def Alone {α : Type} (x : ReduceM α) (p : Prop) (a : α) : Prop :=
  (p ∧ ∀ r, x r = .ok a r) ∨ (¬ p ∧ ∃ v, v.OfPattern ∧ ∀ r, x r = .error v r)

section

variable {α β : Type} {p q : Prop} {a : α} {b : β} {l l₁ l₂ : Level}

theorem OnLevel.of_ok {x : ReduceM Unit} (h : ∀ ls, x ⟨l :: ls⟩ = .ok () ⟨l₁ :: ls⟩) :
    OnLevel x l True l₁ :=
  .inl ⟨trivial, h⟩

theorem OnLevel.congr {x : ReduceM Unit} (h : OnLevel x l p l₁) (hpq : p ↔ q) : OnLevel x l q l₁ := by
  unfold OnLevel at h ⊢
  rw [← hpq]
  exact h

theorem OnLevel.then {x y : ReduceM Unit} (hx : OnLevel x l p l₁) (hy : OnLevel y l₁ q l₂) :
    OnLevel (do x; y) l (p ∧ q) l₂ := by
  rcases hx with ⟨hp, hx⟩ | ⟨hp, v, left, hv, hx⟩
  · rcases hy with ⟨hq, hy⟩ | ⟨hq, v, left, hv, hy⟩
    · exact .inl ⟨⟨hp, hq⟩, fun ls => (run_bind_of_eq_ok (hx ls)).trans (hy ls)⟩
    · exact .inr ⟨fun h => hq h.2, v, left, hv, fun ls => (run_bind_of_eq_ok (hx ls)).trans (hy ls)⟩
  · exact .inr ⟨fun h => hp h.1, v, left, hv, fun ls => run_bind_of_eq_error (hx ls)⟩

theorem Alone.eq_ok {x : ReduceM α} (h : Alone x p a) (hp : p) (r : Reducer) : x r = .ok a r := by
  rcases h with ⟨-, h⟩ | ⟨hn, -⟩
  · exact h r
  · exact absurd hp hn

theorem alone_pure (a : α) : Alone (pure a) True a :=
  .inl ⟨trivial, fun _ => rfl⟩

theorem Alone.congr {x : ReduceM α} (h : Alone x p a) (hpq : p ↔ q) : Alone x q a := by
  unfold Alone at h ⊢
  rw [← hpq]
  exact h

theorem Alone.bind {x : ReduceM α} {f : α → ReduceM β} (hx : Alone x p a) (hf : Alone (f a) q b) :
    Alone (x >>= f) (p ∧ q) b := by
  rcases hx with ⟨hp, hx⟩ | ⟨hp, v, hv, hx⟩
  · rcases hf with ⟨hq, hf⟩ | ⟨hq, v, hv, hf⟩
    · exact .inl ⟨⟨hp, hq⟩, fun r => (run_bind_of_eq_ok (hx r)).trans (hf r)⟩
    · exact .inr ⟨fun h => hq h.2, v, hv, fun r => (run_bind_of_eq_ok (hx r)).trans (hf r)⟩
  · exact .inr ⟨fun h => hp h.1, v, hv, fun r => run_bind_of_eq_error (hx r)⟩

theorem Alone.map {x : ReduceM α} (hx : Alone x p a) (g : α → β) : Alone (do return g (← x)) p (g a) :=
  (hx.bind (alone_pure (g a))).congr (and_iff_left trivial)

/-- What leaves all levels alone can be done first. -/
theorem Alone.bind_onLevel {x : ReduceM α} {f : α → ReduceM Unit} (hx : Alone x p a)
    (hf : OnLevel (f a) l q l₁) : OnLevel (x >>= f) l (p ∧ q) l₁ := by
  rcases hx with ⟨hp, hx⟩ | ⟨hp, v, hv, hx⟩
  · rcases hf with ⟨hq, hf⟩ | ⟨hq, v, left, hv, hf⟩
    · exact .inl ⟨⟨hp, hq⟩, fun ls => (run_bind_of_eq_ok (hx _)).trans (hf ls)⟩
    · exact .inr ⟨fun h => hq h.2, v, left, hv, fun ls => (run_bind_of_eq_ok (hx _)).trans (hf ls)⟩
  · exact .inr ⟨fun h => hp h.1, v, l, hv, fun ls => run_bind_of_eq_error (hx _)⟩

end

/-! ## Filling a clause -/

variable {l : Level} {c : ClauseState}

namespace Pattern

theorem assign_onLevel (n : String) (place : Place) :
    OnLevel (assign n place) { l with opened := some c } True
      { l with opened := some (c.fill [.capture n (some place)]) } := by
  have h : c.fill [.capture n (some place)] =
      { c with assignments := c.assignments ++ [(n, place.toTree)] } := by
    rw [ClauseState.fill]
    congr 1
    exact List.append_nil _
  rw [h]
  exact .of_ok fun _ => rfl

theorem require_onLevel {s : Step} {t : Tree} (ht : s.test? = some t) (hs : s.assignment? = none) :
    OnLevel (require t) { l with opened := some c } True { l with opened := some (c.fill [s]) } := by
  have h : c.fill [s] = { c with conditions := c.conditions ++ [t] } := by
    simp only [ClauseState.fill, List.filterMap_cons, ht, hs, List.filterMap_nil, List.append_nil]
  rw [h]
  exact .of_ok fun _ => rfl

/-- A node that lacks its place breaks a contract before it does anything. -/
theorem onLevel_of_place {f : Place → ReduceM Unit} {s : Option Place → Step}
    (hf : ∀ place, OnLevel (f place) { l with opened := some c } True
      { l with opened := some (c.fill [s (some place)]) }) :
    ∀ place : Option Place, OnLevel (reducedPlace place >>= f) { l with opened := some c }
      (place.isSome = true) { l with opened := some (c.fill [s place]) }
  | none => .inr ⟨Bool.false_ne_true, .reducedUnbound, _, .inl rfl, fun _ => rfl⟩
  | some place => (hf place).congr (iff_of_true trivial rfl)

mutual

theorem reduce_onLevel : ∀ (p : Pattern) {c : ClauseState},
    OnLevel p.reduce { l with opened := some c } (p.isBound = true)
      { l with opened := some (c.fill p.steps) }
  | .ignore s, c => by
    rw [steps, ClauseState.fill_nil]
    exact .inl ⟨rfl, fun _ => rfl⟩
  | .capture s n t place, c =>
    onLevel_of_place (s := .capture n) (assign_onLevel n) place
  | .equal s e place, c =>
    onLevel_of_place (s := .equal e) (fun _ => require_onLevel rfl rfl) place
  | .record s constr cs fields place, c => by
    rw [isBound, Bool.and_eq_true, reduce, ← bind_assoc, steps, ClauseState.fill_cons]
    exact (onLevel_of_place (s := .tag constr) (fun _ => require_onLevel rfl rfl) place).then
      (reduceFields_onLevel fields)
  | .tuple s constr cs fields place, c => by
    rw [isBound, Bool.and_eq_true, reduce, ← bind_assoc, steps, ClauseState.fill_cons]
    exact (onLevel_of_place (s := .tag constr) (fun _ => require_onLevel rfl rfl) place).then
      (reduceAll_onLevel fields)
  | .group s members, c =>
    .inr ⟨Bool.false_ne_true, .reducedGroup, _, .inr rfl, fun _ => rfl⟩

theorem reduceAll_onLevel : ∀ (ps : List Pattern) {c : ClauseState},
    OnLevel (reduceAll ps) { l with opened := some c } (allBound ps = true)
      { l with opened := some (c.fill (stepsAll ps)) }
  | [], c => by
    rw [stepsAll, ClauseState.fill_nil]
    exact .inl ⟨rfl, fun _ => rfl⟩
  | p :: ps, c => by
    rw [allBound, Bool.and_eq_true, reduceAll, stepsAll, ClauseState.fill_append]
    exact (reduce_onLevel p).then (reduceAll_onLevel ps)

theorem reduceFields_onLevel : ∀ (fs : List FieldPattern) {c : ClauseState},
    OnLevel (reduceFields fs) { l with opened := some c } (fieldsBound fs = true)
      { l with opened := some (c.fill (fieldSteps fs)) }
  | [], c => by
    rw [fieldSteps, ClauseState.fill_nil]
    exact .inl ⟨rfl, fun _ => rfl⟩
  | ⟨n, ns, p⟩ :: fs, c => by
    rw [fieldsBound, Bool.and_eq_true, reduceFields, fieldSteps, ClauseState.fill_append]
    exact (reduce_onLevel p).then (reduceFields_onLevel fs)

end

end Pattern

/-! ## Reducing a matcher -/

theorem Reducer.truncate_depth (r : Reducer) : r.truncate r.depth = r := by
  rw [truncate, depth, Nat.sub_self, List.drop_zero]

theorem Reducer.truncate_cons (l : Level) (r : Reducer) : (⟨l :: r.levels⟩ : Reducer).truncate r.depth = r := by
  rw [truncate, depth, List.length_cons, Nat.add_sub_cancel_left]
  rfl

/-- Clauses are reduced on a level of their own, which is taken away in the end, also where they break a
contract. -/
theorem Reducer.guarded_alone {name : String} {cs : List Clause} {states : List ClauseState} {p : Prop}
    (h : OnLevel (Matcher.reduceClauses cs) ⟨name, [], none, false⟩ p ⟨name, states, none, false⟩) :
    Alone (guarded do
      beginMatcher name
      Matcher.reduceClauses cs
      endMatcher
      finish) p (ClauseState.chain (.fault name) states) := by
  have hbegin (r : Reducer) : beginMatcher name r = .ok () ⟨⟨name, [], none, false⟩ :: r.levels⟩ := rfl
  rcases h with ⟨hp, h⟩ | ⟨hp, v, left, hv, h⟩
  · refine .inl ⟨hp, fun r => ?_⟩
    have hend : endMatcher ⟨⟨name, states, none, false⟩ :: r.levels⟩ =
      .ok () ⟨⟨name, states, none, true⟩ :: r.levels⟩ := rfl
    have hfinish : finish ⟨⟨name, states, none, true⟩ :: r.levels⟩ =
      .ok (ClauseState.chain (.fault name) states) r := rfl
    rw [guarded, run_bind_of_eq_ok (hbegin r), run_bind_of_eq_ok (h _), run_bind_of_eq_ok hend, hfinish]
    exact congrArg _ r.truncate_depth
  · refine .inr ⟨hp, v, hv, fun r => ?_⟩
    rw [guarded, run_bind_of_eq_ok (hbegin r), run_bind_of_eq_error (h _)]
    exact congrArg _ (truncate_cons left r)

mutual

theorem Expr.lower_alone : ∀ e : Expr, Alone e.lower e.Placed e.lowered
  | .literal _ l => alone_pure _
  | .name _ n => alone_pure _
  | .call _ callee args => by
    rw [Expr.lower, Expr.lowered, Expr.Placed]
    exact callee.lower_alone.bind ((Expr.lowerAll_alone args).map _)
  | .cond _ c t e => by
    rw [Expr.lower, Expr.lowered, Expr.Placed]
    exact c.lower_alone.bind (t.lower_alone.bind (e.lower_alone.map _))
  | .letIn _ n _ value body => by
    rw [Expr.lower, Expr.lowered, Expr.Placed]
    exact value.lower_alone.bind (body.lower_alone.map _)
  | .access _ value f _ => by
    rw [Expr.lower, Expr.lowered, Expr.Placed]
    exact value.lower_alone.map _
  | .matching _ scrutinees ⟨name, _, params, _, clauses⟩ => by
    rw [Expr.lower, Expr.lowered, Expr.Placed, Matcher.Placed]
    exact (Expr.lowerAll_alone scrutinees).bind
      ((Reducer.guarded_alone (Matcher.reduceClauses_onLevel name [] clauses)).map _)

theorem Expr.lowerAll_alone : ∀ es : List Expr,
    Alone (Expr.lowerAll es) (Expr.PlacedAll es) (Expr.loweredAll es)
  | [] => alone_pure _
  | e :: es => by
    rw [Expr.lowerAll, Expr.loweredAll, Expr.PlacedAll]
    exact e.lower_alone.bind ((Expr.lowerAll_alone es).map _)

theorem Matcher.reduceClauses_onLevel (name : String) : ∀ (done : List ClauseState) (cs : List Clause),
    OnLevel (Matcher.reduceClauses cs) ⟨name, done, none, false⟩ (Matcher.ClausesPlaced cs)
      ⟨name, done ++ Matcher.clauseStates cs, none, false⟩
  | done, [] => by
    rw [Matcher.clauseStates, List.append_nil]
    exact .of_ok fun _ => rfl
  | done, ⟨s, patterns, body⟩ :: cs => by
    have hopen (b : Tree) : OnLevel (beginClause b) ⟨name, done, none, false⟩ True
      ⟨name, done, some { body := b }, false⟩ := .of_ok fun _ => rfl
    have hclose (c : ClauseState) : OnLevel endClause ⟨name, done, some c, false⟩ True
      ⟨name, done ++ [c], none, false⟩ := .of_ok fun _ => rfl
    have hfill := Pattern.reduceAll_onLevel (l := ⟨name, done, none, false⟩) patterns
      (c := { body := body.lowered })
    rw [Matcher.reduceClauses, Matcher.clauseStates, List.append_cons, Matcher.ClausesPlaced]
    refine .congr (body.lower_alone.bind_onLevel ?_) and_left_comm
    have hrest := hfill.then ((hclose _).then (Matcher.reduceClauses_onLevel name _ cs))
    exact ((hopen body.lowered).then hrest).congr (by rw [true_and, true_and])

end

theorem Matcher.reduce_alone (m : Matcher) : Alone m.reduce m.Placed m.lowered := by
  obtain ⟨name, _, params, _, clauses⟩ := m
  exact Reducer.guarded_alone (Matcher.reduceClauses_onLevel name [] clauses)

variable {config : Config}

theorem Expr.lower_run {e : Expr} (r : Reducer) (h : e.Bound config) : e.lower r = .ok e.lowered r :=
  e.lower_alone.eq_ok h.placed r

theorem Matcher.reduce_run {m : Matcher} (r : Reducer) (h : m.Bound config) :
    m.reduce r = .ok m.lowered r :=
  m.reduce_alone.eq_ok h.placed r

/-- A reducer that has matchers in flight, whatever it holds of them, answers as a new one does, with the
same tree or the same broken contract, and holds afterwards what it held before. There is a tree exactly
if every pattern has its places, those of the matchers inside bodies and scrutinees included; the contract
that is broken otherwise is that of a pattern, and never one of the calls to the reducer. -/
theorem Matcher.reduce_undisturbed (m : Matcher) (r : Reducer) :
    (∀ t r', m.reduce r = .ok t r' ↔ m.reduce {} = .ok t {} ∧ r' = r) ∧
    (∀ v r', m.reduce r = .error v r' ↔ m.reduce {} = .error v {} ∧ r' = r) ∧
    ((∃ t, m.reduce r = .ok t r) ↔ m.Placed) ∧
    ((∃ v, v.OfPattern ∧ m.reduce r = .error v r) ↔ ¬ m.Placed) := by
  rcases m.reduce_alone with ⟨hp, h⟩ | ⟨hp, v, hv, h⟩
  · rw [h, h]
    refine ⟨fun t r' => ?_, fun v r' => ?_, iff_of_true ⟨_, rfl⟩ hp, iff_of_false ?_ (not_not_intro hp)⟩
    · constructor
      · rintro ⟨⟩
        exact ⟨rfl, rfl⟩
      · rintro ⟨⟨⟩, rfl⟩
        rfl
    · exact iff_of_false (fun h => by cases h) (fun h => by cases h.1)
    · rintro ⟨v, -, h⟩
      cases h
  · rw [h, h]
    refine ⟨fun t r' => ?_, fun v r' => ?_, iff_of_false ?_ hp, iff_of_true ⟨v, hv, rfl⟩ hp⟩
    · exact iff_of_false (fun h => by cases h) (fun h => by cases h.1)
    · constructor
      · rintro ⟨⟩
        exact ⟨rfl, rfl⟩
      · rintro ⟨⟨⟩, rfl⟩
        rfl
    · rintro ⟨t, h⟩
      cases h

end Clausal
