import Clausal.Proofs.Eval.Faults
import Clausal.Proofs.Reduction.Lowered

/-!
# The faults of a reduced matcher

A matcher with a clause that takes everything leaves no fault, and every other one leaves exactly one, at
the end of its chain. Clauses behind the first one that takes everything are dropped with all that is
inside them, and so are scrutinees without a placeholder. Everything else stands in the tree once: a body
is not copied, and conditions and captures are made of places, which have no matchers inside.
-/
namespace Clausal

/-- The pattern matches every value. -/
def Pattern.isIrrefutable : Pattern → Bool
  | .ignore _ => true
  | .capture _ _ _ _ => true
  | .equal _ _ _ => false
  | .record _ _ _ _ _ => false
  | .tuple _ _ _ _ _ => false
  | .group _ _ => false

/-- The clause takes every row of values. -/
def Clause.isIrrefutable (c : Clause) : Bool :=
  c.patterns.all Pattern.isIrrefutable

/-- Some clause takes whatever the matcher is applied to. -/
def Matcher.isTotal (m : Matcher) : Bool :=
  m.clauses.any Clause.isIrrefutable

mutual

/-- The matchers in an expression, without those that reduction drops. -/
def Expr.emitted : Expr → List Matcher
  | .literal _ _ => []
  | .name _ _ => []
  | .call _ callee args => callee.emitted ++ Expr.emittedAll args
  | .cond _ c t e => c.emitted ++ t.emitted ++ e.emitted
  | .letIn _ _ _ value body => value.emitted ++ body.emitted
  | .access _ value _ _ => value.emitted
  | .matching _ scrutinees ⟨name, nameSpan, params, result, clauses⟩ =>
    Expr.emittedPaired params scrutinees ++
      ⟨name, nameSpan, params, result, clauses⟩ :: Matcher.clauseEmitted clauses

/-- The matchers in expressions. -/
def Expr.emittedAll : List Expr → List Matcher
  | [] => []
  | e :: es => e.emitted ++ Expr.emittedAll es

/-- The matchers in the scrutinees that have a placeholder. -/
def Expr.emittedPaired : List Argument → List Expr → List Matcher
  | [], _ => []
  | _ :: _, [] => []
  | _ :: params, e :: es => e.emitted ++ Expr.emittedPaired params es

/-- The matchers in the bodies of clauses, up to the first clause that takes everything. -/
def Matcher.clauseEmitted : List Clause → List Matcher
  | [] => []
  | ⟨_, patterns, body⟩ :: clauses =>
    body.emitted ++ if patterns.all Pattern.isIrrefutable then [] else Matcher.clauseEmitted clauses

end

/-- A matcher and those inside it, without those that reduction drops. -/
def Matcher.emitted (m : Matcher) : List Matcher :=
  m :: Matcher.clauseEmitted m.clauses

/-- How many of the matchers have no clause that takes everything. -/
def Matcher.partialCount (ms : List Matcher) : Nat :=
  ms.countP fun m => !m.isTotal

/-! ## Faults of the parts of a clause -/

theorem Place.faultCount_toTree (q : Place) : q.toTree.faultCount = 0 := by
  induction q with
  | argument arg tag => rfl
  | field parent name tag ih => exact ih

namespace Tree

theorem faultCountAll_eq_zero {ts : List Tree} (h : ∀ t ∈ ts, t.faultCount = 0) :
    faultCountAll ts = 0 := by
  induction ts with
  | nil => rfl
  | cons t ts ih =>
    obtain ⟨ht, hts⟩ := List.forall_mem_cons.mp h
    rw [faultCountAll, ht, ih hts]

theorem faultCount_letAll (bindings : List (String × Tree)) (body : Tree) :
    (letAll bindings body).faultCount = faultCountAll (bindings.map Prod.snd) + body.faultCount := by
  induction bindings with
  | nil => exact (Nat.zero_add _).symm
  | cons b bindings ih =>
    change b.2.faultCount + (letAll bindings body).faultCount = _
    rw [ih, ← Nat.add_assoc]
    rfl

end Tree

namespace Step

theorem faultCount_test {s : Step} {t : Tree} (h : s.test? = some t) : t.faultCount = 0 := by
  cases s with
  | capture n place => cases h
  | equal e place =>
    obtain ⟨q, rfl, rfl⟩ := Option.map_eq_some_iff.mp h
    cases e <;> simp [Place.equalTest, Expected.toTree, Tree.faultCount, Tree.faultCountAll,
      q.faultCount_toTree]
  | tag c place =>
    obtain ⟨q, rfl, rfl⟩ := Option.map_eq_some_iff.mp h
    exact q.faultCount_toTree

theorem faultCount_assignment {s : Step} {b : String × Tree} (h : s.assignment? = some b) :
    b.2.faultCount = 0 := by
  cases s with
  | capture n place =>
    obtain ⟨q, rfl, rfl⟩ := Option.map_eq_some_iff.mp h
    exact q.faultCount_toTree
  | equal e place => cases h
  | tag c place => cases h

end Step

namespace ClauseState

variable {body : Tree} {steps : List Step}

theorem faultCountAll_conditions :
    Tree.faultCountAll (fill { body := body } steps).conditions = 0 := by
  refine Tree.faultCountAll_eq_zero fun t ht => ?_
  obtain ⟨s, -, ht⟩ := List.mem_filterMap.mp ht
  exact Step.faultCount_test ht

theorem faultCount_condition (c : ClauseState) :
    c.condition.faultCount = Tree.faultCountAll c.conditions := by
  rw [condition]
  split
  case h_1 only hc =>
    rw [hc]
    rfl
  case h_2 => exact Nat.zero_add _

/-- A clause has the faults of its body. -/
theorem faultCount_toTree :
    (fill { body := body } steps).toTree.faultCount = body.faultCount := by
  rw [toTree, Tree.faultCount_letAll]
  refine Nat.add_eq_right.mpr (Tree.faultCountAll_eq_zero fun t ht => ?_)
  obtain ⟨b, hb, rfl⟩ := List.mem_map.mp ht
  obtain ⟨s, -, hb⟩ := List.mem_filterMap.mp hb
  exact Step.faultCount_assignment hb

end ClauseState

namespace Pattern

/-- A bound pattern adds no condition exactly if it matches everything. -/
theorem tests_eq_nil_iff {p : Pattern} (h : p.isBound = true) :
    p.steps.filterMap Step.test? = [] ↔ p.isIrrefutable = true := by
  cases p with
  | ignore s => exact iff_of_true rfl rfl
  | capture s n ty place => exact iff_of_true rfl rfl
  | equal s e place =>
    obtain ⟨q, rfl⟩ := Option.isSome_iff_exists.mp h
    exact iff_of_false nofun Bool.false_ne_true
  | record s c cs fields place =>
    rw [isBound, Bool.and_eq_true] at h
    obtain ⟨q, rfl⟩ := Option.isSome_iff_exists.mp h.1
    exact iff_of_false nofun Bool.false_ne_true
  | tuple s c cs fields place =>
    rw [isBound, Bool.and_eq_true] at h
    obtain ⟨q, rfl⟩ := Option.isSome_iff_exists.mp h.1
    exact iff_of_false nofun Bool.false_ne_true
  | group s members => cases h

theorem testsAll_eq_nil_iff : ∀ {ps : List Pattern}, allBound ps = true →
    ((stepsAll ps).filterMap Step.test? = [] ↔ ps.all isIrrefutable = true)
  | [], _ => iff_of_true rfl rfl
  | p :: ps, h => by
    rw [allBound, Bool.and_eq_true] at h
    have hp := tests_eq_nil_iff h.1
    have hps := testsAll_eq_nil_iff h.2
    rw [stepsAll, List.filterMap_append, List.append_eq_nil_iff, hp, hps, List.all_cons,
      Bool.and_eq_true]

end Pattern

/-! ## Faults of matchers -/

namespace Matcher

theorem partialCount_append (l₁ l₂ : List Matcher) :
    partialCount (l₁ ++ l₂) = partialCount l₁ + partialCount l₂ :=
  List.countP_append

theorem partialCount_cons (m : Matcher) (ms : List Matcher) :
    partialCount (m :: ms) = partialCount ms + if m.isTotal then 0 else 1 := by
  rw [partialCount, List.countP_cons]
  cases m.isTotal <;> rfl

end Matcher

mutual

theorem Expr.faultCount_lowered : ∀ {e : Expr}, e.Placed →
    e.lowered.faultCount = Matcher.partialCount e.emitted
  | .literal _ _, _ => rfl
  | .name _ _, _ => rfl
  | .call _ _ _, ⟨hcallee, hargs⟩ => by
    rw [Expr.lowered, Tree.faultCount, Expr.emitted, Matcher.partialCount_append,
      Expr.faultCount_lowered hcallee, Expr.faultCountAll_lowered hargs]
  | .cond _ _ _ _, ⟨hc, ht, he⟩ => by
    rw [Expr.lowered, Tree.faultCount, Expr.emitted, Matcher.partialCount_append,
      Matcher.partialCount_append, Expr.faultCount_lowered hc, Expr.faultCount_lowered ht,
      Expr.faultCount_lowered he]
  | .letIn _ _ _ _ _, ⟨hvalue, hbody⟩ => by
    rw [Expr.lowered, Tree.faultCount, Expr.emitted, Matcher.partialCount_append,
      Expr.faultCount_lowered hvalue, Expr.faultCount_lowered hbody]
  | .access _ _ _ _, h => by
    rw [Expr.Placed] at h
    rw [Expr.lowered, Tree.faultCount, Expr.emitted, Expr.faultCount_lowered h]
  | .matching _ scrutinees ⟨name, _, params, _, clauses⟩, ⟨hscrutinees, hclauses⟩ => by
    rw [Expr.lowered, Tree.faultCount_letAll, Expr.emitted, Matcher.partialCount_append,
      Matcher.partialCount_cons, Expr.faultCountAll_paired hscrutinees,
      Matcher.faultCount_chain name hclauses]
    rfl

theorem Expr.faultCountAll_lowered : ∀ {es : List Expr}, Expr.PlacedAll es →
    Tree.faultCountAll (Expr.loweredAll es) = Matcher.partialCount (Expr.emittedAll es)
  | [], _ => rfl
  | _ :: _, ⟨he, hes⟩ => by
    rw [Expr.loweredAll, Tree.faultCountAll, Expr.emittedAll, Matcher.partialCount_append,
      Expr.faultCount_lowered he, Expr.faultCountAll_lowered hes]

theorem Expr.faultCountAll_paired : ∀ {es : List Expr} {params : List Argument}, Expr.PlacedAll es →
    Tree.faultCountAll (((params.map (·.name)).zip (Expr.loweredAll es)).map Prod.snd) =
      Matcher.partialCount (Expr.emittedPaired params es)
  | [], [], _ => rfl
  | [], _ :: _, _ => rfl
  | _ :: _, [], _ => rfl
  | e :: _, param :: params, ⟨he, hes⟩ => by
    rw [Expr.loweredAll, List.map_cons, List.zip_cons_cons, List.map_cons, Tree.faultCountAll,
      Expr.emittedPaired, Matcher.partialCount_append, Expr.faultCount_lowered he,
      Expr.faultCountAll_paired hes]

/-- A chain ends in a fault if no clause takes everything. -/
theorem Matcher.faultCount_chain (name : String) : ∀ {cs : List Clause}, Matcher.ClausesPlaced cs →
    (ClauseState.chain (.fault name) (Matcher.clauseStates cs)).faultCount =
      Matcher.partialCount (Matcher.clauseEmitted cs) + if cs.any Clause.isIrrefutable then 0 else 1
  | [], _ => rfl
  | ⟨_, patterns, body⟩ :: cs, ⟨hpatterns, hbody, hcs⟩ => by
    have hempty := Pattern.testsAll_eq_nil_iff hpatterns
    have hbodyCount := Expr.faultCount_lowered hbody
    rw [Matcher.clauseStates, ClauseState.chain, Matcher.clauseEmitted, Matcher.partialCount_append,
      List.any_cons, Clause.isIrrefutable]
    cases hall : patterns.all Pattern.isIrrefutable with
    | true =>
      have hnil : (ClauseState.fill { body := body.lowered }
          (Pattern.stepsAll patterns)).conditions.isEmpty = true := by
        rw [List.isEmpty_iff]
        exact hempty.mpr hall
      rw [if_pos hnil, ClauseState.faultCount_toTree, hbodyCount]
      rfl
    | false =>
      have hnil : ¬ (ClauseState.fill { body := body.lowered }
          (Pattern.stepsAll patterns)).conditions.isEmpty = true := by
        rw [List.isEmpty_iff]
        exact fun h => Bool.false_ne_true (hall.symm.trans (hempty.mp h))
      rw [if_neg hnil, Tree.faultCount, ClauseState.faultCount_condition,
        ClauseState.faultCountAll_conditions, ClauseState.faultCount_toTree, hbodyCount,
        Matcher.faultCount_chain name hcs, Nat.zero_add, Nat.add_assoc]
      rfl

end

/-- The tree of a matcher has one fault for each matcher without a clause that takes everything, among the
matcher and those inside it that reduction does not drop. And where no definition has a fault, no request
ends in a match that is not exhaustive, whatever arguments a definition is applied to and whatever is on
the stack, if the tree of the request has no fault either. -/
theorem faults_exact :
    (∀ m : Matcher, m.Placed → ∀ r : Reducer,
      ∃ t, m.reduce r = .ok t r ∧ t.faultCount = Matcher.partialCount m.emitted) ∧
    ∀ i : Interpreter, i.FaultFree → ∀ q : Interpreter.Request, q.FaultFree →
      ∀ (stack stack' : Locals) (name : String),
        (q.answer i).on stack ≠ some (.error (.nonExhaustiveMatch name), stack') := by
  refine ⟨fun m hm r => ⟨_, m.reduce_alone.eq_ok hm r, ?_⟩, fun i hi q hq =>
    Interpreter.answer_ne_nonExhaustiveMatch hi hq⟩
  obtain ⟨name, _, params, _, clauses⟩ := m
  rw [Matcher.emitted, Matcher.partialCount_cons]
  exact Matcher.faultCount_chain name hm

/-- The matcher and the `g` in its first clause take every value. The second clause applies `h`, which takes
one value only, to two scrutinees, of which the second has no placeholder; and the third clause is never
reached. So `h` is applied three times, and leaves one fault. -/
theorem faults_exact_nested :
    let int : Ty := .constant "Int"
    let g : Matcher := ⟨"g", default, [⟨"%arg2", int⟩], int,
      [⟨default, [.capture default "y" none none], .name default "y"⟩]⟩
    let h : Matcher := ⟨"h", default, [⟨"%arg3", int⟩], int,
      [⟨default, [.equal default (.literal (.int 2)) none], .literal default (.int 3)⟩]⟩
    let m : Matcher := ⟨"f", default, [⟨"%arg1", int⟩], int,
      [⟨default, [.equal default (.literal (.int 1)) none],
        .matching default [.literal default (.int 0)] g⟩,
      ⟨default, [.capture default "x" none none],
        .matching default [.name default "x", .matching default [.name default "x"] h] h⟩,
      ⟨default, [.ignore default], .matching default [.literal default (.int 0)] h⟩]⟩
    let i : Interpreter := ⟨[⟨"k", ["%arg1"], int, .letIn "x" (.symbol "%arg1") (.symbol "x")⟩]⟩
    (∃ m', m.bind {} = .ok m' ∧ ∃ t, m'.reduce {} = .ok t {} ∧ t.faultCount = 1) ∧
      ∀ (stack' : Locals) (name : String),
        ((Interpreter.Request.apply 1 "k" [.literal .unit]).answer i).on [] ≠
          some (.error (.nonExhaustiveMatch name), stack') := by
  intro int g h m i
  obtain ⟨hcount, hfaultless⟩ := faults_exact
  obtain ⟨m', hbind, hpartial⟩ :
    ∃ m', m.bind {} = .ok m' ∧ Matcher.partialCount m'.emitted = 1 := ⟨_, rfl, rfl⟩
  have hi : i.FaultFree := by
    intro name d hd
    obtain rfl := List.mem_singleton.mp (List.mem_of_find?_eq_some hd)
    rfl
  refine ⟨⟨m', hbind, ?_⟩, fun stack' name => hfaultless i hi (.apply 1 "k" _) trivial [] stack' name⟩
  rw [← hpartial]
  exact hcount m' (Matcher.bind_bound hbind).placed {}

end Clausal
