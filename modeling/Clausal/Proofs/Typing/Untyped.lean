import Clausal.Proofs.Reduction.Lowered
import Clausal.Proofs.Typing.Steps

/-!
# What the checker changes

The checker gives back the matcher it was given, but for the types of the captures in its own clauses.
Neither places nor steps depend on these, so the reducer makes the same tree of both.
-/
namespace Clausal

open Checker

namespace Pattern

mutual

/-- The pattern without the types of its captures. -/
def untyped : Pattern → Pattern
  | .ignore s => .ignore s
  | .capture s n _ place => .capture s n none place
  | .equal s e place => .equal s e place
  | .record s c cs fields place => .record s c cs (untypedFields fields) place
  | .tuple s c cs fields place => .tuple s c cs (untypedAll fields) place
  | .group s members => .group s members

/-- The patterns without the types of their captures. -/
def untypedAll : List Pattern → List Pattern
  | [] => []
  | p :: ps => untyped p :: untypedAll ps

/-- The fields without the types of their captures. -/
def untypedFields : List FieldPattern → List FieldPattern
  | [] => []
  | ⟨n, ns, p⟩ :: fs => ⟨n, ns, untyped p⟩ :: untypedFields fs

end

mutual

theorem steps_untyped : ∀ p : Pattern, p.untyped.steps = p.steps
  | .ignore _ => rfl
  | .capture _ _ _ _ => rfl
  | .equal _ _ _ => rfl
  | .record _ _ _ fields _ => by rw [untyped, steps, steps, fieldSteps_untyped fields]
  | .tuple _ _ _ fields _ => by rw [untyped, steps, steps, stepsAll_untyped fields]
  | .group _ _ => rfl

theorem stepsAll_untyped : ∀ ps : List Pattern, stepsAll (untypedAll ps) = stepsAll ps
  | [] => rfl
  | p :: ps => by rw [untypedAll, stepsAll, stepsAll, steps_untyped p, stepsAll_untyped ps]

theorem fieldSteps_untyped : ∀ fs : List FieldPattern, fieldSteps (untypedFields fs) = fieldSteps fs
  | [] => rfl
  | ⟨_, _, p⟩ :: fs => by
    rw [untypedFields, fieldSteps, fieldSteps, steps_untyped p, fieldSteps_untyped fs]

end

variable {config : Config}

mutual

theorem boundAt_untyped : ∀ (p : Pattern) (place : Place),
    p.untyped.BoundAt config place ↔ p.BoundAt config place
  | .ignore _, _ => .rfl
  | .capture _ _ _ _, _ => .rfl
  | .equal _ _ _, _ => .rfl
  | .record _ c _ fields _, place =>
    and_congr_right fun _ => fieldsBoundAt_untyped fields (place.tagged c)
  | .tuple _ c _ fields _, place =>
    and_congr_right fun _ => positionsBoundAt_untyped fields (place.tagged c) 0
  | .group _ _, _ => .rfl

theorem fieldsBoundAt_untyped : ∀ (fs : List FieldPattern) (parent : Place),
    FieldsBoundAt config parent (untypedFields fs) ↔ FieldsBoundAt config parent fs
  | [], _ => .rfl
  | ⟨n, _, p⟩ :: fs, parent =>
    and_congr (boundAt_untyped p (parent.access n)) (fieldsBoundAt_untyped fs parent)

theorem positionsBoundAt_untyped : ∀ (ps : List Pattern) (parent : Place) (position : Nat),
    PositionsBoundAt config parent position (untypedAll ps) ↔ PositionsBoundAt config parent position ps
  | [], _, _ => .rfl
  | p :: ps, parent, position =>
    and_congr (boundAt_untyped p (parent.access (config.fieldName position)))
      (positionsBoundAt_untyped ps parent (position + 1))

end

theorem allBoundAt_untyped : ∀ (ps : List Pattern) (params : List Argument),
    AllBoundAt config (untypedAll ps) params ↔ AllBoundAt config ps params
  | [], [] => .rfl
  | [], _ :: _ => .rfl
  | _ :: _, [] => .rfl
  | p :: ps, a :: params =>
    and_congr (boundAt_untyped p (.ofArgument a)) (allBoundAt_untyped ps params)

variable {decls : Declarations} {c c' : Checker}

mutual

theorem check_untyped : ∀ {p q : Pattern} {ty : Ty} {c c' : Checker},
    p.check decls c = .ok (ty, q) c' → q.untyped = p.untyped
  | .ignore s, q, ty, c, c', h => by
    rw [check] at h
    obtain ⟨t, c₁, _, h⟩ := exists_of_check_bind_eq_ok h
    cases h
    rfl
  | .group _ _, q, ty, c, c', h => by cases h
  | .capture s n annotation place, q, ty, c, c', h => by
    rw [check] at h
    obtain ⟨p, c₁, _, h⟩ := exists_of_check_bind_eq_ok h
    obtain ⟨valueTy, c₂, _, h⟩ := exists_of_check_bind_eq_ok h
    have hrest {declared : Ty} {c₃ : Checker} (h : (do
        let ty ← unifyAt valueTy declared s
        bindLocal n ty
        return (ty, capture s n (some ty) place)) decls c₃ = .ok (ty, q) c') :
        q.untyped = .capture s n none place := by
      obtain ⟨t, c₄, _, h⟩ := exists_of_check_bind_eq_ok h
      obtain ⟨u, c₅, _, h⟩ := exists_of_check_bind_eq_ok h
      cases h
      rfl
    cases annotation with
    | some t =>
      obtain ⟨declared, c₃, _, h⟩ := exists_of_check_bind_eq_ok h
      exact hrest h
    | none =>
      obtain ⟨declared, c₃, _, h⟩ := exists_of_check_bind_eq_ok h
      exact hrest h
  | .equal s e place, q, ty, c, c', h => by
    rw [check] at h
    obtain ⟨p, c₁, _, h⟩ := exists_of_check_bind_eq_ok h
    obtain ⟨valueTy, c₂, _, h⟩ := exists_of_check_bind_eq_ok h
    obtain ⟨expected, c₃, _, h⟩ := exists_of_check_bind_eq_ok h
    obtain ⟨unified, c₄, _, h⟩ := exists_of_check_bind_eq_ok h
    cases h
    rfl
  | .record s constr cs fields place, q, ty, c, c', h => by
    rw [check] at h
    obtain ⟨p, c₁, _, h⟩ := exists_of_check_bind_eq_ok h
    obtain ⟨valueTy, c₂, _, h⟩ := exists_of_check_bind_eq_ok h
    obtain ⟨declared, c₃, _, h⟩ := exists_of_check_bind_eq_ok h
    obtain ⟨⟨tys, fields'⟩, c₄, hfields, h⟩ := exists_of_check_bind_eq_ok h
    obtain ⟨unified, c₅, _, h⟩ := exists_of_check_bind_eq_ok h
    cases h
    rw [untyped, untyped, checkFields_untyped hfields]
  | .tuple s constr cs fields place, q, ty, c, c', h => by
    rw [check] at h
    obtain ⟨p, c₁, _, h⟩ := exists_of_check_bind_eq_ok h
    obtain ⟨valueTy, c₂, _, h⟩ := exists_of_check_bind_eq_ok h
    obtain ⟨declared, c₃, _, h⟩ := exists_of_check_bind_eq_ok h
    obtain ⟨⟨tys, fields'⟩, c₄, hfields, h⟩ := exists_of_check_bind_eq_ok h
    obtain ⟨unified, c₅, _, h⟩ := exists_of_check_bind_eq_ok h
    cases h
    rw [untyped, untyped, checkPositions_untyped hfields]

theorem checkFields_untyped : ∀ {fs gs : List FieldPattern} {declared : Option Fields}
    {tys : List Ty} {c c' : Checker}, checkFields declared fs decls c = .ok (tys, gs) c' →
    untypedFields gs = untypedFields fs
  | [], gs, declared, tys, c, c', h => by
    cases h
    rfl
  | ⟨n, ns, p⟩ :: fs, gs, declared, tys, c, c', h => by
    rw [checkFields] at h
    obtain ⟨u, c₁, _, h⟩ := exists_of_check_bind_eq_ok h
    obtain ⟨⟨t, q⟩, c₂, hp, h⟩ := exists_of_check_bind_eq_ok h
    obtain ⟨⟨ts, gs'⟩, c₃, hfs, h⟩ := exists_of_check_bind_eq_ok h
    cases h
    rw [untypedFields, untypedFields, check_untyped hp, checkFields_untyped hfs]

theorem checkPositions_untyped : ∀ {ps qs : List Pattern} {declared : Option Fields}
    {tys : List Ty} {c c' : Checker}, checkPositions declared ps decls c = .ok (tys, qs) c' →
    untypedAll qs = untypedAll ps
  | [], qs, declared, tys, c, c', h => by
    cases h
    rfl
  | p :: ps, qs, declared, tys, c, c', h => by
    rw [checkPositions] at h
    have hrest {c₁ : Checker} (h : (do
        let (ty, q) ← check p
        let (tys, qs) ← checkPositions declared ps
        return (ty :: tys, q :: qs)) decls c₁ = .ok (tys, qs) c') :
        untypedAll qs = untypedAll (p :: ps) := by
      obtain ⟨⟨t, q⟩, c₂, hp, h⟩ := exists_of_check_bind_eq_ok h
      obtain ⟨⟨ts, qs'⟩, c₃, hps, h⟩ := exists_of_check_bind_eq_ok h
      cases h
      rw [untypedAll, untypedAll, check_untyped hp, checkPositions_untyped hps]
    cases hname : p.place?.bind Place.fieldName? with
    | none =>
      rw [hname] at h
      exact hrest h
    | some n =>
      rw [hname] at h
      obtain ⟨u, c₁, _, h⟩ := exists_of_check_bind_eq_ok h
      exact hrest h

end

theorem checkAll_untyped : ∀ {ps qs : List Pattern} {c c' : Checker},
    checkAll ps decls c = .ok qs c' → untypedAll qs = untypedAll ps
  | [], qs, c, c', h => by
    cases h
    rfl
  | p :: ps, qs, c, c', h => by
    rw [checkAll] at h
    obtain ⟨⟨t, q⟩, c₁, hp, h⟩ := exists_of_check_bind_eq_ok h
    obtain ⟨qs', c₂, hps, h⟩ := exists_of_check_bind_eq_ok h
    cases h
    rw [untypedAll, untypedAll, check_untyped hp, checkAll_untyped hps]

end Pattern

/-- The clause without the types of its captures. -/
def Clause.untyped (c : Clause) : Clause :=
  { c with patterns := Pattern.untypedAll c.patterns }

/-- The matcher without the types of the captures in its own clauses. -/
def Matcher.untyped (m : Matcher) : Matcher :=
  { m with clauses := m.clauses.map Clause.untyped }

variable {config : Config} {decls : Declarations} {c c' : Checker} {m m' : Matcher}

theorem Matcher.clauseStates_untyped (cs : List Clause) :
    Matcher.clauseStates (cs.map Clause.untyped) = Matcher.clauseStates cs := by
  induction cs with
  | nil => rfl
  | cons clause cs ih =>
    obtain ⟨_, patterns, body⟩ := clause
    rw [List.map_cons, Clause.untyped, Matcher.clauseStates, Matcher.clauseStates,
      Pattern.stepsAll_untyped, ih]

theorem Matcher.clausesBound_untyped (params : List Argument) (cs : List Clause) :
    Matcher.ClausesBound config params (cs.map Clause.untyped) ↔
      Matcher.ClausesBound config params cs := by
  induction cs with
  | nil => rfl
  | cons clause cs ih =>
    obtain ⟨_, patterns, _⟩ := clause
    exact and_congr (Pattern.allBoundAt_untyped patterns params) (and_congr_right fun _ => ih)

theorem Matcher.lowered_untyped (m : Matcher) : m.untyped.lowered = m.lowered := by
  rw [lowered, lowered, untyped, clauseStates_untyped]

theorem Matcher.bound_untyped (m : Matcher) : m.untyped.Bound config ↔ m.Bound config := by
  obtain ⟨_, _, params, _, clauses⟩ := m
  exact Matcher.clausesBound_untyped params clauses

theorem Matcher.checkClauses_untyped : ∀ {cs cs' : List Clause} {result : Ty} {c c' : Checker},
    Matcher.checkClauses result cs decls c = .ok cs' c' →
    cs'.map Clause.untyped = cs.map Clause.untyped
  | [], cs', result, c, c', h => by
    cases h
    rfl
  | ⟨s, patterns, body⟩ :: cs, cs', result, c, c', h => by
    rw [Matcher.checkClauses] at h
    obtain ⟨checked, c₁, hclause, h⟩ := exists_of_check_bind_eq_ok h
    obtain ⟨cs'', c₂, hcs, h⟩ := exists_of_check_bind_eq_ok h
    cases h
    obtain ⟨c₃, hclause, -⟩ := exists_of_withScope hclause
    obtain ⟨checked', c₄, hpatterns, hclause⟩ := exists_of_check_bind_eq_ok hclause
    obtain ⟨bodyTy, c₅, _, hclause⟩ := exists_of_check_bind_eq_ok hclause
    obtain ⟨unified, c₆, _, hclause⟩ := exists_of_check_bind_eq_ok hclause
    cases hclause
    rw [List.map_cons, List.map_cons, Matcher.checkClauses_untyped hcs, Clause.untyped,
      Clause.untyped, Pattern.checkAll_untyped hpatterns]

/-- What a successful check did in the end: the clauses were checked in a scope with the name of the matcher,
and the type was resolved behind that. -/
theorem Matcher.exists_of_check {ty : Ty} (h : m.check decls c = .ok (ty, m') c') :
    ∃ clauses c₁, (withScope do
        bindLocal m.name m.fnTy
        Matcher.checkClauses m.result m.clauses) decls c₁ = .ok clauses c' ∧
      ty = c'.subst.resolve m.fnTy ∧ m' = { m with clauses := clauses } := by
  have hclauses {c₁ : Checker} (h : (do
      let clauses ← withScope do
        bindLocal m.name m.fnTy
        Matcher.checkClauses m.result m.clauses
      return ((← get).subst.resolve m.fnTy, { m with clauses := clauses })) decls c₁ =
        .ok (ty, m') c') : ∃ clauses c₁, (withScope do
          bindLocal m.name m.fnTy
          Matcher.checkClauses m.result m.clauses) decls c₁ = .ok clauses c' ∧
        ty = c'.subst.resolve m.fnTy ∧ m' = { m with clauses := clauses } := by
    obtain ⟨clauses, c₂, hscope, h⟩ := exists_of_check_bind_eq_ok h
    obtain ⟨current, c₃, hget, h⟩ := exists_of_check_bind_eq_ok h
    cases hget
    cases h
    exact ⟨clauses, c₁, hscope, rfl, rfl⟩
  obtain ⟨decls', c₁, hread, h⟩ := exists_of_check_bind_eq_ok h
  cases hread
  cases hglobal : decls.env.global? m.name with
  | none =>
    rw [hglobal] at h
    exact hclauses h
  | some signature =>
    rw [hglobal] at h
    obtain ⟨t, c₁, _, h⟩ := exists_of_check_bind_eq_ok h
    obtain ⟨u, c₂, _, h⟩ := exists_of_check_bind_eq_ok h
    exact hclauses h

theorem Matcher.check_untyped {ty : Ty} (h : m.check decls c = .ok (ty, m') c') :
    m'.untyped = m.untyped := by
  obtain ⟨clauses, c₁, hscope, -, rfl⟩ := Matcher.exists_of_check h
  obtain ⟨c₂, hscope, -⟩ := exists_of_withScope hscope
  obtain ⟨u, c₃, _, hclauses⟩ := exists_of_check_bind_eq_ok hscope
  rw [Matcher.untyped, Matcher.untyped, Matcher.checkClauses_untyped hclauses]

theorem Matcher.check_name {ty : Ty} (h : m.check decls c = .ok (ty, m') c') : m'.name = m.name := by
  obtain ⟨clauses, c₁, -, -, rfl⟩ := Matcher.exists_of_check h
  rfl

theorem Matcher.check_bound {ty : Ty} (h : m.check decls c = .ok (ty, m') c') :
    m'.Bound config ↔ m.Bound config := by
  rw [← bound_untyped, Matcher.check_untyped h, bound_untyped]

theorem Matcher.check_lowered {ty : Ty} (h : m.check decls c = .ok (ty, m') c') :
    m'.lowered = m.lowered := by
  rw [← lowered_untyped, Matcher.check_untyped h, lowered_untyped]

theorem Matcher.check_params {ty : Ty} (h : m.check decls c = .ok (ty, m') c') :
    m'.params = m.params := by
  obtain ⟨clauses, c₁, -, -, rfl⟩ := Matcher.exists_of_check h
  rfl

end Clausal
