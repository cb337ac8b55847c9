import Clausal.Proofs.Typing.Reports

/-!
# The locals that a pattern leaves

The checker gives a pattern back with the types of its captures. These are the locals that it has put into
the innermost scope, each in front of those before it, so of two captures of one name the later one is
found. No other scope is touched, and nothing else is put into this one.
-/
namespace Clausal

open Checker

variable {decls : Declarations} {c c' : Checker}

namespace Pattern

mutual

/-- The captures of a pattern that have a type, in order. -/
def recorded : Pattern → Scope
  | .ignore _ => []
  | .capture _ _ none _ => []
  | .capture _ n (some t) _ => [(n, t)]
  | .equal _ _ _ => []
  | .record _ _ _ fields _ => recordedFields fields
  | .tuple _ _ _ fields _ => recordedAll fields
  | .group _ _ => []

/-- The captures of patterns that have a type, in order. -/
def recordedAll : List Pattern → Scope
  | [] => []
  | p :: ps => recorded p ++ recordedAll ps

/-- The captures of the patterns of fields that have a type, in order. -/
def recordedFields : List FieldPattern → Scope
  | [] => []
  | ⟨_, _, p⟩ :: fs => recorded p ++ recordedFields fs

end

end Pattern

namespace Checker

variable {names : List String} {ds : List Diagnostic} {α : Type}

/-- A step that binds nothing leaves the scopes as they were. -/
theorem Turns.scopes_same (h : Turns c c' [] ds) : c'.scopes = c.scopes := by
  obtain ⟨locals, hnames, hscopes⟩ := h.scopes_eq
  rw [hscopes, List.map_eq_nil_iff.mp hnames, push_nil]

theorem Adds.scopes_same {x : CheckM α} {a : α} (h : Adds decls c x [] ds)
    (hrun : x decls c = .ok a c') : c'.scopes = c.scopes :=
  (h a c' hrun).scopes_same

theorem push_reverse (l l' : Scope) (scopes : List Scope) :
    push l'.reverse (push l.reverse scopes) = push (l ++ l').reverse scopes := by
  rw [push_push, List.reverse_append]

end Checker

namespace Pattern

/-- The type of the value of a pattern is found without touching a scope. -/
theorem scopes_of_placeTy {place : Option Place} {t : Ty}
    (h : (do typeOfPlace (← Place.ofBound place)) decls c = .ok t c') : c'.scopes = c.scopes :=
  ((adds_ofBound place).bind_quiet fun q _ _ _ => adds_typeOfPlace q).scopes_same h

mutual

theorem check_scopes : ∀ {p q : Pattern} {t : Ty} {c c' : Checker},
    p.check decls c = .ok (t, q) c' → c'.scopes = push q.recorded.reverse c.scopes
  | .ignore s, q, t, c, c', h => by
    obtain ⟨u, c₁, hrun, h⟩ := exists_of_check_bind_eq_ok h
    cases h
    rw [adds_fresh.scopes_same hrun]
    exact (push_nil _).symm
  | .group _ _, q, t, c, c', h => by cases h
  | .capture s n annotation place, q, t, c, c', h => by
    rw [check, ← bind_assoc] at h
    obtain ⟨valueTy, c₁, hplace, h⟩ := exists_of_check_bind_eq_ok h
    have hrest {declared : Ty} {c₂ : Checker} (h : (do
        let ty ← unifyAt valueTy declared s
        bindLocal n ty
        return (ty, capture s n (some ty) place)) decls c₂ = .ok (t, q) c') :
        c'.scopes = push q.recorded.reverse c₂.scopes := by
      obtain ⟨ty, c₃, hunify, h⟩ := exists_of_check_bind_eq_ok h
      obtain ⟨u, c₄, hbind, h⟩ := exists_of_check_bind_eq_ok h
      cases h
      rw [← (adds_unifyAt _ _ _).scopes_same hunify]
      obtain ⟨subst, diagnostics, scopes⟩ := c₃
      cases scopes with
      | nil => cases hbind
      | cons scope outer =>
        cases hbind
        rfl
    rw [← scopes_of_placeTy hplace]
    cases annotation with
    | some declared => exact hrest h
    | none =>
      obtain ⟨declared, c₂, hfresh, h⟩ := exists_of_check_bind_eq_ok h
      rw [← adds_fresh.scopes_same hfresh]
      exact hrest h
  | .equal s e place, q, t, c, c', h => by
    rw [check, ← bind_assoc] at h
    obtain ⟨valueTy, c₁, hplace, h⟩ := exists_of_check_bind_eq_ok h
    obtain ⟨expected, c₂, hexpected, h⟩ := exists_of_check_bind_eq_ok h
    obtain ⟨ty, c₃, hunify, h⟩ := exists_of_check_bind_eq_ok h
    cases h
    rw [(adds_unifyAt _ _ _).scopes_same hunify, (expectedTy_adds _ s e place).scopes_same hexpected,
      scopes_of_placeTy hplace]
    exact (push_nil _).symm
  | .record s constr cs fields place, q, t, c, c', h => by
    rw [check, ← bind_assoc] at h
    obtain ⟨valueTy, c₁, hplace, h⟩ := exists_of_check_bind_eq_ok h
    obtain ⟨declared, c₂, hdeclared, h⟩ := exists_of_check_bind_eq_ok h
    obtain ⟨⟨tys, fields'⟩, c₃, hfields, h⟩ := exists_of_check_bind_eq_ok h
    obtain ⟨ty, c₄, hunify, h⟩ := exists_of_check_bind_eq_ok h
    cases h
    rw [(unifyTuple_adds _ _ _).scopes_same hunify, checkFields_scopes hfields,
      (declaredFields_spec hdeclared).1.scopes_same, scopes_of_placeTy hplace]
    rfl
  | .tuple s constr cs fields place, q, t, c, c', h => by
    rw [check, ← bind_assoc] at h
    obtain ⟨valueTy, c₁, hplace, h⟩ := exists_of_check_bind_eq_ok h
    obtain ⟨declared, c₂, hdeclared, h⟩ := exists_of_check_bind_eq_ok h
    obtain ⟨⟨tys, fields'⟩, c₃, hfields, h⟩ := exists_of_check_bind_eq_ok h
    obtain ⟨ty, c₄, hunify, h⟩ := exists_of_check_bind_eq_ok h
    cases h
    rw [(unifyTuple_adds _ _ _).scopes_same hunify, checkPositions_scopes hfields,
      (declaredFields_spec hdeclared).1.scopes_same, scopes_of_placeTy hplace]
    rfl

theorem checkFields_scopes : ∀ {fs gs : List FieldPattern} {declared : Option Fields} {ts : List Ty}
    {c c' : Checker}, checkFields declared fs decls c = .ok (ts, gs) c' →
    c'.scopes = push (recordedFields gs).reverse c.scopes
  | [], gs, declared, ts, c, c', h => by
    cases h
    exact (push_nil _).symm
  | ⟨n, ns, p⟩ :: fs, gs, declared, ts, c, c', h => by
    rw [checkFields] at h
    obtain ⟨u, c₁, hfield, h⟩ := exists_of_check_bind_eq_ok h
    obtain ⟨⟨t, q⟩, c₂, hp, h⟩ := exists_of_check_bind_eq_ok h
    obtain ⟨⟨ts', gs'⟩, c₃, hfs, h⟩ := exists_of_check_bind_eq_ok h
    cases h
    rw [checkFields_scopes hfs, check_scopes hp, (checkField_adds declared n ns).scopes_same hfield,
      push_reverse]
    rfl

theorem checkPositions_scopes : ∀ {ps qs : List Pattern} {declared : Option Fields} {ts : List Ty}
    {c c' : Checker}, checkPositions declared ps decls c = .ok (ts, qs) c' →
    c'.scopes = push (recordedAll qs).reverse c.scopes
  | [], qs, declared, ts, c, c', h => by
    cases h
    exact (push_nil _).symm
  | p :: ps, qs, declared, ts, c, c', h => by
    rw [checkPositions] at h
    have hrest {c₁ : Checker} (h : (do
        let (ty, q) ← check p
        let (tys, qs) ← checkPositions declared ps
        return (ty :: tys, q :: qs)) decls c₁ = .ok (ts, qs) c') :
        c'.scopes = push (recordedAll qs).reverse c₁.scopes := by
      obtain ⟨⟨t, q⟩, c₂, hp, h⟩ := exists_of_check_bind_eq_ok h
      obtain ⟨⟨ts', qs'⟩, c₃, hps, h⟩ := exists_of_check_bind_eq_ok h
      cases h
      rw [checkPositions_scopes hps, check_scopes hp, push_reverse]
      rfl
    cases hname : p.place?.bind Place.fieldName? with
    | none =>
      rw [hname] at h
      exact hrest h
    | some n =>
      rw [hname] at h
      obtain ⟨u, c₁, hfield, h⟩ := exists_of_check_bind_eq_ok h
      rw [← (checkField_adds declared n p.span).scopes_same hfield]
      exact hrest h

end

/-- What is recorded in an open scope has the names of the captures, in order. -/
theorem check_recorded {p q : Pattern} {t : Ty} {scope : Scope} {outer : List Scope}
    (h : p.check decls c = .ok (t, q) c') (hscopes : c.scopes = scope :: outer) :
    c'.scopes = (q.recorded.reverse ++ scope) :: outer ∧ q.recorded.map Prod.fst = p.captures := by
  have hrecorded := check_scopes h
  obtain ⟨locals, hnames, hlocals⟩ := (check_adds p c (t, q) c' h).scopes_eq
  rw [hscopes] at hrecorded hlocals
  refine ⟨hrecorded, ?_⟩
  have heq : q.recorded.reverse ++ scope = locals ++ scope :=
    (List.cons.inj (hrecorded.symm.trans hlocals)).1
  rw [← List.append_cancel_right heq, List.map_reverse] at hnames
  exact List.reverse_inj.mp hnames

end Pattern

/-- Behind the locals of a pattern a name is found as its last capture, and else as before. -/
theorem lookup_recorded {recorded scope : Scope} {n : String} :
    (n ∉ recorded.map Prod.fst → (recorded.reverse ++ scope).lookup n = scope.lookup n) ∧
    ∀ l t r, recorded = l ++ (n, t) :: r → n ∉ r.map Prod.fst →
      (recorded.reverse ++ scope).lookup n = some t := by
  have hbehind {l s : Scope} (h : n ∉ l.map Prod.fst) : (l.reverse ++ s).lookup n = s.lookup n := by
    have hnone : l.reverse.lookup n = none := by
      rw [← Option.not_isSome_iff_eq_none, isSome_lookup_iff, List.map_reverse, List.mem_reverse]
      exact h
    rw [List.lookup_append, hnone, Option.none_or]
  refine ⟨hbehind, ?_⟩
  rintro l t r rfl h
  rw [List.reverse_append, List.reverse_cons, List.append_assoc, List.append_assoc, hbehind h]
  exact List.lookup_cons_self

end Clausal
