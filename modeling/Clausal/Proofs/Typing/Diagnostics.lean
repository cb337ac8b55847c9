import Clausal.Proofs.Substitution.Evolution
import Clausal.Proofs.Typing.Steps
import Clausal.Proofs.Unification.Failure

/-!
# What the reports say of types

A report shows types as they are known when it is made. Two types that do not match clash in what is shown. A
type that is circular is shown with the representatives of the classes, but its variable is the one that the
unifier came to; so the class always occurs in the type, and the variable itself only if it is the
representative.
-/
namespace Clausal

namespace Substitution

/-- The class of the variable is not bound, and to bind it to this type would make a circle. The variable is
seen in the type exactly if it represents its class. -/
structure Circle (s : Substitution) (t : Ty) (v : Var) : Prop where
  unbound : s.lookup v = none
  resolved : s.resolve t = t
  not_var : ∀ w, t ≠ .var w
  root_mem : s.root v ∈ t.vars
  mem_iff : v ∈ t.vars ↔ s.root v = v

end Substitution

open Substitution

/-- What the report says of types is so. -/
def Diagnostic.HoldsAt (s : Substitution) : Diagnostic → Prop
  | .typeMismatch e a _ => s.resolve e = e ∧ s.resolve a = a ∧ e.Clash a
  | .circularType t v _ => s.Circle t v
  | .symbolNotFound _ _ => True
  | .arityMismatch _ _ _ => True

/-- What the report says was so at some moment in between. -/
def Diagnostic.Arises (s s' : Substitution) (d : Diagnostic) : Prop :=
  ∃ s₁, Evolves s s₁ ∧ Evolves s₁ s' ∧ d.HoldsAt s₁

/-- Reports were added in between, each when what it says was so. -/
def Reported (s s' : Substitution) (ds ds' : List Diagnostic) : Prop :=
  ∃ new, ds' = ds ++ new ∧ ∀ d ∈ new, d.Arises s s'

variable {s s' s'' : Substitution} {v : Var} {t u x y : Ty} {d : Diagnostic} {ds ds' ds'' : List Diagnostic}
  {path : List Ty.Side}

theorem Diagnostic.HoldsAt.of_isLexical (h : d.isLexical = true) : d.HoldsAt s := by
  cases d with
  | typeMismatch e a span => cases h
  | circularType t v span => cases h
  | symbolNotFound n span => trivial
  | arityMismatch declared found span => trivial

theorem Diagnostic.HoldsAt.arises (h : d.HoldsAt s) : d.Arises s s :=
  ⟨s, .refl, .refl, h⟩

theorem Diagnostic.Arises.mono (h : d.Arises s' s'') (hs : Evolves s s') {s₃ : Substitution}
    (hs'' : Evolves s'' s₃) : d.Arises s s₃ := by
  obtain ⟨s₁, h₁, h₁', hd⟩ := h
  exact ⟨s₁, hs.trans h₁, h₁'.trans hs'', hd⟩

theorem Reported.of_eq (h : ds' = ds) : Reported s s' ds ds' :=
  ⟨[], by rw [h, List.append_nil], List.forall_mem_nil _⟩

theorem Reported.trans (h : Reported s s' ds ds') (h' : Reported s' s'' ds' ds'') (hs : Evolves s s')
    (hs' : Evolves s' s'') : Reported s s'' ds ds'' := by
  obtain ⟨new, hnew, harise⟩ := h
  obtain ⟨new', hnew', harise'⟩ := h'
  refine ⟨new ++ new', by rw [hnew', hnew, List.append_assoc], List.forall_mem_append.mpr ⟨?_, ?_⟩⟩
  · exact fun d hd => (harise d hd).mono .refl hs'
  · exact fun d hd => (harise' d hd).mono hs .refl

/-- Where the log is as long in the end as at first, nothing was added on the way. -/
theorem Reported.quiet (h : Reported s s' ds ds') (h' : Reported s' s'' ds' ds'') (hq : ds'' = ds) :
    ds' = ds ∧ ds'' = ds' := by
  obtain ⟨new, hnew, -⟩ := h
  obtain ⟨new', hnew', -⟩ := h'
  rw [hnew', hnew, List.append_assoc, List.append_right_eq_self, List.append_eq_nil_iff] at hq
  obtain ⟨rfl, rfl⟩ := hq
  rw [List.append_nil] at hnew hnew'
  exact ⟨hnew, hnew'⟩

namespace Substitution

theorem Valid.over_chase (hs : s.Valid) (ht : t.Over s) : (s.chase t).Over s := by
  cases t with
  | named constr ts => exact ht
  | fn d c => exact ht
  | var v =>
    cases hv : s.lookup v with
    | some b =>
      rw [chase, hv, Option.getD_some]
      exact hs.bound_over v b hv
    | none =>
      rw [chase_of_unbound hv, ← resolve_var_of_unbound hv]
      exact hs.over_resolve ht

theorem Valid.over_of_part? (hs : s.Valid) (ht : t.Over s) (h : s.part? path t = some x) : x.Over s := by
  induction path generalizing t with
  | nil =>
    cases h
    exact hs.over_chase ht
  | cons side path ih =>
    have hchase := hs.over_chase ht
    rw [part?] at h
    cases hc : s.chase t with
    | var v =>
      rw [hc] at h
      cases h
    | named constr ts =>
      rw [hc] at h
      cases h
    | fn d c =>
      rw [hc] at h hchase
      obtain ⟨hd, hcod⟩ := over_fn.mp hchase
      cases side with
      | domain => exact ih hd h
      | codomain => exact ih hcod h

theorem resolve_ne_var (h : ∀ v, t ≠ .var v) (w : Var) : s.resolve t ≠ .var w := by
  cases t with
  | var v => exact absurd rfl (h v)
  | named constr ts => rw [resolve_named]; exact Ty.noConfusion
  | fn d c => rw [resolve_fn]; exact Ty.noConfusion

theorem Valid.circle (hs : s.Valid) (ht : t.Over s) (hv : s.lookup v = none) (hvar : ∀ w, t ≠ .var w)
    (hmem : s.root v ∈ (s.resolve t).occurrences) : s.Circle (s.resolve t) v where
  unbound := hv
  resolved := hs.resolve_resolve ht
  not_var := resolve_ne_var hvar
  root_mem := List.mem_eraseDups.mpr hmem
  mem_iff := by
    constructor
    · intro h
      exact (hs.mem_resolve ht (List.mem_eraseDups.mp h)).2.2
    · intro h
      rw [← h]
      exact List.mem_eraseDups.mpr hmem

/-- The substitution made the variables of the types that do not match. -/
theorem Unifies.over_mismatch (h : Unifies s t u (.mismatch x y) s') (hs : s.Valid) (ht : t.Over s)
    (hu : u.Over s) : x.Over s' ∧ y.Over s' := by
  obtain ⟨path, x', y', hfails⟩ := h.exists_failsAt hs ht hu rfl
  have hadv := h.advances hs ht hu
  have hx := hadv.valid.over_of_part? (hadv.grows.over ht) hfails.left
  have hy := hadv.valid.over_of_part? (hadv.grows.over hu) hfails.right
  cases hfails.wrong with
  | mismatch hclash heven => exact ⟨hy, hx⟩
  | exchanged hclash hodd => exact ⟨hx, hy⟩

/-- The types of a mismatch clash as they are known in the end. -/
theorem Unifies.mismatch_holdsAt (h : Unifies s t u (.mismatch x y) s') (hs : s.Valid) (ht : t.Over s)
    (hu : u.Over s) (span : Span) :
    Diagnostic.HoldsAt s' (.typeMismatch (s'.resolve x) (s'.resolve y) span) := by
  obtain ⟨path, x', y', hfails⟩ := h.exists_failsAt hs ht hu rfl
  obtain ⟨hx, hy⟩ := h.over_mismatch hs ht hu
  have hvalid := (h.advances hs ht hu).valid
  refine ⟨hvalid.resolve_resolve hx, hvalid.resolve_resolve hy, ?_⟩
  cases hfails.wrong with
  | mismatch hclash heven => exact (hclash.resolve s').symm
  | exchanged hclash hodd => exact hclash.resolve s'

/-- The substitution made the variables of the type that is circular. -/
theorem Unifies.over_circular (h : Unifies s t u (.circular x v) s') (hs : s.Valid) (ht : t.Over s)
    (hu : u.Over s) : x.Over s' := by
  obtain ⟨path, x', y', hfails⟩ := h.exists_failsAt hs ht hu rfl
  have hadv := h.advances hs ht hu
  cases hfails.wrong with
  | circularLeft hv hx hvar hmem =>
    exact hadv.valid.over_of_part? (hadv.grows.over hu) hfails.right
  | circularRight hv hy hvar hmem =>
    exact hadv.valid.over_of_part? (hadv.grows.over ht) hfails.left

/-- The type that is circular in the end is so for the class of the variable. -/
theorem Unifies.circular_holdsAt (h : Unifies s t u (.circular x v) s') (hs : s.Valid) (ht : t.Over s)
    (hu : u.Over s) (span : Span) :
    Diagnostic.HoldsAt s' (.circularType (s'.resolve x) v span) := by
  obtain ⟨path, x', y', hfails⟩ := h.exists_failsAt hs ht hu rfl
  have hx := h.over_circular hs ht hu
  have hvalid := (h.advances hs ht hu).valid
  cases hfails.wrong with
  | circularLeft hv hvarLeft hvar hmem => exact hvalid.circle hx hv hvar hmem
  | circularRight hv hvarRight hvar hmem => exact hvalid.circle hx hv hvar hmem

end Substitution
end Clausal
