import Clausal.Proofs.Unification.Completeness

/-!
# Solutions and new variables

A variable that a solution has nothing to say about yet may be given any type: a new variable one type,
and a copy of a signature any instance of it. The types known before keep their values.
-/
namespace Clausal

/-- The second assignment says the same of the variables with indices below this bound. -/
def Assignment.AgreesBelow (n : Nat) (θ θ' : Assignment) : Prop :=
  ∀ i < n, θ' i = θ i

namespace Assignment

variable {θ θ' θ'' : Assignment} {m n : Nat}

theorem AgreesBelow.refl (n : Nat) (θ : Assignment) : θ.AgreesBelow n θ :=
  fun _ _ => rfl

theorem AgreesBelow.trans (h : θ.AgreesBelow m θ') (hle : m ≤ n) (h' : θ'.AgreesBelow n θ'') :
    θ.AgreesBelow m θ'' :=
  fun i hi => (h' i (Nat.lt_of_lt_of_le hi hle)).trans (h i hi)

theorem agreesBelow_update (n : Nat) (θ : Assignment) (t : Ty) :
    θ.AgreesBelow n (Function.update θ n t) :=
  fun _ hi => Function.update_of_ne (Nat.ne_of_lt hi) t θ

end Assignment

namespace Substitution

open Assignment

variable {s : Substitution} {t : Ty} {θ θ' : Assignment}

theorem under_eq_of_agrees (ht : t.Over s) (h : θ.AgreesBelow s.size θ') : t.under θ' = t.under θ :=
  Ty.bindVars_congr fun v hv => h v.index (ht v hv)

theorem solvedBy_empty (θ : Assignment) : SolvedBy {} θ where
  class_eq v _ hv := absurd hv (Nat.not_lt_zero v.index)
  bound_eq v _ hv := absurd (has_of_lookup hv) (Nat.not_lt_zero v.index)

/-- A solution knows a type as what it stands for. -/
theorem SolvedBy.under_chase (hθ : s.SolvedBy θ) (hs : s.Valid) (ht : t.Over s) :
    (s.chase t).under θ = t.under θ := by
  cases t with
  | named constr ts => rfl
  | fn d c => rfl
  | var v =>
    rw [chase]
    cases hv : s.lookup v with
    | some bound => exact (hθ.bound_eq v bound hv).symm
    | none =>
      have hhas := over_var.mp ht
      exact hθ.class_eq _ _ (hs.has_root hhas) hhas (hs.root_root v)

/-- A new variable may stand for any type. -/
theorem SolvedBy.fresh (hθ : s.SolvedBy θ) (hs : s.Valid) (t : Ty) :
    s.fresh.2.SolvedBy (Function.update θ s.size t) where
  class_eq v w hv hw he := by
    have hnew {x : Var} (hx : x.index = s.size) : s.rootIndex x = s.size :=
      (rootIndex_of_not_has (Nat.not_lt.mpr hx.ge)).trans hx
    rw [rootIndex_fresh, rootIndex_fresh] at he
    rw [Has, size_fresh, Nat.lt_succ_iff_lt_or_eq] at hv hw
    rcases hv with hv | hv <;> rcases hw with hw | hw
    · rw [agreesBelow_update _ _ _ _ hv, agreesBelow_update _ _ _ _ hw]
      exact hθ.class_eq v w hv hw he
    · exact absurd (he.trans (hnew hw)) (Nat.ne_of_lt (hs.root_lt v hv))
    · exact absurd (he.symm.trans (hnew hv)) (Nat.ne_of_lt (hs.root_lt w hw))
    · rw [hv, hw]
  bound_eq v b hb := by
    rw [lookup_fresh] at hb
    rw [agreesBelow_update _ _ _ _ (has_of_lookup hb),
      under_eq_of_agrees (hs.bound_over v b hb) (agreesBelow_update _ _ _)]
    exact hθ.bound_eq v b hb

/-- New variables in the place of others may stand for any types, one for each. -/
theorem SolvedBy.exists_freshFor (f : Var → Ty) (vs : List Var) (hθ : s.SolvedBy θ) (hs : s.Valid) :
    ∃ θ', θ.AgreesBelow s.size θ' ∧ (s.freshFor vs).2.SolvedBy θ' ∧
      ∀ v ∈ vs, ∃ copy, (s.freshFor vs).1.lookup v = some copy ∧ copy.under θ' = f v := by
  induction vs generalizing s θ with
  | nil => exact ⟨θ, .refl _ θ, hθ, List.forall_mem_nil _⟩
  | cons v vs ih =>
    obtain ⟨θ', hagrees, hθ', hcopies⟩ := ih (hθ.fresh hs (f v)) hs.fresh
    refine ⟨θ', (agreesBelow_update _ θ (f v)).trans grows_fresh.size_le hagrees, hθ', fun w hw => ?_⟩
    rw [freshFor, List.lookup_cons]
    by_cases he : w = v
    · subst he
      refine ⟨s.fresh.1, by rw [beq_self_eq_true], ?_⟩
      rw [under_eq_of_agrees over_fresh hagrees]
      exact Function.update_self s.size (f w) θ
    · obtain ⟨copy, hlookup, hcopy⟩ := hcopies w ((List.mem_cons.mp hw).resolve_left he)
      exact ⟨copy, by rw [beq_eq_false_iff_ne.mpr he]; exact hlookup, hcopy⟩

/-- A copy of a type may stand for any of the instances that the type has when it is resolved. -/
theorem SolvedBy.exists_instantiate (hθ : s.SolvedBy θ) (hs : s.Valid) (t : Ty) (f : Var → Ty) :
    ∃ θ', θ.AgreesBelow s.size θ' ∧ (s.instantiate t).2.SolvedBy θ' ∧
      (s.instantiate t).1.under θ' = (s.resolve t).bindVars f := by
  obtain ⟨θ', hagrees, hθ', hcopies⟩ := hθ.exists_freshFor f (s.resolve t).vars hs
  refine ⟨θ', hagrees, hθ', ?_⟩
  rw [instantiate, Ty.under, Ty.bindVars_bindVars]
  refine Ty.bindVars_congr fun v hv => ?_
  obtain ⟨copy, hlookup, hcopy⟩ := hcopies v (List.mem_eraseDups.mpr hv)
  rw [hlookup]
  exact hcopy

end Substitution
end Clausal
