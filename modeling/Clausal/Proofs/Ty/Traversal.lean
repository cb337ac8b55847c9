import Clausal.Ty.Basic
import Mathlib.Algebra.Order.BigOperators.Group.List
import Mathlib.Algebra.Order.Group.Nat
import Mathlib.Algebra.GroupWithZero.Nat

/-!
# Walks over types

The functions on types recurse through lists of arguments. This module states each of them on the
list operations of the library, and replaces the recursor by an induction whose hypothesis for a
constructor ranges over the members of its arguments.
-/
namespace Clausal.Ty

variable {f g : Var → Ty} {v : Var} {t u : Ty} {ts : List Ty}

@[elab_as_elim, induction_eliminator]
theorem induction {motive : Ty → Prop} (var : ∀ v, motive (.var v))
    (named : ∀ constr args, (∀ t ∈ args, motive t) → motive (.named constr args))
    (fn : ∀ domain codomain, motive domain → motive codomain → motive (.fn domain codomain))
    (t : Ty) : motive t := by
  refine @Ty.rec motive (fun ts => ∀ t ∈ ts, motive t) var named fn ?_ ?_ t
  · intro t ht
    cases ht
  · intro t ts ht hts u hu
    rcases List.mem_cons.mp hu with rfl | hu
    · exact ht
    · exact hts u hu

/-! ## Lists of arguments -/

theorem bindVarsAll_eq_map : bindVarsAll f ts = ts.map (bindVars f) := by
  induction ts with
  | nil => rfl
  | cons t ts ih => rw [bindVarsAll, ih, List.map_cons]

theorem occurrencesAll_eq_flatMap : occurrencesAll ts = ts.flatMap occurrences := by
  induction ts with
  | nil => rfl
  | cons t ts ih => rw [occurrencesAll, ih, List.flatMap_cons]

theorem sizeAll_eq_sum : sizeAll ts = (ts.map size).sum := by
  induction ts with
  | nil => rfl
  | cons t ts ih => rw [sizeAll, ih, List.map_cons, List.sum_cons]

@[simp] theorem bindVars_var : bindVars f (.var v) = f v := rfl

@[simp] theorem bindVars_named (c : String) :
    bindVars f (.named c ts) = .named c (ts.map (bindVars f)) := by
  rw [bindVars, bindVarsAll_eq_map]

@[simp] theorem bindVars_fn : bindVars f (.fn t u) = .fn (bindVars f t) (bindVars f u) := rfl

@[simp] theorem mem_occurrences_var {w : Var} : w ∈ occurrences (.var v) ↔ w = v := by
  rw [occurrences, List.mem_singleton]

@[simp] theorem mem_occurrences_named {c : String} :
    v ∈ occurrences (.named c ts) ↔ ∃ t ∈ ts, v ∈ t.occurrences := by
  rw [occurrences, occurrencesAll_eq_flatMap, List.mem_flatMap]

@[simp] theorem mem_occurrences_fn :
    v ∈ occurrences (.fn t u) ↔ v ∈ t.occurrences ∨ v ∈ u.occurrences := by
  rw [occurrences, List.mem_append]

@[simp] theorem size_var : size (.var v) = 1 := rfl

@[simp] theorem size_named {c : String} : size (.named c ts) = (ts.map size).sum + 1 := by
  rw [size, sizeAll_eq_sum]

@[simp] theorem size_fn : size (.fn t u) = size t + size u + 1 := rfl

/-! ## Putting types in for variables -/

/-- Only the variables that occur in a type matter to what is put in for them. -/
theorem bindVars_congr (h : ∀ v ∈ t.occurrences, f v = g v) : t.bindVars f = t.bindVars g := by
  induction t with
  | var v =>
    rw [bindVars_var, bindVars_var]
    exact h v (mem_occurrences_var.mpr rfl)
  | named c ts ih =>
    rw [bindVars_named, bindVars_named]
    congr 1
    apply List.map_congr_left
    intro t ht
    exact ih t ht fun v hv => h v (mem_occurrences_named.mpr ⟨t, ht, hv⟩)
  | fn d c ihd ihc =>
    rw [bindVars_fn, bindVars_fn, ihd fun v hv => h v (mem_occurrences_fn.mpr (.inl hv)),
      ihc fun v hv => h v (mem_occurrences_fn.mpr (.inr hv))]

theorem bindVars_self : t.bindVars .var = t := by
  induction t with
  | var v => simp
  | named c ts ih =>
    rw [bindVars_named]
    congr 1
    calc ts.map (bindVars .var) = ts.map id := List.map_congr_left ih
      _ = ts := List.map_id ts
  | fn d c ihd ihc => rw [bindVars_fn, ihd, ihc]

/-- Where no variable occurs, nothing is put in. -/
theorem bindVars_eq_self (h : ∀ v ∈ t.occurrences, f v = .var v) : t.bindVars f = t :=
  (bindVars_congr h).trans bindVars_self

/-- Putting in twice is putting in once, with the second types inside the first ones. -/
theorem bindVars_bindVars : (t.bindVars f).bindVars g = t.bindVars fun v => (f v).bindVars g := by
  induction t with
  | var v => rw [bindVars_var, bindVars_var]
  | named c ts ih =>
    rw [bindVars_named, bindVars_named, bindVars_named, List.map_map]
    congr 1
    exact List.map_congr_left ih
  | fn d c ihd ihc => rw [bindVars_fn, bindVars_fn, bindVars_fn, ihd, ihc]

theorem mem_occurrences_bindVars :
    v ∈ (t.bindVars f).occurrences ↔ ∃ w ∈ t.occurrences, v ∈ (f w).occurrences := by
  induction t with
  | var w => simp only [bindVars_var, mem_occurrences_var, exists_eq_left]
  | named c ts ih =>
    rw [bindVars_named, mem_occurrences_named]
    constructor
    · rintro ⟨_, hu, hv⟩
      obtain ⟨t, ht, rfl⟩ := List.mem_map.mp hu
      obtain ⟨w, hw, hv⟩ := (ih t ht).mp hv
      exact ⟨w, mem_occurrences_named.mpr ⟨t, ht, hw⟩, hv⟩
    · rintro ⟨w, hw, hv⟩
      obtain ⟨t, ht, hw⟩ := mem_occurrences_named.mp hw
      exact ⟨_, List.mem_map_of_mem ht, (ih t ht).mpr ⟨w, hw, hv⟩⟩
  | fn d c ihd ihc =>
    simp only [bindVars_fn, mem_occurrences_fn, ihd, ihc, or_and_right, exists_or]

/-- A type that putting in leaves as it is has each of its variables put in for itself. -/
theorem eq_var_of_bindVars_eq (h : t.bindVars f = t) : ∀ v ∈ t.occurrences, f v = .var v := by
  induction t with
  | var v =>
    rw [bindVars_var] at h
    intro w hw
    rw [mem_occurrences_var.mp hw, h]
  | named c ts ih =>
    rw [bindVars_named] at h
    intro v hv
    obtain ⟨t, ht, hv⟩ := mem_occurrences_named.mp hv
    have hmap : ts.map (bindVars f) = ts.map id := by
      rw [List.map_id]
      exact (named.inj h).2
    exact ih t ht (List.map_inj_left.mp hmap t ht) v hv
  | fn d c ihd ihc =>
    rw [bindVars_fn] at h
    obtain ⟨hd, hc⟩ := fn.inj h
    intro v hv
    exact (mem_occurrences_fn.mp hv).elim (ihd hd v) (ihc hc v)

/-- What is put in for a variable is no larger than the whole. -/
theorem size_le_size_bindVars (h : v ∈ t.occurrences) : (f v).size ≤ (t.bindVars f).size := by
  induction t with
  | var w => rw [mem_occurrences_var.mp h, bindVars_var]
  | named c ts ih =>
    obtain ⟨t, ht, hv⟩ := mem_occurrences_named.mp h
    have hmem : (t.bindVars f).size ∈ (ts.map (bindVars f)).map size :=
      List.mem_map_of_mem (List.mem_map_of_mem ht)
    have hsum := List.le_sum_of_mem hmem
    have := ih t ht hv
    rw [bindVars_named, size_named]
    omega
  | fn d c ihd ihc =>
    rw [bindVars_fn, size_fn]
    rcases mem_occurrences_fn.mp h with hv | hv
    · have := ihd hv
      omega
    · have := ihc hv
      omega

/-- A type that is no variable is larger than what is put in for its variables. -/
theorem size_lt_size_bindVars (h : v ∈ t.occurrences) (ht : ∀ w, t ≠ .var w) :
    (f v).size < (t.bindVars f).size := by
  cases t with
  | var w => exact absurd rfl (ht w)
  | named c ts =>
    obtain ⟨t, ht, hv⟩ := mem_occurrences_named.mp h
    have hmem : (t.bindVars f).size ∈ (ts.map (bindVars f)).map size :=
      List.mem_map_of_mem (List.mem_map_of_mem ht)
    have hsum := List.le_sum_of_mem hmem
    have := size_le_size_bindVars (f := f) hv
    rw [bindVars_named, size_named]
    omega
  | fn d c =>
    rw [bindVars_fn, size_fn]
    rcases mem_occurrences_fn.mp h with hv | hv
    · have := size_le_size_bindVars (f := f) hv
      omega
    · have := size_le_size_bindVars (f := f) hv
      omega

/-! ## Instances -/

/-- The types put in for the variables of a type are variables, a different one for each. -/
def Renames (f : Var → Ty) (t : Ty) : Prop :=
  ∀ v ∈ t.occurrences, (∃ w, f v = .var w) ∧ ∀ v' ∈ t.occurrences, f v = f v' → v = v'

/-- A type can be made again from an instance of it exactly if its variables were only renamed. -/
theorem exists_bindVars_eq_iff_renames :
    (∃ g, (t.bindVars f).bindVars g = t) ↔ Renames f t := by
  simp only [bindVars_bindVars]
  constructor
  · rintro ⟨g, h⟩ v hv
    have hback := eq_var_of_bindVars_eq h
    refine ⟨?_, fun v' hv' he => ?_⟩
    · have hv := hback v hv
      cases hf : f v with
      | var w => exact ⟨w, rfl⟩
      | named c ts =>
        rw [hf, bindVars_named] at hv
        cases hv
      | fn d c =>
        rw [hf, bindVars_fn] at hv
        cases hv
    · have heq : var v = var v' := (hback v hv).symm.trans ((congrArg (bindVars g) he).trans (hback v' hv'))
      exact var.inj heq
  · intro h
    -- each variable put in goes back to the one it was put in for
    let g (w : Var) : Ty := ((t.occurrences.find? fun v => f v == .var w).map var).getD (.var w)
    refine ⟨g, bindVars_eq_self fun v hv => ?_⟩
    obtain ⟨⟨w, hw⟩, hinj⟩ := h v hv
    obtain ⟨v', hfind⟩ : ∃ v', t.occurrences.find? (fun v => f v == .var w) = some v' :=
      Option.isSome_iff_exists.mp (List.find?_isSome.mpr ⟨v, hv, beq_iff_eq.mpr hw⟩)
    have hfound : (f v' == .var w) = true := List.find?_some (p := fun v => f v == .var w) hfind
    have hv' : f v' = .var w := beq_iff_eq.mp hfound
    have heq : v = v' := hinj v' (List.mem_of_find?_eq_some hfind) (hw.trans hv'.symm)
    rw [hw, bindVars_var]
    simp only [g, hfind, Option.map_some, Option.getD_some, heq]

end Clausal.Ty
