import Clausal.Substitution.Basic
import Mathlib.Tactic.SplitIfs
import Mathlib.Tactic.ByContra

/-!
# Classes of variables and their bindings

What each operation does to the class of a variable and to the type that class is bound to. Nothing
behind this module looks at the cells again: a substitution is `rootIndex`, `lookup` and `size`.
-/
namespace Clausal

/-- The variable was made by the substitution. -/
def Substitution.Has (s : Substitution) (v : Var) : Prop :=
  v.index < s.size

/-- All variables of the type were made by the substitution. -/
def Ty.Over (t : Ty) (s : Substitution) : Prop :=
  ∀ v ∈ t.occurrences, s.Has v

instance (s : Substitution) (v : Var) : Decidable (s.Has v) :=
  inferInstanceAs (Decidable (_ < _))

instance (t : Ty) (s : Substitution) : Decidable (t.Over s) :=
  inferInstanceAs (Decidable (∀ v ∈ t.occurrences, s.Has v))

namespace Substitution

variable {s : Substitution} {v w : Var} {t : Ty}

/-- Only the index of a variable counts, not the name it is shown by. -/
theorem rootIndex_congr (h : v.index = w.index) : s.rootIndex v = s.rootIndex w := by
  rw [rootIndex, rootIndex, h]

theorem root_congr (h : s.rootIndex v = s.rootIndex w) : s.root v = s.root w := by
  rw [root, root, h]

theorem lookup_congr (h : s.rootIndex v = s.rootIndex w) : s.lookup v = s.lookup w := by
  rw [lookup, lookup, h]

theorem sameClass_iff : s.sameClass v w = true ↔ s.rootIndex v = s.rootIndex w := by
  rw [sameClass, beq_iff_eq]

theorem rootIndex_of_not_has (h : ¬ s.Has v) : s.rootIndex v = v.index := by
  have : s.cells[v.index]? = none := Array.getElem?_eq_none (Nat.le_of_not_lt h)
  rw [rootIndex, this]
  rfl

theorem rootIndex_lt_of_lookup (h : s.lookup v = some t) : s.rootIndex v < s.size := by
  by_contra hlt
  have : s.cells[s.rootIndex v]? = none := Array.getElem?_eq_none (Nat.le_of_not_lt hlt)
  rw [lookup, this] at h
  cases h

theorem has_of_lookup (h : s.lookup v = some t) : s.Has v := by
  by_contra hv
  have := rootIndex_lt_of_lookup h
  rw [rootIndex_of_not_has hv] at this
  exact hv this

/-! ## A new variable -/

theorem size_add (name : String) : (s.add name).2.size = s.size + 1 :=
  Array.size_push _

/-- A new variable is a class of its own, and no other class changes. -/
theorem rootIndex_add (name : String) : (s.add name).2.rootIndex v = s.rootIndex v := by
  simp only [rootIndex, add, Array.getElem?_push]
  split
  · next h =>
    have : s.cells[v.index]? = none := Array.getElem?_eq_none (Nat.le_of_eq h.symm)
    rw [this, h]
    rfl
  · rfl

theorem lookup_add (name : String) : (s.add name).2.lookup v = s.lookup v := by
  rw [lookup, rootIndex_add, lookup]
  simp only [add, Array.getElem?_push]
  split
  · next h =>
    have : s.cells[s.rootIndex v]? = none := Array.getElem?_eq_none (Nat.le_of_eq h.symm)
    rw [this]
    rfl
  · rfl

theorem size_fresh : s.fresh.2.size = s.size + 1 :=
  size_add _

theorem rootIndex_fresh : s.fresh.2.rootIndex v = s.rootIndex v :=
  rootIndex_add _

theorem lookup_fresh : s.fresh.2.lookup v = s.lookup v :=
  lookup_add _

/-! ## A binding -/

theorem size_bind : (s.bind v t).size = s.size :=
  Array.size_modify

theorem rootIndex_bind : (s.bind v t).rootIndex w = s.rootIndex w := by
  simp only [rootIndex, bind, Array.getElem?_modify]
  split
  · rw [Option.map_map]
    rfl
  · rfl

/-- The class of the variable is bound to the type, and no other binding changes. -/
theorem lookup_bind (h : s.rootIndex v < s.size) :
    (s.bind v t).lookup w = if s.rootIndex w = s.rootIndex v then some t else s.lookup w := by
  rw [lookup, rootIndex_bind, lookup]
  simp only [bind, Array.getElem?_modify]
  by_cases he : s.rootIndex w = s.rootIndex v
  · obtain ⟨c, hget⟩ : ∃ c, s.cells[s.rootIndex v]? = some c :=
      ⟨_, Array.getElem?_eq_getElem h⟩
    rw [he, if_pos rfl, if_pos rfl, hget]
    rfl
  · rw [if_neg (Ne.symm he), if_neg he]

/-! ## A merge -/

theorem size_absorb (winner loser rank : Nat) : (s.absorb winner loser rank).size = s.size := by
  simp [absorb, size]

theorem rootIndex_absorb {winner loser : Nat} (rank : Nat) (h : loser < s.size) :
    (s.absorb winner loser rank).rootIndex w =
      if s.rootIndex w = loser then winner else s.rootIndex w := by
  have hroot : (s.absorb winner loser rank).rootIndex w =
      (s.cells[w.index]?.map fun c => if c.root == loser then winner else c.root).getD w.index := by
    simp only [rootIndex, absorb, Array.getElem?_modify, Array.getElem?_map]
    split <;> cases s.cells[w.index]? <;> simp <;> split <;> rfl
  rw [hroot]
  by_cases hw : s.Has w
  · obtain ⟨c, hget⟩ : ∃ c, s.cells[w.index]? = some c := ⟨_, Array.getElem?_eq_getElem hw⟩
    rw [rootIndex, hget]
    simp
  · have hget : s.cells[w.index]? = none := Array.getElem?_eq_none (Nat.le_of_not_lt hw)
    rw [rootIndex_of_not_has hw, hget, if_neg]
    · rfl
    · rintro rfl
      exact hw h

theorem lookup_absorb {winner loser : Nat} (rank : Nat) :
    (s.absorb winner loser rank).lookup w =
      s.cells[(s.absorb winner loser rank).rootIndex w]?.bind (·.bound) := by
  rw [lookup]
  generalize (s.absorb winner loser rank).rootIndex w = i
  simp only [absorb, Array.getElem?_modify, Array.getElem?_map]
  split <;> cases s.cells[i]? <;> simp <;> split <;> rfl

theorem size_link : (s.link v w).size = s.size := by
  rw [link]
  split_ifs <;> first | rfl | exact size_absorb ..

/-- One of the two representatives stands for both classes, and no other class changes. -/
theorem exists_rootIndex_link (hv : s.rootIndex v < s.size) (hw : s.rootIndex w < s.size) :
    ∃ r, (r = s.rootIndex v ∨ r = s.rootIndex w) ∧ ∀ x, (s.link v w).rootIndex x =
      if s.rootIndex x = s.rootIndex v ∨ s.rootIndex x = s.rootIndex w then r else s.rootIndex x := by
  rw [link]
  split_ifs with hsame hgt hlt
  · have he := sameClass_iff.mp hsame
    refine ⟨s.rootIndex v, .inl rfl, fun x => ?_⟩
    split_ifs with hx
    · rcases hx with hx | hx
      · exact hx
      · rw [hx, he]
    · rfl
  · refine ⟨s.rootIndex v, .inl rfl, fun x => ?_⟩
    rw [rootIndex_absorb _ hw]
    grind
  · refine ⟨s.rootIndex w, .inr rfl, fun x => ?_⟩
    rw [rootIndex_absorb _ hv]
    grind
  · refine ⟨s.rootIndex w, .inr rfl, fun x => ?_⟩
    rw [rootIndex_absorb _ hv]
    grind

/-- Merging two classes that are not bound binds nothing and loses no binding. -/
theorem lookup_link (hv : s.lookup v = none) (hw : s.lookup w = none)
    (hvs : s.rootIndex v < s.size) (hws : s.rootIndex w < s.size) (x : Var) :
    (s.link v w).lookup x = s.lookup x := by
  have hbound : (s.link v w).lookup x = s.cells[(s.link v w).rootIndex x]?.bind (·.bound) := by
    rw [link]
    split_ifs <;> first | rfl | exact lookup_absorb _
  obtain ⟨r, hr, hroot⟩ := exists_rootIndex_link hvs hws
  rw [hbound, hroot x]
  split_ifs with hx
  · have hnone : s.cells[r]?.bind (·.bound) = none := by
      rcases hr with rfl | rfl
      · exact hv
      · exact hw
    rw [hnone]
    rcases hx with hx | hx
    · rw [lookup_congr hx, hv]
    · rw [lookup_congr hx, hw]
  · rfl

/-! ## Where types are kept -/

/-- Only the cell of a representative keeps a type. -/
def KeptAtRoots (s : Substitution) : Prop :=
  ∀ (i : Nat) (c : Cell) (t : Ty), s.cells[i]? = some c → c.bound = some t → c.root = i

theorem KeptAtRoots.add (h : s.KeptAtRoots) (name : String) : (s.add name).2.KeptAtRoots := by
  intro i c t hc ht
  rw [Substitution.add, Array.getElem?_push] at hc
  split at hc
  · cases hc
    cases ht
  · exact h i c t hc ht

theorem KeptAtRoots.bind (h : s.KeptAtRoots) (hroot : s.rootIndex (s.root v) = s.rootIndex v) :
    (s.bind v t).KeptAtRoots := by
  intro i c u hc hu
  rw [Substitution.bind, Array.getElem?_modify] at hc
  split at hc
  · next hi =>
    obtain ⟨c', hget, rfl⟩ := Option.map_eq_some_iff.mp hc
    subst hi
    rw [rootIndex, root, hget] at hroot
    exact hroot
  · exact h i c u hc hu

theorem KeptAtRoots.absorb {winner loser : Nat} (h : s.KeptAtRoots) (rank : Nat)
    (hnone : s.cells[loser]?.bind (·.bound) = none) : (s.absorb winner loser rank).KeptAtRoots := by
  intro i c t hc ht
  -- the cell before the merge kept the same type
  obtain ⟨c', hget, hbound, hroot⟩ : ∃ c', s.cells[i]? = some c' ∧ c'.bound = c.bound ∧
      c.root = if c'.root = loser then winner else c'.root := by
    rw [Substitution.absorb, Array.getElem?_modify, Array.getElem?_map] at hc
    cases hget : s.cells[i]? with
    | none => simp [hget] at hc
    | some c' =>
      refine ⟨c', rfl, ?_⟩
      rw [hget] at hc
      split at hc <;> cases hc <;> by_cases hl : c'.root = loser <;> simp [hl]
  rw [← hbound] at ht
  have hi := h i c' t hget ht
  rw [hroot, hi, if_neg]
  rintro rfl
  rw [hget, Option.bind_some, ht] at hnone
  cases hnone

theorem KeptAtRoots.link (h : s.KeptAtRoots) (hv : s.lookup v = none) (hw : s.lookup w = none) :
    (s.link v w).KeptAtRoots := by
  rw [Substitution.link]
  split_ifs
  · exact h
  · exact h.absorb _ hw
  · exact h.absorb _ hv
  · exact h.absorb _ hv

end Substitution
end Clausal
