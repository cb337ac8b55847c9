import Clausal.Proofs.Substitution.Valid
import Mathlib.Logic.Relation

/-!
# Growth of substitutions

A substitution is only ever added to: variables are made, classes are merged, classes get their type.
Each of these three steps keeps the invariant, under the conditions that the unifier checks for, and
what was resolved before such steps can be resolved again behind them to the same end.
-/
namespace Clausal.Substitution

variable {s s' s'' : Substitution} {v w : Var} {t u : Ty}

structure Grows (s s' : Substitution) : Prop where
  size_le : s.size ≤ s'.size
  class_eq : ∀ v w, s.Has v → s.Has w → s.rootIndex v = s.rootIndex w →
    s'.rootIndex v = s'.rootIndex w
  lookup_eq : ∀ v t, s.lookup v = some t → s'.lookup v = some t

theorem Grows.refl (s : Substitution) : s.Grows s where
  size_le := le_rfl
  class_eq _ _ _ _ h := h
  lookup_eq _ _ h := h

theorem Grows.has (h : s.Grows s') (hv : s.Has v) : s'.Has v :=
  Nat.lt_of_lt_of_le hv h.size_le

theorem Grows.over (h : s.Grows s') (ht : t.Over s) : t.Over s' :=
  fun v hv => h.has (ht v hv)

theorem Grows.trans (h : s.Grows s') (h' : s'.Grows s'') : s.Grows s'' where
  size_le := h.size_le.trans h'.size_le
  class_eq v w hv hw he := h'.class_eq v w (h.has hv) (h.has hw) (h.class_eq v w hv hw he)
  lookup_eq v t hv := h'.lookup_eq v t (h.lookup_eq v t hv)

/-- Resolving early makes no difference to resolving late. -/
theorem Grows.resolve_resolve (h : s.Grows s') (hs : s.Valid) (hs' : s'.Valid) (ht : t.Over s) :
    s'.resolve (s.resolve t) = s'.resolve t := by
  induction t, ht using hs.induction with
  | unbound v hv hnone =>
    rw [resolve_var_of_unbound hnone]
    exact resolve_var_congr (h.class_eq _ _ (hs.has_root hv) hv (hs.root_root v))
  | bound v t hb ih =>
    rw [hs.resolve_var_of_bound hb, hs'.resolve_var_of_bound (h.lookup_eq v t hb)]
    exact ih
  | named constr ts _ ih =>
    rw [resolve_named, resolve_named, resolve_named, List.map_map]
    congr 1
    exact List.map_congr_left ih
  | fn d c _ ihd ihc => rw [resolve_fn, resolve_fn, resolve_fn, ihd, ihc]

theorem Valid.resolve_resolve (hs : s.Valid) (ht : t.Over s) : s.resolve (s.resolve t) = s.resolve t :=
  (Grows.refl s).resolve_resolve hs hs ht

theorem Grows.resolve_eq (h : s.Grows s') (hs : s.Valid) (hs' : s'.Valid) (ht : t.Over s)
    (hu : u.Over s) (he : s.resolve t = s.resolve u) : s'.resolve t = s'.resolve u := by
  rw [← h.resolve_resolve hs hs' ht, he, h.resolve_resolve hs hs' hu]

/-! ## Variables of a resolved type -/

/-- A variable is found in a type exactly if it is unbound and its representative is left when the
type is resolved. -/
theorem Valid.occurs_iff (hs : s.Valid) (ht : t.Over s) :
    s.occurs v t = true ↔ s.lookup v = none ∧ s.root v ∈ (s.resolve t).occurrences := by
  induction t, ht using hs.induction with
  | unbound w _ hnone =>
    rw [occurs_var_of_unbound hnone, resolve_var_of_unbound hnone, Ty.mem_occurrences_var]
    constructor
    · intro h
      exact ⟨(lookup_congr h).trans hnone, root_congr h⟩
    · rintro ⟨-, h⟩
      exact congrArg Var.index h
  | bound w t hb ih => rw [hs.occurs_var_of_bound hb, hs.resolve_var_of_bound hb, ih]
  | named constr ts _ ih =>
    rw [occurs_named, resolve_named, Ty.mem_occurrences_named]
    constructor
    · rintro ⟨t, ht, ho⟩
      obtain ⟨hnone, hmem⟩ := (ih t ht).mp ho
      exact ⟨hnone, _, List.mem_map_of_mem ht, hmem⟩
    · rintro ⟨hnone, u, hu, hmem⟩
      obtain ⟨t, ht, rfl⟩ := List.mem_map.mp hu
      exact ⟨t, ht, (ih t ht).mpr ⟨hnone, hmem⟩⟩
  | fn d c _ ihd ihc =>
    rw [occurs_fn, resolve_fn, Ty.mem_occurrences_fn, ihd, ihc, and_or_left]

/-- What is left of the variables of a type are representatives of unbound classes. -/
theorem Valid.mem_resolve (hs : s.Valid) (ht : t.Over s) (hw : w ∈ (s.resolve t).occurrences) :
    s.Has w ∧ s.lookup w = none ∧ s.root w = w := by
  induction t, ht using hs.induction with
  | unbound v hv hnone =>
    rw [resolve_var_of_unbound hnone, Ty.mem_occurrences_var] at hw
    subst hw
    refine ⟨hs.has_root hv, ?_, root_congr (hs.root_root v)⟩
    rw [hs.lookup_root, hnone]
  | bound v t hb ih =>
    rw [hs.resolve_var_of_bound hb] at hw
    exact ih hw
  | named constr ts _ ih =>
    rw [resolve_named, Ty.mem_occurrences_named] at hw
    obtain ⟨u, hu, hw⟩ := hw
    obtain ⟨t, ht, rfl⟩ := List.mem_map.mp hu
    exact ih t ht hw
  | fn d c _ ihd ihc =>
    rw [resolve_fn, Ty.mem_occurrences_fn] at hw
    rcases hw with hw | hw
    · exact ihd hw
    · exact ihc hw

theorem Valid.over_resolve (hs : s.Valid) (ht : t.Over s) : (s.resolve t).Over s :=
  fun _ hw => (hs.mem_resolve ht hw).1

/-- The representatives of the classes that are not bound. Each merge and each binding takes one
away. -/
def openClasses (s : Substitution) : Finset Nat :=
  (Finset.range s.size).filter fun i => s.rootIndex ⟨i, ""⟩ = i ∧ (s.lookup ⟨i, ""⟩).isNone

theorem mem_openClasses {i : Nat} :
    i ∈ s.openClasses ↔ s.Has ⟨i, ""⟩ ∧ s.rootIndex ⟨i, ""⟩ = i ∧ s.lookup ⟨i, ""⟩ = none := by
  simp [openClasses, Has]

theorem Valid.root_mem_openClasses (hs : s.Valid) (hv : s.Has v) (h : s.lookup v = none) :
    s.rootIndex v ∈ s.openClasses := by
  have hroot : s.rootIndex ⟨s.rootIndex v, ""⟩ = s.rootIndex v := hs.rootIndex_of_index rfl
  exact mem_openClasses.mpr ⟨hs.root_lt v hv, hroot, (lookup_congr hroot).trans h⟩

/-! ## A new variable -/

/-- More cells, but the same classes and bindings. -/
theorem Valid.of_eq (hs : s.Valid) (hsize : s.size ≤ s'.size)
    (hroot : ∀ v, s'.rootIndex v = s.rootIndex v) (hlookup : ∀ v, s'.lookup v = s.lookup v) :
    s'.Valid where
  root_lt v hv := by
    rw [hroot]
    by_cases h : s.Has v
    · exact Nat.lt_of_lt_of_le (hs.root_lt v h) hsize
    · rw [rootIndex_of_not_has h]
      exact hv
  root_root v := by
    rw [hroot, hroot]
    exact (rootIndex_congr (hroot v)).trans (hs.root_root v)
  bound_over v t h w hw := by
    rw [hlookup] at h
    exact Nat.lt_of_lt_of_le (hs.bound_over v t h w hw) hsize
  bound_not_var v t h := by
    rw [hlookup] at h
    exact hs.bound_not_var v t h
  acyclic := by
    obtain ⟨height, hh⟩ := hs.acyclic
    refine ⟨height, fun v t h w hw => ?_⟩
    rw [hlookup] at h
    rw [hroot, hroot]
    exact hh v t h w hw

theorem Grows.of_eq (hsize : s.size ≤ s'.size) (hroot : ∀ v, s'.rootIndex v = s.rootIndex v)
    (hlookup : ∀ v, s'.lookup v = s.lookup v) : s.Grows s' where
  size_le := hsize
  class_eq v w _ _ h := by rw [hroot, hroot, h]
  lookup_eq v t h := by rw [hlookup, h]

theorem Valid.add (hs : s.Valid) (name : String) : (s.add name).2.Valid :=
  hs.of_eq (size_add name ▸ Nat.le_succ _) (fun _ => rootIndex_add name) fun _ => lookup_add name

theorem grows_add (name : String) : s.Grows (s.add name).2 :=
  .of_eq (size_add name ▸ Nat.le_succ _) (fun _ => rootIndex_add name) fun _ => lookup_add name

theorem Valid.fresh (hs : s.Valid) : s.fresh.2.Valid :=
  hs.of_eq (size_fresh ▸ Nat.le_succ _) (fun _ => rootIndex_fresh) fun _ => lookup_fresh

theorem grows_fresh : s.Grows s.fresh.2 :=
  .of_eq (size_fresh ▸ Nat.le_succ _) (fun _ => rootIndex_fresh) fun _ => lookup_fresh

/-! ## A merge -/

section Link

variable (hs : s.Valid) (hv : s.Has v) (hw : s.Has w) (hvn : s.lookup v = none)
  (hwn : s.lookup w = none)
include hs hv hw hvn hwn

theorem Valid.lookup_link (x : Var) : (s.link v w).lookup x = s.lookup x :=
  Substitution.lookup_link hvn hwn (hs.root_lt v hv) (hs.root_lt w hw) x

theorem grows_link : s.Grows (s.link v w) where
  size_le := size_link.ge
  class_eq x y _ _ h := by
    obtain ⟨r, -, hroot⟩ := exists_rootIndex_link (hs.root_lt v hv) (hs.root_lt w hw)
    rw [hroot, hroot, h]
  lookup_eq x t h := by rw [hs.lookup_link hv hw hvn hwn, h]

theorem Valid.link : (s.link v w).Valid := by
  obtain ⟨r, hr, hroot⟩ := exists_rootIndex_link (hs.root_lt v hv) (hs.root_lt w hw)
  have hlookup := hs.lookup_link hv hw hvn hwn
  constructor
  case root_lt =>
    intro x hx
    rw [Has, size_link] at hx
    rw [hroot, size_link]
    split_ifs
    · rcases hr with rfl | rfl
      · exact hs.root_lt v hv
      · exact hs.root_lt w hw
    · exact hs.root_lt x hx
  case root_root =>
    intro x
    rw [hroot, hroot x]
    have hx : ((s.link v w).root x).index = (s.link v w).rootIndex x := rfl
    rw [hroot x] at hx
    split_ifs at hx with hm
    · have hrr : s.rootIndex ((s.link v w).root x) = r := by
        rcases hr with rfl | rfl
        · exact hs.rootIndex_of_index hx
        · exact hs.rootIndex_of_index hx
      rw [if_pos hm, if_pos (hrr ▸ hr)]
    · rw [if_neg hm, hs.rootIndex_of_index hx, if_neg hm]
  case bound_over =>
    intro x t hx y hy
    rw [hlookup] at hx
    rw [Has, size_link]
    exact hs.bound_over x t hx y hy
  case bound_not_var =>
    intro x t hx
    rw [hlookup] at hx
    exact hs.bound_not_var x t hx
  case acyclic =>
    obtain ⟨height, hh⟩ := hs.acyclic
    -- the merged class is bound to nothing, so it can be put at the bottom
    refine ⟨fun i => if i = r then 0 else height i + 1, fun x t hx y hy => ?_⟩
    rw [hlookup] at hx
    have hxv : s.rootIndex x ≠ s.rootIndex v := fun he => by simp [lookup_congr he, hvn] at hx
    have hxw : s.rootIndex x ≠ s.rootIndex w := fun he => by simp [lookup_congr he, hwn] at hx
    have hxr : s.rootIndex x ≠ r := by rcases hr with rfl | rfl <;> assumption
    have hlt := hh x t hx y hy
    rw [hroot, hroot, if_neg (not_or.mpr ⟨hxv, hxw⟩)]
    dsimp only
    rw [if_neg hxr]
    split_ifs <;> omega

theorem card_openClasses_link (hne : s.rootIndex v ≠ s.rootIndex w) :
    (s.link v w).openClasses.card < s.openClasses.card := by
  obtain ⟨r, hr, hroot⟩ := exists_rootIndex_link (hs.root_lt v hv) (hs.root_lt w hw)
  have hlookup := hs.lookup_link hv hw hvn hwn
  have hvo := hs.root_mem_openClasses hv hvn
  have hwo := hs.root_mem_openClasses hw hwn
  apply Finset.card_lt_card
  rw [Finset.ssubset_iff_of_subset]
  · -- the representative that lost
    obtain ⟨i, hi, hir, hmerged⟩ : ∃ i ∈ s.openClasses, i ≠ r ∧
        (i = s.rootIndex v ∨ i = s.rootIndex w) := by
      rcases hr with rfl | rfl
      · exact ⟨_, hwo, hne.symm, .inr rfl⟩
      · exact ⟨_, hvo, hne, .inl rfl⟩
    refine ⟨i, hi, fun hi' => hir ?_⟩
    have hii := (mem_openClasses.mp hi).2.1
    have hii' := (mem_openClasses.mp hi').2.1
    rw [hroot, hii, if_pos hmerged] at hii'
    exact hii'.symm
  · intro i hi
    obtain ⟨hhas, hii, hnone⟩ := mem_openClasses.mp hi
    rw [hlookup] at hnone
    rw [Has, size_link] at hhas
    rw [hroot] at hii
    split_ifs at hii with hm
    · rw [← hii]
      rcases hr with rfl | rfl <;> assumption
    · exact mem_openClasses.mpr ⟨hhas, hii, hnone⟩

end Link

/-! ## A binding -/

section Bind

variable (hs : s.Valid) (hv : s.Has v) (hvn : s.lookup v = none)
include hs hv hvn

theorem grows_bind : s.Grows (s.bind v t) where
  size_le := size_bind.ge
  class_eq x y _ _ h := by rw [rootIndex_bind, rootIndex_bind, h]
  lookup_eq x u h := by
    rw [lookup_bind (hs.root_lt v hv), if_neg, h]
    intro he
    rw [lookup_congr he, hvn] at h
    cases h

theorem Valid.bind (ht : t.Over s) (hnv : ∀ w, t ≠ .var w) (ho : ¬ s.occurs v t = true) :
    (s.bind v t).Valid := by
  have hlookup := fun x => lookup_bind (w := x) (t := t) (hs.root_lt v hv)
  constructor
  case root_lt =>
    intro x hx
    rw [Has, size_bind] at hx
    rw [rootIndex_bind, size_bind]
    exact hs.root_lt x hx
  case root_root =>
    intro x
    rw [rootIndex_bind, rootIndex_bind]
    exact hs.rootIndex_of_index rootIndex_bind
  case bound_over =>
    intro x u hx y hy
    rw [Has, size_bind]
    rw [hlookup] at hx
    split_ifs at hx
    · cases hx
      exact ht y hy
    · exact hs.bound_over x u hx y hy
  case bound_not_var =>
    intro x u hx
    rw [hlookup] at hx
    split_ifs at hx
    · cases hx
      exact hnv
    · exact hs.bound_not_var x u hx
  case acyclic =>
    obtain ⟨height, hh, hlt⟩ := hs.exists_height
    -- whatever leads to the bound class is lifted above all that does not
    refine ⟨fun i => height i + if s.occurs v (.var ⟨i, ""⟩) then s.size else 0, ?_⟩
    have hleads : ∀ x, s.occurs v (.var ⟨s.rootIndex x, ""⟩) = s.occurs v (.var x) :=
      fun x => occurs_var_congr (hs.rootIndex_of_index rfl)
    intro x u hx y hy
    simp only [rootIndex_bind, hleads]
    rw [hlookup] at hx
    split_ifs at hx with hxv
    · cases hx
      have hy' : ¬ s.occurs v (.var y) = true := fun h => ho (occurs_iff_exists.mpr ⟨y, hy, h⟩)
      have hv' : s.occurs v (.var x) = true := by
        rw [occurs_var_of_unbound ((lookup_congr hxv).trans hvn), hxv]
      have := hlt _ (hs.root_lt y (ht y hy))
      rw [if_neg hy', if_pos hv']
      omega
    · have hlower := hh x u hx y hy
      have hcarry : s.occurs v (.var y) = true → s.occurs v (.var x) = true := by
        intro h
        rw [hs.occurs_var_of_bound hx]
        exact occurs_iff_exists.mpr ⟨y, hy, h⟩
      split_ifs with h1 h2
      · omega
      · exact absurd (hcarry h1) h2
      · omega
      · omega

theorem card_openClasses_bind : (s.bind v t).openClasses.card < s.openClasses.card := by
  have hlookup := fun x => lookup_bind (w := x) (t := t) (hs.root_lt v hv)
  apply Finset.card_lt_card
  rw [Finset.ssubset_iff_of_subset]
  · refine ⟨s.rootIndex v, hs.root_mem_openClasses hv hvn, fun h => ?_⟩
    have hnone := (mem_openClasses.mp h).2.2
    rw [hlookup, if_pos (hs.rootIndex_of_index rfl)] at hnone
    cases hnone
  · intro i hi
    obtain ⟨hhas, hii, hnone⟩ := mem_openClasses.mp hi
    rw [Has, size_bind] at hhas
    rw [rootIndex_bind] at hii
    rw [hlookup] at hnone
    split_ifs at hnone
    exact mem_openClasses.mpr ⟨hhas, hii, hnone⟩

end Bind

end Clausal.Substitution
