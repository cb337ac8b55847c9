import Clausal.Proofs.Unification.Soundness

/-!
# The order of the operands

Two runs whose operands are exchanged find the same classes and bind them to the same types, and either
both succeed or both fail, for the same reason and at the same types. What may differ is which of two
merged classes keeps its representative, and so which variables stand in the type that a success gives.
-/
namespace Clausal

/-- The outcome with the roles of the two types exchanged. The types that successes give are left open. -/
inductive Unification.Exchanged : Unification → Unification → Prop where
  | unified {x y} : Exchanged (.unified x) (.unified y)
  | mismatch {e a} : Exchanged (.mismatch e a) (.mismatch a e)
  | circular {t v} : Exchanged (.circular t v) (.circular t v)

namespace Substitution

variable {s s' s₁ s₂ : Substitution} {v w : Var} {t u b : Ty} {r r' : Unification}

/-! ## Substitutions that differ in representatives only -/

/-- The same variables in the same classes, and each class bound to the same type. -/
structure Alike (s s' : Substitution) : Prop where
  size_eq : s'.size = s.size
  sameClass_eq : ∀ v w, s'.sameClass v w = s.sameClass v w
  lookup_eq : ∀ v, s'.lookup v = s.lookup v

theorem Alike.refl (s : Substitution) : s.Alike s :=
  ⟨rfl, fun _ _ => rfl, fun _ => rfl⟩

theorem Alike.symm (h : s.Alike s') : s'.Alike s :=
  ⟨h.size_eq.symm, fun v w => (h.sameClass_eq v w).symm, fun v => (h.lookup_eq v).symm⟩

theorem Alike.rootIndex_eq_iff (h : s.Alike s') :
    s'.rootIndex v = s'.rootIndex w ↔ s.rootIndex v = s.rootIndex w := by
  rw [← sameClass_iff, ← sameClass_iff, h.sameClass_eq]

theorem Alike.of_iff (hsize : s'.size = s.size)
    (hclass : ∀ v w, s'.rootIndex v = s'.rootIndex w ↔ s.rootIndex v = s.rootIndex w)
    (hlookup : ∀ v, s'.lookup v = s.lookup v) : s.Alike s' where
  size_eq := hsize
  sameClass_eq v w := by rw [Bool.eq_iff_iff, sameClass_iff, sameClass_iff, hclass]
  lookup_eq := hlookup

theorem Alike.grows (h : s.Alike s') : s.Grows s' where
  size_le := h.size_eq.ge
  class_eq _ _ _ _ he := h.rootIndex_eq_iff.mpr he
  lookup_eq v _ hv := (h.lookup_eq v).trans hv

theorem Alike.over (h : s.Alike s') (ht : t.Over s) : t.Over s' :=
  h.grows.over ht

theorem Alike.occursWithin_eq (h : s.Alike s') (v : Var) (n : Nat) (t : Ty) :
    s'.occursWithin v n t = s.occursWithin v n t := by
  induction n generalizing t with
  | zero => rw [occursWithin, occursWithin]
  | succ n ih => simp only [occursWithin, h.lookup_eq, h.sameClass_eq, ih]

theorem Alike.occurs_eq (h : s.Alike s') (v : Var) (t : Ty) : s'.occurs v t = s.occurs v t := by
  rw [occurs, hops, h.size_eq, h.occursWithin_eq, occurs, hops]

/-- Types with one skeleton have one skeleton in both. -/
theorem Alike.skeleton_eq (h : s.Alike s') (hs : s.Valid) (hs' : s'.Valid) (ht : t.Over s)
    (hu : u.Over s) (he : s.skeleton t = s.skeleton u) : s'.skeleton t = s'.skeleton u :=
  h.grows.skeleton_eq hs hs' ht hu he

/-- Behind a merge, what was in one class still is, and all of the two classes are in one. -/
theorem Valid.rootIndex_link_eq_iff (hs : s.Valid) (hv : s.Has v) (hw : s.Has w) (x y : Var) :
    (s.link v w).rootIndex x = (s.link v w).rootIndex y ↔
      s.rootIndex x = s.rootIndex y ∨
        (s.rootIndex x = s.rootIndex v ∨ s.rootIndex x = s.rootIndex w) ∧
          (s.rootIndex y = s.rootIndex v ∨ s.rootIndex y = s.rootIndex w) := by
  obtain ⟨r, hr, hroot⟩ := exists_rootIndex_link (hs.root_lt v hv) (hs.root_lt w hw)
  rw [hroot, hroot]
  grind

/-- Merging two classes in either direction makes the same class of them. -/
theorem Alike.link (h : s.Alike s') (hs : s.Valid) (hs' : s'.Valid) (hv : s.Has v) (hw : s.Has w)
    (hvn : s.lookup v = none) (hwn : s.lookup w = none) : (s.link v w).Alike (s'.link w v) := by
  have hv' : s'.Has v := h.grows.has hv
  have hw' : s'.Has w := h.grows.has hw
  refine .of_iff ?_ (fun x y => ?_) fun x => ?_
  · rw [size_link, size_link, h.size_eq]
  · rw [hs'.rootIndex_link_eq_iff hw' hv', hs.rootIndex_link_eq_iff hv hw]
    simp only [h.rootIndex_eq_iff]
    rw [or_comm (a := s.rootIndex x = s.rootIndex w), or_comm (a := s.rootIndex y = s.rootIndex w)]
  · rw [hs'.lookup_link hw' hv' ((h.lookup_eq w).trans hwn) ((h.lookup_eq v).trans hvn),
      hs.lookup_link hv hw hvn hwn, h.lookup_eq]

theorem Alike.bind (h : s.Alike s') (hs : s.Valid) (hs' : s'.Valid) (hv : s.Has v) :
    (s.bind v t).Alike (s'.bind v t) := by
  refine .of_iff ?_ (fun x y => ?_) fun x => ?_
  · rw [size_bind, size_bind, h.size_eq]
  · simp only [rootIndex_bind, h.rootIndex_eq_iff]
  · rw [lookup_bind (hs.root_lt v hv), lookup_bind (hs'.root_lt v (h.grows.has hv))]
    simp only [h.rootIndex_eq_iff, h.lookup_eq]

/-! ## Runs with exchanged operands -/

/-- A bound variable on the right can be chased at once, also where one on the left would be chased
first: the run comes to the same two types. -/
theorem Valid.unifies_chaseRight (hs : s.Valid) (hw : s.lookup w = some b) (h : Unifies s t b r s') :
    Unifies s t (.var w) r s' := by
  by_cases hfree : ∀ v, t = .var v → s.lookup v = none
  · exact .chaseRight hfree hw h
  · push Not at hfree
    obtain ⟨v, rfl, hv⟩ := hfree
    have hbv : ∀ x, b ≠ .var x := hs.bound_not_var w b hw
    cases h with
    | chaseLeft hv' hrest =>
      exact .chaseLeft hv' (.chaseRight (fun x hx => absurd hx (hs.bound_not_var v _ hv' x)) hw hrest)
    | chaseRight => exact absurd rfl (hbv _)
    | same => exact absurd rfl (hbv _)
    | link => exact absurd rfl (hbv _)
    | bindLeft hnone => exact absurd hnone hv
    | bindRight => exact absurd rfl (hbv _)
    | circularLeft hnone => exact absurd hnone hv
    | circularRight => exact absurd rfl (hbv _)
    | clash hclash => exact hclash.elim

/-- Each run has a run of the exchanged operands beside it, from any substitution with the same classes
and bindings. -/
theorem Unifies.exchange (h : Unifies s t u r s₁) (hs : s.Valid) (hs' : s'.Valid) (ha : s.Alike s')
    (ht : t.Over s) (hu : u.Over s) :
    ∃ r' s₁', Unifies s' u t r' s₁' ∧ s₁.Alike s₁' ∧ r.Exchanged r' := by
  induction h generalizing s' with
  | chaseLeft hv _ ih =>
    obtain ⟨r', s₁', hrun, hafter⟩ := ih hs hs' ha (hs.bound_over _ _ hv) hu
    exact ⟨r', s₁', hs'.unifies_chaseRight ((ha.lookup_eq _).trans hv) hrun, hafter⟩
  | chaseRight _ hw _ ih =>
    obtain ⟨r', s₁', hrun, hafter⟩ := ih hs hs' ha ht (hs.bound_over _ _ hw)
    exact ⟨r', s₁', .chaseLeft ((ha.lookup_eq _).trans hw) hrun, hafter⟩
  | same hv hw he =>
    exact ⟨_, _, .same ((ha.lookup_eq _).trans hw) ((ha.lookup_eq _).trans hv)
      (ha.rootIndex_eq_iff.mpr he.symm), ha, .unified⟩
  | link hv hw hne =>
    refine ⟨_, _, .link ((ha.lookup_eq _).trans hw) ((ha.lookup_eq _).trans hv) fun he => ?_,
      ha.link hs hs' (over_var.mp ht) (over_var.mp hu) hv hw, .unified⟩
    exact hne (ha.rootIndex_eq_iff.mp he).symm
  | bindLeft hv hnv ho =>
    exact ⟨_, _, .bindRight ((ha.lookup_eq _).trans hv) hnv ((ha.occurs_eq _ _).trans ho),
      ha.bind hs hs' (over_var.mp ht), .unified⟩
  | bindRight hw hnv ho =>
    exact ⟨_, _, .bindLeft ((ha.lookup_eq _).trans hw) hnv ((ha.occurs_eq _ _).trans ho),
      ha.bind hs hs' (over_var.mp hu), .unified⟩
  | circularLeft hv hnv ho =>
    exact ⟨_, _, .circularRight ((ha.lookup_eq _).trans hv) hnv ((ha.occurs_eq _ _).trans ho), ha,
      .circular⟩
  | circularRight hw hnv ho =>
    exact ⟨_, _, .circularLeft ((ha.lookup_eq _).trans hw) hnv ((ha.occurs_eq _ _).trans ho), ha,
      .circular⟩
  | named => exact ⟨_, _, .named, ha, .unified⟩
  | clash hclash => exact ⟨_, _, .clash hclash.symm, ha, .mismatch⟩
  | fn hd _ ihd ihc =>
    obtain ⟨hdo, hco⟩ := over_fn.mp ht
    obtain ⟨hdo', hco'⟩ := over_fn.mp hu
    have h₁ := hd.advances hs hdo' hdo
    obtain ⟨_, s₁', hrun₁, ha₁, hr₁⟩ := ihd hs hs' ha hdo' hdo
    have h₁' := hrun₁.advances hs' (ha.over hdo) (ha.over hdo')
    obtain ⟨_, s₂', hrun₂, ha₂, hr₂⟩ := ihc h₁.valid h₁'.valid ha₁ (h₁.grows.over hco) (h₁.grows.over hco')
    cases hr₁
    cases hr₂
    exact ⟨_, _, .fn hrun₁ hrun₂, ha₂, .unified⟩
  | fnDomain _ hr ihd =>
    obtain ⟨r', s₁', hrun₁, ha₁, hr₁⟩ := ihd hs hs' ha (over_fn.mp hu).1 (over_fn.mp ht).1
    have hr' : r'.isUnified = false := by cases hr₁ <;> first | rfl | cases hr
    exact ⟨_, _, .fnDomain hrun₁ hr', ha₁, hr₁⟩
  | fnCodomain hd _ hr ihd ihc =>
    obtain ⟨hdo, hco⟩ := over_fn.mp ht
    obtain ⟨hdo', hco'⟩ := over_fn.mp hu
    have h₁ := hd.advances hs hdo' hdo
    obtain ⟨_, s₁', hrun₁, ha₁, hr₁⟩ := ihd hs hs' ha hdo' hdo
    have h₁' := hrun₁.advances hs' (ha.over hdo) (ha.over hdo')
    obtain ⟨r₂', s₂', hrun₂, ha₂, hr₂⟩ := ihc h₁.valid h₁'.valid ha₁ (h₁.grows.over hco) (h₁.grows.over hco')
    cases hr₁
    have hr' : r₂'.isUnified = false := by cases hr₂ <;> first | rfl | cases hr
    exact ⟨_, _, .fnCodomain hrun₁ hrun₂ hr', ha₂, hr₂⟩

/-- The rules exclude one another: two types have one run. -/
theorem Unifies.unique (h : Unifies s t u r s₁) (h' : Unifies s t u r' s₂) : r' = r ∧ s₂ = s₁ := by
  induction h generalizing r' s₂
  all_goals
    cases h'
    all_goals grind [Ty.Clash, Unification.isUnified]

/-- Unifying with the operands exchanged fails where it did, for the same reason, and finds the same
classes and bindings. Where it succeeds, its type has the skeleton of the other one, under both
substitutions. -/
theorem unify_exchange (hs : Reachable s) (ht : t.Over s) (hu : u.Over s) :
    (s.unify t u).1.Exchanged (s.unify u t).1 ∧
    (s.unify t u).2.Alike (s.unify u t).2 ∧
    ∀ x y, (s.unify t u).1 = .unified x → (s.unify u t).1 = .unified y →
      (s.unify t u).2.skeleton x = (s.unify t u).2.skeleton y ∧
      (s.unify u t).2.skeleton x = (s.unify u t).2.skeleton y := by
  have hrun := hs.valid.unify_run ht hu
  have hrun' := hs.valid.unify_run hu ht
  obtain ⟨r', s₂, hex, halike, hexchanged⟩ := hrun.exchange hs.valid hs.valid (.refl s) ht hu
  obtain ⟨rfl, rfl⟩ := hrun'.unique hex
  refine ⟨hexchanged, halike, fun x y hx hy => ?_⟩
  have hadv := hrun.advances hs.valid ht hu
  have hadv' := hrun'.advances hs.valid hu ht
  have hover : t.Over (s.unify t u).2 ∧ x.Over (s.unify t u).2 :=
    ⟨hadv.grows.over ht, hadv.over_result x hx⟩
  have hover' : t.Over (s.unify u t).2 ∧ y.Over (s.unify u t).2 :=
    ⟨hadv'.grows.over ht, hadv'.over_result y hy⟩
  obtain ⟨htu, hxu⟩ := hrun.skeleton_eq hs.valid ht hu hx
  obtain ⟨-, hyt⟩ := hrun'.skeleton_eq hs.valid hu ht hy
  have hxt := hxu.trans htu.symm
  constructor
  · exact hxt.trans (halike.symm.skeleton_eq hadv'.valid hadv.valid hover'.2 hover'.1 hyt).symm
  · exact (halike.skeleton_eq hadv.valid hadv'.valid hover.2 hover.1 hxt).trans hyt.symm

/-- Three new variables, `?t0 -> Int` against `?t1 -> ?t2`: the linked class of the first two keeps a
different representative in each direction. -/
theorem unify_exchange_three_fresh :
    let s := (fresh {}).2.fresh.2.fresh.2
    let t := Ty.fn (.var ⟨0, "?t0"⟩) (.constant "Int")
    let u := Ty.fn (.var ⟨1, "?t1"⟩) (.var ⟨2, "?t2"⟩)
    let x := Ty.fn (.var ⟨0, "?t0"⟩) (.constant "Int")
    let y := Ty.fn (.var ⟨1, "?t1"⟩) (.constant "Int")
    Reachable s ∧ t.Over s ∧ u.Over s ∧
      (s.unify t u).1 = .unified x ∧ (s.unify u t).1 = .unified y ∧
      (s.unify t u).2.rootIndex ⟨0, "?t0"⟩ ≠ (s.unify u t).2.rootIndex ⟨0, "?t0"⟩ ∧
      (s.unify t u).2.Alike (s.unify u t).2 ∧
      (s.unify t u).2.skeleton x = (s.unify t u).2.skeleton y ∧
      (s.unify u t).2.skeleton x = (s.unify u t).2.skeleton y := by
  intro s t u x y
  have hs : Reachable s := ((Relation.ReflTransGen.single .fresh).tail .fresh).tail .fresh
  have ht : t.Over s := by simp [t, Ty.Over, Ty.constant, s, Has, size_fresh]
  have hu : u.Over s := by simp [u, Ty.Over, s, Has, size_fresh]
  have hx : (s.unify t u).1 = .unified x := by decide +kernel
  have hy : (s.unify u t).1 = .unified y := by decide +kernel
  obtain ⟨-, halike, hskeleton⟩ := unify_exchange hs ht hu
  exact ⟨hs, ht, hu, hx, hy, by decide +kernel, halike, hskeleton x y hx hy⟩

end Substitution
end Clausal
