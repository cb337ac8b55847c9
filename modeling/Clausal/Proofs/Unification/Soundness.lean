import Clausal.Proofs.Substitution.Evolution

/-!
# Unified types have one skeleton

The unifier does not compare the arguments of constructors, so what it makes equal is the skeleton of
two types, which leaves these arguments out. Equal skeletons stay equal when the substitution grows.
Types that resolve to constructors without arguments only are made equal in full.
-/
namespace Clausal

namespace Ty

/-- The type without the arguments of its constructors. -/
def erased : Ty → Ty
  | .var v => .var v
  | .named constr _ => .named constr []
  | .fn d c => .fn d.erased c.erased

/-- No constructor in the type has arguments. -/
def Nullary : Ty → Prop
  | .var _ => True
  | .named _ ts => ts = []
  | .fn d c => d.Nullary ∧ c.Nullary

variable {f : Var → Ty} {t : Ty}

theorem erased_bindVars : (t.bindVars f).erased = t.erased.bindVars fun v => (f v).erased := by
  induction t with
  | var v => rw [bindVars_var, erased, bindVars_var]
  | named constr ts _ => rw [bindVars_named, erased, erased, bindVars_named, List.map_nil]
  | fn d c ihd ihc => rw [bindVars_fn, erased, erased, bindVars_fn, ihd, ihc]

theorem Nullary.erased_eq (h : t.Nullary) : t.erased = t := by
  induction t with
  | var v => rfl
  | named constr ts _ =>
    rw [Nullary] at h
    rw [h, erased]
  | fn d c ihd ihc => rw [erased, ihd h.1, ihc h.2]

theorem Nullary.bindVars (h : t.Nullary) (hf : ∀ v ∈ t.occurrences, (f v).Nullary) :
    (t.bindVars f).Nullary := by
  induction t with
  | var v =>
    rw [bindVars_var]
    exact hf v (mem_occurrences_var.mpr rfl)
  | named constr ts _ =>
    rw [Nullary] at h
    rw [h, bindVars_named, List.map_nil, Nullary]
  | fn d c ihd ihc =>
    rw [bindVars_fn]
    exact ⟨ihd h.1 fun v hv => hf v (mem_occurrences_fn.mpr (.inl hv)),
      ihc h.2 fun v hv => hf v (mem_occurrences_fn.mpr (.inr hv))⟩

end Ty

namespace Substitution

/-- The skeleton of a type: its resolved form without the arguments of constructors. -/
def skeleton (s : Substitution) (t : Ty) : Ty :=
  (s.resolve t).erased

variable {s s' s'' : Substitution} {v w : Var} {t u x d c : Ty} {r : Unification}

theorem skeleton_fn : s.skeleton (.fn d c) = .fn (s.skeleton d) (s.skeleton c) := by
  rw [skeleton, resolve_fn, Ty.erased, skeleton, skeleton]

theorem skeleton_named (constr : String) (ts : List Ty) :
    s.skeleton (.named constr ts) = .named constr [] := by
  rw [skeleton, resolve_named, Ty.erased]

theorem Valid.skeleton_of_bound (hs : s.Valid) (h : s.lookup v = some t) :
    s.skeleton (.var v) = s.skeleton t := by
  rw [skeleton, hs.resolve_var_of_bound h, skeleton]

/-- A larger substitution makes more of a skeleton, and the same of the same skeleton. -/
theorem Grows.skeleton_eq_bindVars (h : s.Grows s') (hs : s.Valid) (hs' : s'.Valid)
    (ht : t.Over s) : s'.skeleton t = (s.skeleton t).bindVars fun v => s'.skeleton (.var v) := by
  rw [skeleton, ← h.resolve_resolve hs hs' ht, resolve_eq_bindVars, Ty.erased_bindVars, skeleton]
  rfl

theorem Grows.skeleton_eq (h : s.Grows s') (hs : s.Valid) (hs' : s'.Valid) (ht : t.Over s)
    (hu : u.Over s) (he : s.skeleton t = s.skeleton u) : s'.skeleton t = s'.skeleton u := by
  rw [h.skeleton_eq_bindVars hs hs' ht, he, h.skeleton_eq_bindVars hs hs' hu]

/-! ## Skeletons of unified types -/

theorem Unifies.skeleton_eq (h : Unifies s t u r s') (hs : s.Valid) (ht : t.Over s)
    (hu : u.Over s) (hr : r = .unified x) :
    s'.skeleton t = s'.skeleton u ∧ s'.skeleton x = s'.skeleton u := by
  induction h generalizing x with
  | chaseLeft hv hrun ih =>
    have h' := hrun.advances hs (hs.bound_over _ _ hv) hu
    rw [h'.valid.skeleton_of_bound (h'.grows.lookup_eq _ _ hv)]
    exact ih hs (hs.bound_over _ _ hv) hu hr
  | chaseRight _ hw hrun ih =>
    have h' := hrun.advances hs ht (hs.bound_over _ _ hw)
    rw [h'.valid.skeleton_of_bound (h'.grows.lookup_eq _ _ hw)]
    exact ih hs ht (hs.bound_over _ _ hw) hr
  | @same s v w _ _ hvw =>
    cases hr
    have he : s.skeleton (.var v) = s.skeleton (.var w) := by
      rw [skeleton, resolve_var_congr hvw, skeleton]
    exact ⟨he, he⟩
  | @link s v w hv hw _ =>
    cases hr
    have hvs := over_var.mp ht
    have hws := over_var.mp hu
    obtain ⟨r, -, hroot⟩ := exists_rootIndex_link (hs.root_lt v hvs) (hs.root_lt w hws)
    have hvw : (s.link v w).rootIndex v = (s.link v w).rootIndex w := by
      rw [hroot, hroot, if_pos (.inl rfl), if_pos (.inr rfl)]
    exact ⟨by rw [skeleton, resolve_var_congr hvw, skeleton], rfl⟩
  | @bindLeft s v u hv hnv ho =>
    cases hr
    have hvs := over_var.mp ht
    have hs' := hs.bind hvs hv hu hnv (by simp [ho])
    have hb : (s.bind v u).lookup v = some u := by
      rw [lookup_bind (hs.root_lt v hvs), if_pos rfl]
    exact ⟨hs'.skeleton_of_bound hb, rfl⟩
  | @bindRight s w t hw hnv ho =>
    cases hr
    have hws := over_var.mp hu
    have hs' := hs.bind hws hw ht hnv (by simp [ho])
    have hb : (s.bind w t).lookup w = some t := by
      rw [lookup_bind (hs.root_lt w hws), if_pos rfl]
    have he := (hs'.skeleton_of_bound hb).symm
    exact ⟨he, he⟩
  | circularLeft _ _ _ => cases hr
  | circularRight _ _ _ => cases hr
  | named =>
    cases hr
    rw [skeleton_named, skeleton_named]
    exact ⟨rfl, rfl⟩
  | clash _ => cases hr
  | fn hd hc ihd ihc =>
    cases hr
    obtain ⟨hdo, hco⟩ := over_fn.mp ht
    obtain ⟨hdo', hco'⟩ := over_fn.mp hu
    have h₁ := hd.advances hs hdo' hdo
    have h₂ := hc.advances h₁.valid (h₁.grows.over hco) (h₁.grows.over hco')
    obtain ⟨hd₁, hx₁⟩ := ihd hs hdo' hdo rfl
    obtain ⟨hc₂, hx₂⟩ := ihc h₁.valid (h₁.grows.over hco) (h₁.grows.over hco') rfl
    -- what the domains agree on is still so when the codomains have bound more
    have keep {a b : Ty} (ha : a.Over _) (hb : b.Over _) := h₂.grows.skeleton_eq h₁.valid h₂.valid ha hb
    have hd₂ := keep (h₁.grows.over hdo') (h₁.grows.over hdo) hd₁
    have hxd := keep (h₁.over_result _ rfl) (h₁.grows.over hdo) hx₁
    simp only [skeleton_fn]
    rw [hc₂, hx₂, hxd, hd₂]
    exact ⟨rfl, rfl⟩
  | fnDomain _ hr' _ =>
    rw [hr] at hr'
    cases hr'
  | fnCodomain _ _ hr' _ _ =>
    rw [hr] at hr'
    cases hr'

/-! ## Constructors without arguments -/

/-- No type that is free of constructor arguments gets any. -/
def KeepsNullary (s s' : Substitution) : Prop :=
  ∀ x : Ty, x.Over s → (s.resolve x).Nullary → (s'.resolve x).Nullary

theorem Grows.keepsNullary (h : s.Grows s') (hs : s.Valid) (hs' : s'.Valid)
    (hopen : ∀ w, s.lookup w = none → (s'.resolve (.var w)).Nullary) : s.KeepsNullary s' := by
  intro x hx hn
  rw [← h.resolve_resolve hs hs' hx, resolve_eq_bindVars]
  exact hn.bindVars fun w hw => hopen w (hs.mem_resolve hx hw).2.1

theorem nullary_of_unbound (h : s.lookup v = none) : (s.resolve (.var v)).Nullary := by
  rw [resolve_var_of_unbound h]
  trivial

theorem keepsNullary_link (hs : s.Valid) (hv : s.Has v) (hw : s.Has w) (hvn : s.lookup v = none)
    (hwn : s.lookup w = none) : s.KeepsNullary (s.link v w) := by
  refine (grows_link hs hv hw hvn hwn).keepsNullary hs (hs.link hv hw hvn hwn) fun x hx => ?_
  exact nullary_of_unbound (by rw [hs.lookup_link hv hw hvn hwn, hx])

theorem keepsNullary_bind (hs : s.Valid) (hv : s.Has v) (hvn : s.lookup v = none) (ht : t.Over s)
    (hnv : ∀ w, t ≠ .var w) (ho : s.occurs v t = false) (hn : (s.resolve t).Nullary) :
    s.KeepsNullary (s.bind v t) := by
  have hs' := hs.bind hv hvn ht hnv (by simp [ho])
  have hgrows := grows_bind (t := t) hs hv hvn
  have hlookup := fun x => lookup_bind (w := x) (t := t) (hs.root_lt v hv)
  -- the variables that are left in the bound type are of other classes
  have ht' : ((s.bind v t).resolve t).Nullary := by
    rw [← hgrows.resolve_resolve hs hs' ht, resolve_eq_bindVars]
    refine hn.bindVars fun w hw => nullary_of_unbound ?_
    obtain ⟨-, hwn, hroot⟩ := hs.mem_resolve ht hw
    rw [hlookup, if_neg, hwn]
    intro he
    have : s.occurs v t = true := by
      rw [hs.occurs_iff ht, ← root_congr he, hroot]
      exact ⟨hvn, hw⟩
    rw [ho] at this
    cases this
  refine hgrows.keepsNullary hs hs' fun w hw => ?_
  by_cases he : s.rootIndex w = s.rootIndex v
  · rw [hs'.resolve_var_of_bound (by rw [hlookup, if_pos he])]
    exact ht'
  · exact nullary_of_unbound (by rw [hlookup, if_neg he, hw])

theorem Unifies.nullary (h : Unifies s t u r s') (hs : s.Valid) (ht : t.Over s) (hu : u.Over s)
    (hnt : (s.resolve t).Nullary) (hnu : (s.resolve u).Nullary) :
    s.KeepsNullary s' ∧ ∀ x, r = .unified x → (s'.resolve x).Nullary := by
  have keep (s : Substitution) : s.KeepsNullary s := fun _ _ hx => hx
  induction h with
  | chaseLeft hv _ ih =>
    rw [hs.resolve_var_of_bound hv] at hnt
    exact ih hs (hs.bound_over _ _ hv) hu hnt hnu
  | chaseRight _ hw _ ih =>
    rw [hs.resolve_var_of_bound hw] at hnu
    exact ih hs ht (hs.bound_over _ _ hw) hnt hnu
  | same _ _ _ => exact ⟨keep _, fun x hx => by cases hx; exact hnt⟩
  | link hv hw _ =>
    have h := keepsNullary_link hs (over_var.mp ht) (over_var.mp hu) hv hw
    exact ⟨h, fun x hx => by cases hx; exact h _ hu hnu⟩
  | bindLeft hv hnv ho =>
    have h := keepsNullary_bind hs (over_var.mp ht) hv hu hnv ho hnu
    exact ⟨h, fun x hx => by cases hx; exact h _ hu hnu⟩
  | bindRight hw hnv ho =>
    have h := keepsNullary_bind hs (over_var.mp hu) hw ht hnv ho hnt
    exact ⟨h, fun x hx => by cases hx; exact h _ ht hnt⟩
  | circularLeft _ _ _ => exact ⟨keep _, fun x hx => by cases hx⟩
  | circularRight _ _ _ => exact ⟨keep _, fun x hx => by cases hx⟩
  | named => exact ⟨keep _, fun x hx => by cases hx; exact hnt⟩
  | clash _ => exact ⟨keep _, fun x hx => by cases hx⟩
  | @fn s s₁ s₂ d d' c c' domain codomain hd hc ihd ihc =>
    obtain ⟨hdo, hco⟩ := over_fn.mp ht
    obtain ⟨hdo', hco'⟩ := over_fn.mp hu
    rw [resolve_fn] at hnt hnu
    have h₁ := hd.advances hs hdo' hdo
    obtain ⟨hkeep₁, hx₁⟩ := ihd hs hdo' hdo hnu.1 hnt.1
    obtain ⟨hkeep₂, hx₂⟩ := ihc h₁.valid (h₁.grows.over hco) (h₁.grows.over hco')
      (hkeep₁ c hco hnt.2) (hkeep₁ c' hco' hnu.2)
    refine ⟨fun x hx hn => hkeep₂ x (h₁.grows.over hx) (hkeep₁ x hx hn), fun x hx => ?_⟩
    cases hx
    rw [resolve_fn]
    exact ⟨hkeep₂ domain (h₁.over_result _ rfl) (hx₁ _ rfl), hx₂ _ rfl⟩
  | fnDomain _ _ ihd =>
    rw [resolve_fn] at hnt hnu
    exact ihd hs (over_fn.mp hu).1 (over_fn.mp ht).1 hnu.1 hnt.1
  | @fnCodomain s s₁ s₂ d d' c c' domain r hd hc hr ihd ihc =>
    obtain ⟨hdo, hco⟩ := over_fn.mp ht
    obtain ⟨hdo', hco'⟩ := over_fn.mp hu
    rw [resolve_fn] at hnt hnu
    have h₁ := hd.advances hs hdo' hdo
    obtain ⟨hkeep₁, -⟩ := ihd hs hdo' hdo hnu.1 hnt.1
    obtain ⟨hkeep₂, hx₂⟩ := ihc h₁.valid (h₁.grows.over hco) (h₁.grows.over hco')
      (hkeep₁ c hco hnt.2) (hkeep₁ c' hco' hnu.2)
    exact ⟨fun x hx hn => hkeep₂ x (h₁.grows.over hx) (hkeep₁ x hx hn), hx₂⟩

/-- Types that were unified, and the type that unifying gave, have one skeleton from then on, and one
resolved form if they had no constructors with arguments. -/
theorem unify_skeleton (hs : Reachable s) (ht : t.Over s) (hu : u.Over s)
    (h : s.unify t u = (.unified x, s')) (hlater : Evolves s' s'') :
    (s''.skeleton t = s''.skeleton u ∧ s''.skeleton x = s''.skeleton u) ∧
    ((s.resolve t).Nullary → (s.resolve u).Nullary →
      s''.resolve t = s''.resolve u ∧ s''.resolve x = s''.resolve u) := by
  have hrun := hs.valid.unify_run ht hu
  rw [h] at hrun
  have hadv := hrun.advances hs.valid ht hu
  obtain ⟨hs'', hgrows⟩ := hlater.spec hadv.valid
  have ht' := hadv.grows.over ht
  have hu' := hadv.grows.over hu
  have hx' := hadv.over_result x rfl
  obtain ⟨htu, hxu⟩ := hrun.skeleton_eq hs.valid ht hu rfl
  constructor
  · exact ⟨hgrows.skeleton_eq hadv.valid hs'' ht' hu' htu,
      hgrows.skeleton_eq hadv.valid hs'' hx' hu' hxu⟩
  · intro hnt hnu
    obtain ⟨hkeep, hx⟩ := hrun.nullary hs.valid ht hu hnt hnu
    have hnt' := (hkeep t ht hnt).erased_eq
    have hnu' := (hkeep u hu hnu).erased_eq
    have hnx' := (hx x rfl).erased_eq
    rw [skeleton, skeleton, hnt', hnu'] at htu
    rw [skeleton, skeleton, hnx', hnu'] at hxu
    exact ⟨hgrows.resolve_eq hadv.valid hs'' ht' hu' htu,
      hgrows.resolve_eq hadv.valid hs'' hx' hu' hxu⟩

/-- Two new variables, `a -> a` and `b -> Int` unified, and a new variable made behind it. -/
theorem unify_skeleton_two_fresh :
    let s := (fresh {}).2.fresh.2
    let t := Ty.fn (.var ⟨0, "?t0"⟩) (.var ⟨0, "?t0"⟩)
    let u := Ty.fn (.var ⟨1, "?t1"⟩) (.constant "Int")
    let s' := (s.unify t u).2
    let x := Ty.fn (.var ⟨0, "?t0"⟩) (.constant "Int")
    Reachable s ∧ t.Over s ∧ u.Over s ∧ s.unify t u = (.unified x, s') ∧ Evolves s' s'.fresh.2 ∧
      (s'.fresh.2.skeleton t = s'.fresh.2.skeleton u ∧
        s'.fresh.2.skeleton x = s'.fresh.2.skeleton u) ∧
      s'.fresh.2.resolve t = s'.fresh.2.resolve u ∧ s'.fresh.2.resolve x = s'.fresh.2.resolve u := by
  intro s t u s' x
  have hs : Reachable s := (Relation.ReflTransGen.single .fresh).tail .fresh
  have ht : t.Over s := by simp [t, Ty.Over, s, Has, size_fresh]
  have hu : u.Over s := by simp [u, Ty.Over, Ty.constant, s, Has, size_fresh]
  have h : s.unify t u = (.unified x, s') := Prod.ext (by decide +kernel) rfl
  have hlater : Evolves s' s'.fresh.2 := .single .fresh
  obtain ⟨hskeleton, hnullary⟩ := unify_skeleton hs ht hu h hlater
  have hnt : (s.resolve t).Nullary := by
    rw [resolve_fn]
    exact ⟨nullary_of_unbound rfl, nullary_of_unbound rfl⟩
  have hnu : (s.resolve u).Nullary := by
    rw [resolve_fn]
    exact ⟨nullary_of_unbound rfl, rfl⟩
  exact ⟨hs, ht, hu, h, hlater, hskeleton, hnullary hnt hnu⟩

end Substitution
end Clausal
