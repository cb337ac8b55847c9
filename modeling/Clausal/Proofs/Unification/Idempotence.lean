import Clausal.Proofs.Unification.Symmetry

/-!
# Unifying what is already equal

A run on types of one skeleton meets nothing but bound variables, variables of one class, and constructors
and functions that agree: it merges nothing, binds nothing and cannot fail. On other types a run fails, or
it ends with the two skeletons equal, so that classes or bindings have changed.
-/
namespace Clausal.Substitution

variable {s s' : Substitution} {v w : Var} {t u x : Ty} {r : Unification}

/-- An unbound variable has the skeleton of no constructor and no function. -/
theorem skeleton_ne_of_unbound (hv : s.lookup v = none) (hu : ∀ w, u ≠ .var w) :
    s.skeleton (.var v) ≠ s.skeleton u := by
  have hvar : s.skeleton (.var v) = .var (s.root v) := by
    rw [skeleton, resolve_var_of_unbound hv, Ty.erased]
  intro h
  rw [hvar] at h
  cases u with
  | var w => exact hu w rfl
  | named constr ts =>
    rw [skeleton_named] at h
    cases h
  | fn d c =>
    rw [skeleton_fn] at h
    cases h

theorem rootIndex_eq_of_skeleton_eq (hv : s.lookup v = none) (hw : s.lookup w = none)
    (h : s.skeleton (.var v) = s.skeleton (.var w)) : s.rootIndex v = s.rootIndex w := by
  rw [skeleton, skeleton, resolve_var_of_unbound hv, resolve_var_of_unbound hw] at h
  exact congrArg Var.index (Ty.var.inj h)

theorem skeleton_ne_of_clash (h : t.Clash u) : s.skeleton t ≠ s.skeleton u := by
  induction t, u, h using Ty.Clash.induction with
  | named m ts n us h =>
    rw [skeleton_named, skeleton_named]
    exact fun he => h (Ty.named.inj he).1
  | namedFn m ts d c => rw [skeleton_named, skeleton_fn]; exact Ty.noConfusion
  | fnNamed d c n us => rw [skeleton_named, skeleton_fn]; exact Ty.noConfusion

/-- The run on types of one skeleton changes nothing. If they also resolve to the same, so does the type
that it gives. -/
theorem Unifies.of_skeleton_eq (h : Unifies s t u r s') (hs : s.Valid)
    (he : s.skeleton t = s.skeleton u) :
    s' = s ∧ ∃ x, r = .unified x ∧ (s.resolve t = s.resolve u → s.resolve x = s.resolve t) := by
  induction h with
  | chaseLeft hv _ ih =>
    rw [hs.skeleton_of_bound hv] at he
    rw [hs.resolve_var_of_bound hv]
    exact ih hs he
  | chaseRight _ hw _ ih =>
    rw [hs.skeleton_of_bound hw] at he
    rw [hs.resolve_var_of_bound hw]
    exact ih hs he
  | same _ _ _ => exact ⟨rfl, _, rfl, fun _ => rfl⟩
  | link hv hw hne => exact absurd (rootIndex_eq_of_skeleton_eq hv hw he) hne
  | bindLeft hv hu _ => exact absurd he (skeleton_ne_of_unbound hv hu)
  | bindRight hw ht _ => exact absurd he.symm (skeleton_ne_of_unbound hw ht)
  | circularLeft hv hu _ => exact absurd he (skeleton_ne_of_unbound hv hu)
  | circularRight hw ht _ => exact absurd he.symm (skeleton_ne_of_unbound hw ht)
  | named => exact ⟨rfl, _, rfl, fun _ => rfl⟩
  | clash h => exact absurd he (skeleton_ne_of_clash h)
  | fn _ _ ihd ihc =>
    rw [skeleton_fn, skeleton_fn] at he
    obtain ⟨hd, hc⟩ := Ty.fn.inj he
    -- the domains leave the substitution as it was, so the codomains have one skeleton still
    obtain ⟨rfl, x, hx, hdomain⟩ := ihd hs hd.symm
    obtain ⟨rfl, y, hy, hcodomain⟩ := ihc hs hc
    cases hx
    cases hy
    refine ⟨rfl, _, rfl, fun hresolve => ?_⟩
    rw [resolve_fn, resolve_fn] at hresolve
    obtain ⟨hrd, hrc⟩ := Ty.fn.inj hresolve
    rw [resolve_fn, resolve_fn, hdomain hrd.symm, hcodomain hrc, hrd]
  | fnDomain _ hr ihd =>
    rw [skeleton_fn, skeleton_fn] at he
    obtain ⟨-, x, rfl, -⟩ := ihd hs (Ty.fn.inj he).1.symm
    cases hr
  | fnCodomain _ _ hr ihd ihc =>
    rw [skeleton_fn, skeleton_fn] at he
    obtain ⟨hd, hc⟩ := Ty.fn.inj he
    obtain ⟨rfl, -, -, -⟩ := ihd hs hd.symm
    obtain ⟨-, x, rfl, -⟩ := ihc hs hc
    cases hr

theorem Valid.unify_of_skeleton_eq (hs : s.Valid) (ht : t.Over s) (hu : u.Over s)
    (he : s.skeleton t = s.skeleton u) :
    ∃ x, s.unify t u = (.unified x, s) ∧ (s.resolve t = s.resolve u → s.resolve x = s.resolve t) := by
  obtain ⟨hsubst, x, hx, hresolve⟩ := (hs.unify_run ht hu).of_skeleton_eq hs he
  exact ⟨x, Prod.ext hx hsubst, hresolve⟩

/-- A success that left classes and bindings alone made nothing equal that was not. -/
theorem Valid.skeleton_eq_of_alike (hs : s.Valid) (ht : t.Over s) (hu : u.Over s)
    (hx : (s.unify t u).1 = .unified x) (ha : s.Alike (s.unify t u).2) :
    s.skeleton t = s.skeleton u := by
  have hrun := hs.unify_run ht hu
  have hadv := hrun.advances hs ht hu
  exact ha.symm.skeleton_eq hadv.valid hs (ha.over ht) (ha.over hu) (hrun.skeleton_eq hs ht hu hx).1

/-- Unification succeeds without a change of classes or bindings exactly on types of one skeleton, and then
the substitution is the same altogether. So a type unifies with itself, to a type that resolves to the
same; and what was unified once can be unified again, at once or later, to no effect. -/
theorem unify_unchanged_iff (hs : Reachable s) (ht : t.Over s) (hu : u.Over s) :
    ((∃ x, (s.unify t u).1 = .unified x) ∧ s.Alike (s.unify t u).2 ↔ s.skeleton t = s.skeleton u) ∧
    (s.skeleton t = s.skeleton u → (s.unify t u).2 = s) ∧
    (∃ x, s.unify t t = (.unified x, s) ∧ s.resolve x = s.resolve t) ∧
    ∀ x s' s'', s.unify t u = (.unified x, s') → Evolves s' s'' →
      ∃ y, s''.unify t u = (.unified y, s'') := by
  have hsame (he : s.skeleton t = s.skeleton u) := hs.valid.unify_of_skeleton_eq ht hu he
  refine ⟨⟨?_, fun he => ?_⟩, fun he => ?_, ?_, ?_⟩
  · rintro ⟨⟨x, hx⟩, ha⟩
    exact hs.valid.skeleton_eq_of_alike ht hu hx ha
  · obtain ⟨x, hx, -⟩ := hsame he
    rw [hx]
    exact ⟨⟨x, rfl⟩, .refl s⟩
  · obtain ⟨x, hx, -⟩ := hsame he
    rw [hx]
  · obtain ⟨x, hx, hresolve⟩ := hs.valid.unify_of_skeleton_eq ht ht rfl
    exact ⟨x, hx, hresolve rfl⟩
  · intro x s' s'' h hlater
    have hrun := hs.valid.unify_run ht hu
    rw [h] at hrun
    have hadv := hrun.advances hs.valid ht hu
    obtain ⟨hs'', hgrows⟩ := hlater.spec hadv.valid
    have ht' := hadv.grows.over ht
    have hu' := hadv.grows.over hu
    have he := (hrun.skeleton_eq hs.valid ht hu rfl).1
    obtain ⟨y, hy, -⟩ := hs''.unify_of_skeleton_eq (hgrows.over ht') (hgrows.over hu')
      (hgrows.skeleton_eq hadv.valid hs'' ht' hu' he)
    exact ⟨y, hy⟩

/-- `?t0 -> Int` is unified with `?t1 -> ?t2`, which merges a class and binds another. Behind it `?t0 -> ?t2`
and `?t1 -> Int` have one skeleton; and with a new variable made, the first two types unify again. -/
theorem unify_unchanged_linked :
    let s := (fresh {}).2.fresh.2.fresh.2
    let t := Ty.fn (.var ⟨0, "?t0"⟩) (.constant "Int")
    let u := Ty.fn (.var ⟨1, "?t1"⟩) (.var ⟨2, "?t2"⟩)
    let s' := (s.unify t u).2
    let t' := Ty.fn (.var ⟨0, "?t0"⟩) (.var ⟨2, "?t2"⟩)
    let u' := Ty.fn (.var ⟨1, "?t1"⟩) (.constant "Int")
    Reachable s ∧ t.Over s ∧ u.Over s ∧ s.skeleton t ≠ s.skeleton u ∧ ¬ s.Alike s' ∧
      (∃ y, s'.fresh.2.unify t u = (.unified y, s'.fresh.2)) ∧
      Reachable s' ∧ t'.Over s' ∧ u'.Over s' ∧ s'.skeleton t' = s'.skeleton u' ∧
      s'.Alike (s'.unify t' u').2 ∧ (s'.unify t' u').2 = s' ∧
      ∃ x, s'.unify t' t' = (.unified x, s') ∧ s'.resolve x = s'.resolve t' := by
  intro s t u s' t' u'
  have hs : Reachable s := ((Relation.ReflTransGen.single .fresh).tail .fresh).tail .fresh
  have ht : t.Over s := by decide
  have hu : u.Over s := by decide
  have hx : (s.unify t u).1 = .unified (.fn (.var ⟨0, "?t0"⟩) (.constant "Int")) := by decide +kernel
  have hne : s.skeleton t ≠ s.skeleton u := by decide +kernel
  obtain ⟨hiff, -, -, hagain⟩ := unify_unchanged_iff hs ht hu
  have hchanged : ¬ s.Alike s' := fun ha => hne (hiff.mp ⟨⟨_, hx⟩, ha⟩)
  have hs' : Reachable s' := hs.tail (.unify ht hu)
  have ht' : t'.Over s' := by decide +kernel
  have hu' : u'.Over s' := by decide +kernel
  have he : s'.skeleton t' = s'.skeleton u' := by decide +kernel
  obtain ⟨hiff', hsubst, hself, -⟩ := unify_unchanged_iff hs' ht' hu'
  exact ⟨hs, ht, hu, hne, hchanged, hagain _ s' _ (Prod.ext hx rfl) (.single .fresh), hs', ht', hu', he,
    (hiff'.mpr he).2, hsubst he, hself⟩

end Clausal.Substitution
