import Clausal.Proofs.Substitution.Names

/-!
# Variables that are kept out of unification

Some classes of variables are to be left alone: they are not bound, not merged, and occur in no type
that becomes known about other variables. It suffices to hand no type to the unifier in which such a
variable is left when it is resolved. New variables are never among them, so a copy made by
`instantiate` can be unified with anything, and what it was copied from stays as it is.
-/
namespace Clausal

/-- No variable with one of these indices is left when the type is resolved. -/
def Ty.Avoids (kept : Set Nat) (t : Ty) (s : Substitution) : Prop :=
  ∀ v ∈ (s.resolve t).occurrences, v.index ∉ kept

/-- The substitution made all variables of the type, and none of those kept is left in it. -/
structure Ty.Within (kept : Set Nat) (t : Ty) (s : Substitution) : Prop where
  known : t.Over s
  avoids : t.Avoids kept s

namespace Substitution

/-- The classes with these representatives are the same before and behind, are bound to the same, and
get into no type that they were not in. -/
structure Spares (kept : Set Nat) (s s' : Substitution) : Prop where
  rootIndex_eq : ∀ v, s.rootIndex v ∈ kept ∨ s'.rootIndex v ∈ kept → s'.rootIndex v = s.rootIndex v
  lookup_eq : ∀ v, s.rootIndex v ∈ kept → s'.lookup v = s.lookup v
  within : ∀ t : Ty, t.Within kept s → t.Within kept s'

variable {kept : Set Nat} {s s' s'' : Substitution} {v w : Var} {t u d c : Ty} {r : Unification}

theorem Spares.refl (kept : Set Nat) (s : Substitution) : Spares kept s s :=
  ⟨fun _ _ => rfl, fun _ _ => rfl, fun _ h => h⟩

theorem Spares.rootIndex_mem_iff (h : Spares kept s s') :
    s'.rootIndex v ∈ kept ↔ s.rootIndex v ∈ kept := by
  constructor
  · intro hv
    rw [← h.rootIndex_eq v (.inr hv)]
    exact hv
  · intro hv
    rw [h.rootIndex_eq v (.inl hv)]
    exact hv

theorem Spares.trans (h : Spares kept s s') (h' : Spares kept s' s'') : Spares kept s s'' where
  rootIndex_eq v hv := by
    have hmid : s'.rootIndex v ∈ kept := hv.elim h.rootIndex_mem_iff.mpr h'.rootIndex_mem_iff.mp
    exact (h'.rootIndex_eq v (.inl hmid)).trans (h.rootIndex_eq v (.inr hmid))
  lookup_eq v hv := (h'.lookup_eq v (h.rootIndex_mem_iff.mpr hv)).trans (h.lookup_eq v hv)
  within t ht := h'.within t (h.within t ht)

/-! ## Types without the kept variables -/

theorem avoids_of_unbound (h : s.lookup v = none) :
    (Ty.var v).Avoids kept s ↔ s.rootIndex v ∉ kept := by
  rw [Ty.Avoids, resolve_var_of_unbound h]
  simp only [Ty.mem_occurrences_var, forall_eq]
  rfl

theorem Valid.avoids_of_bound (hs : s.Valid) (h : s.lookup v = some t) :
    (Ty.var v).Avoids kept s ↔ t.Avoids kept s := by
  rw [Ty.Avoids, hs.resolve_var_of_bound h, Ty.Avoids]

theorem avoids_iff : t.Avoids kept s ↔ ∀ v ∈ t.occurrences, (Ty.var v).Avoids kept s := by
  rw [Ty.Avoids, resolve_eq_bindVars]
  simp only [Ty.mem_occurrences_bindVars, forall_exists_index, and_imp]
  exact ⟨fun h v hv w hw => h w v hv hw, fun h w v hv hw => h v hv w hw⟩

theorem within_var : (Ty.var v).Within kept s ↔ s.Has v ∧ (Ty.var v).Avoids kept s :=
  ⟨fun h => ⟨over_var.mp h.known, h.avoids⟩, fun h => ⟨over_var.mpr h.1, h.2⟩⟩

theorem within_iff : t.Within kept s ↔ ∀ v ∈ t.occurrences, (Ty.var v).Within kept s :=
  ⟨fun h v hv => within_var.mpr ⟨h.known v hv, avoids_iff.mp h.avoids v hv⟩,
    fun h => ⟨fun v hv => over_var.mp (h v hv).known, avoids_iff.mpr fun v hv => (h v hv).avoids⟩⟩

theorem within_fn : (Ty.fn d c).Within kept s ↔ d.Within kept s ∧ c.Within kept s := by
  rw [within_iff, within_iff (t := d), within_iff (t := c)]
  simp only [Ty.mem_occurrences_fn, or_imp, forall_and]

theorem within_named {constr : String} {ts : List Ty} :
    (Ty.named constr ts).Within kept s ↔ ∀ t ∈ ts, t.Within kept s := by
  rw [within_iff]
  simp only [Ty.mem_occurrences_named, forall_exists_index, and_imp]
  exact ⟨fun h t ht => within_iff.mpr fun v hv => h v t ht hv,
    fun h v t ht hv => within_iff.mp (h t ht) v hv⟩

theorem within_bindVars {f : Var → Ty} (h : ∀ v ∈ t.occurrences, (f v).Within kept s) :
    (t.bindVars f).Within kept s := by
  refine within_iff.mpr fun w hw => ?_
  obtain ⟨v, hv, hw⟩ := Ty.mem_occurrences_bindVars.mp hw
  exact within_iff.mp (h v hv) w hw

theorem within_curried {params : List Ty} (hparams : ∀ p ∈ params, p.Within kept s)
    (hu : u.Within kept s) : (Ty.curried params u).Within kept s := by
  induction params with
  | nil => exact hu
  | cons p params ih =>
    rw [Ty.curried, List.foldr_cons, within_fn]
    exact ⟨hparams p List.mem_cons_self, ih fun q hq => hparams q (List.mem_cons_of_mem p hq)⟩

/-- With nothing to keep, it is enough that the variables are known. -/
theorem within_empty : t.Within ∅ s ↔ t.Over s :=
  ⟨Ty.Within.known, fun h => ⟨h, fun _ _ => Set.notMem_empty _⟩⟩

theorem Valid.within_of_bound (hs : s.Valid) (h : s.lookup v = some t)
    (hv : (Ty.var v).Within kept s) : t.Within kept s :=
  ⟨hs.bound_over v t h, (hs.avoids_of_bound h).mp hv.avoids⟩

theorem Valid.within_resolve (hs : s.Valid) (ht : t.Within kept s) : (s.resolve t).Within kept s where
  known := hs.over_resolve ht.known
  avoids := by
    rw [Ty.Avoids, hs.resolve_resolve ht.known]
    exact ht.avoids

/-! ## Elementary steps -/

/-- It is enough to look at the variables that were unbound and are not kept. -/
theorem Grows.spares (h : s.Grows s') (hs : s.Valid) (hs' : s'.Valid)
    (hroot : ∀ v, s.rootIndex v ∈ kept ∨ s'.rootIndex v ∈ kept → s'.rootIndex v = s.rootIndex v)
    (hlookup : ∀ v, s.rootIndex v ∈ kept → s'.lookup v = s.lookup v)
    (hvar : ∀ v, s.lookup v = none → s.rootIndex v ∉ kept → (Ty.var v).Avoids kept s') :
    Spares kept s s' where
  rootIndex_eq := hroot
  lookup_eq := hlookup
  within t ht := by
    refine ⟨h.over ht.known, fun w hw => ?_⟩
    rw [← h.resolve_resolve hs hs' ht.known, resolve_eq_bindVars] at hw
    obtain ⟨v, hv, hw⟩ := Ty.mem_occurrences_bindVars.mp hw
    obtain ⟨-, hnone, hself⟩ := hs.mem_resolve ht.known hv
    have hindex : s.rootIndex v = v.index := congrArg Var.index hself
    exact hvar v hnone (hindex ▸ ht.avoids v hv) w hw

theorem Valid.spares_fresh (hs : s.Valid) : Spares kept s s.fresh.2 := by
  refine grows_fresh.spares hs hs.fresh (fun _ _ => rootIndex_fresh) (fun _ _ => lookup_fresh) ?_
  intro v hnone hv
  rw [avoids_of_unbound (lookup_fresh.trans hnone), rootIndex_fresh]
  exact hv

theorem within_fresh (hkept : ∀ i ∈ kept, i < s.size) : s.fresh.1.Within kept s.fresh.2 := by
  have hnew : ¬ s.Has ⟨s.size, freshName s.freshCount⟩ := Nat.lt_irrefl s.size
  have hnone : s.lookup ⟨s.size, freshName s.freshCount⟩ = none :=
    Option.eq_none_iff_forall_ne_some.mpr fun b hb => hnew (has_of_lookup hb)
  refine ⟨over_fresh, (avoids_of_unbound (lookup_fresh.trans hnone)).mpr ?_⟩
  rw [rootIndex_fresh, rootIndex_of_not_has hnew]
  exact fun hmem => Nat.lt_irrefl _ (hkept _ hmem)

theorem Valid.spares_link (hs : s.Valid) (hv : (Ty.var v).Within kept s) (hw : (Ty.var w).Within kept s)
    (hvn : s.lookup v = none) (hwn : s.lookup w = none) : Spares kept s (s.link v w) := by
  have hvs := over_var.mp hv.known
  have hws := over_var.mp hw.known
  have hvk := (avoids_of_unbound hvn).mp hv.avoids
  have hwk := (avoids_of_unbound hwn).mp hw.avoids
  have hlookup := hs.lookup_link hvs hws hvn hwn
  obtain ⟨r, hr, hroot⟩ := exists_rootIndex_link (hs.root_lt v hvs) (hs.root_lt w hws)
  have hrk : r ∉ kept := by rcases hr with rfl | rfl <;> assumption
  refine (grows_link hs hvs hws hvn hwn).spares hs (hs.link hvs hws hvn hwn) ?_
    (fun x _ => hlookup x) ?_
  · intro x hx
    rw [hroot] at hx ⊢
    split_ifs at hx ⊢ with hmerged
    · rcases hx with hx | hx
      · rcases hmerged with he | he <;> rw [he] at hx <;> contradiction
      · contradiction
    · rfl
  · intro x hnone hx
    rw [avoids_of_unbound ((hlookup x).trans hnone), hroot]
    split_ifs
    · exact hrk
    · exact hx

theorem Valid.spares_bind (hs : s.Valid) (hv : (Ty.var v).Within kept s) (hvn : s.lookup v = none)
    (ht : t.Within kept s) (hnv : ∀ w, t ≠ .var w) (ho : ¬ s.occurs v t = true) :
    Spares kept s (s.bind v t) := by
  have hvs := over_var.mp hv.known
  have hvk := (avoids_of_unbound hvn).mp hv.avoids
  have hgrows := grows_bind (t := t) hs hvs hvn
  have hs' := hs.bind hvs hvn ht.known hnv ho
  have hlookup := fun x => lookup_bind (w := x) (t := t) (hs.root_lt v hvs)
  have hother {x : Var} (hnone : s.lookup x = none) (hx : s.rootIndex x ∉ kept)
      (hne : s.rootIndex x ≠ s.rootIndex v) : (Ty.var x).Avoids kept (s.bind v t) := by
    rw [avoids_of_unbound, rootIndex_bind]
    · exact hx
    · rw [hlookup, if_neg hne, hnone]
  refine hgrows.spares hs hs' (fun _ _ => rootIndex_bind) (fun x hx => ?_) fun x hnone hx => ?_
  · rw [hlookup, if_neg]
    intro he
    exact hvk (he ▸ hx)
  · by_cases hne : s.rootIndex x = s.rootIndex v
    · -- what is left in the type is not in the class that is bound to it
      rw [hs'.avoids_of_bound (t := t) (by rw [hlookup, if_pos hne]), Ty.Avoids,
        ← hgrows.resolve_resolve hs hs' ht.known]
      refine avoids_iff.mpr fun y hy => ?_
      obtain ⟨-, hynone, hyself⟩ := hs.mem_resolve ht.known hy
      have hindex : s.rootIndex y = y.index := congrArg Var.index hyself
      refine hother hynone (hindex ▸ ht.avoids y hy) fun he => ho ?_
      rw [hs.occurs_iff ht.known, root_congr he.symm, hyself]
      exact ⟨hvn, hy⟩
    · exact hother hnone hx hne

/-! ## Unification and copies -/

/-- A run of the unifier on types without the kept variables keeps these apart from everything, and
gives a type without them. -/
theorem Unifies.spares (h : Unifies s t u r s') (hs : s.Valid) (ht : t.Within kept s)
    (hu : u.Within kept s) : Spares kept s s' ∧ ∀ x, r = .unified x → x.Within kept s' := by
  have refl (s : Substitution) := Spares.refl kept s
  induction h with
  | chaseLeft hv _ ih => exact ih hs (hs.within_of_bound hv ht) hu
  | chaseRight _ hw _ ih => exact ih hs ht (hs.within_of_bound hw hu)
  | same _ _ _ => exact ⟨refl _, fun x hx => by cases hx; exact ht⟩
  | link hv hw _ =>
    have h := hs.spares_link ht hu hv hw
    exact ⟨h, fun x hx => by cases hx; exact h.within _ hu⟩
  | bindLeft hv hnv ho =>
    have h := hs.spares_bind ht hv hu hnv (by simp [ho])
    exact ⟨h, fun x hx => by cases hx; exact h.within _ hu⟩
  | bindRight hw hnv ho =>
    have h := hs.spares_bind hu hw ht hnv (by simp [ho])
    exact ⟨h, fun x hx => by cases hx; exact h.within _ ht⟩
  | circularLeft _ _ _ => exact ⟨refl _, fun x hx => by cases hx⟩
  | circularRight _ _ _ => exact ⟨refl _, fun x hx => by cases hx⟩
  | named => exact ⟨refl _, fun x hx => by cases hx; exact ht⟩
  | clash _ => exact ⟨refl _, fun x hx => by cases hx⟩
  | fn hd _ ihd ihc =>
    obtain ⟨hdt, hct⟩ := within_fn.mp ht
    obtain ⟨hdu, hcu⟩ := within_fn.mp hu
    obtain ⟨hspares₁, hx₁⟩ := ihd hs hdu hdt
    have hs₁ := (hd.advances hs hdu.known hdt.known).valid
    obtain ⟨hspares₂, hx₂⟩ := ihc hs₁ (hspares₁.within _ hct) (hspares₁.within _ hcu)
    refine ⟨hspares₁.trans hspares₂, fun x hx => ?_⟩
    cases hx
    exact within_fn.mpr ⟨hspares₂.within _ (hx₁ _ rfl), hx₂ _ rfl⟩
  | fnDomain _ _ ihd => exact ihd hs (within_fn.mp hu).1 (within_fn.mp ht).1
  | fnCodomain hd _ _ ihd ihc =>
    obtain ⟨hdt, hct⟩ := within_fn.mp ht
    obtain ⟨hdu, hcu⟩ := within_fn.mp hu
    obtain ⟨hspares₁, -⟩ := ihd hs hdu hdt
    have hs₁ := (hd.advances hs hdu.known hdt.known).valid
    obtain ⟨hspares₂, hx₂⟩ := ihc hs₁ (hspares₁.within _ hct) (hspares₁.within _ hcu)
    exact ⟨hspares₁.trans hspares₂, hx₂⟩

theorem Valid.spares_freshFor (vs : List Var) (hs : s.Valid) : Spares kept s (s.freshFor vs).2 := by
  induction vs generalizing s with
  | nil => exact .refl kept s
  | cons v vs ih => exact hs.spares_fresh.trans (ih hs.fresh)

theorem Valid.within_freshFor (vs : List Var) (hs : s.Valid) (hkept : ∀ i ∈ kept, i < s.size) :
    ∀ copy ∈ (s.freshFor vs).1, copy.2.Within kept (s.freshFor vs).2 := by
  induction vs generalizing s with
  | nil =>
    intro copy hc
    cases hc
  | cons v vs ih =>
    intro copy hc
    rcases List.mem_cons.mp hc with rfl | hc
    · exact (hs.fresh.spares_freshFor vs).within _ (within_fresh hkept)
    · exact ih hs.fresh (fun i hi => Nat.lt_of_lt_of_le (hkept i hi) grows_fresh.size_le) copy hc

theorem lookup_freshFor_isSome {vs : List Var} (h : v ∈ vs) :
    ((s.freshFor vs).1.lookup v).isSome = true := by
  induction vs generalizing s with
  | nil => cases h
  | cons w vs ih =>
    rw [freshFor, List.lookup_cons]
    split
    · rfl
    · next hne =>
      refine ih ((List.mem_cons.mp h).resolve_left fun he => ?_)
      rw [he, beq_self_eq_true] at hne
      cases hne

/-- A copy has new variables in the place of all that were left, so it has none that is kept, whatever
was in the type. -/
theorem Valid.within_instantiate (hs : s.Valid) (hkept : ∀ i ∈ kept, i < s.size) :
    (s.instantiate t).1.Within kept (s.instantiate t).2 := by
  refine within_bindVars fun v hv => ?_
  have hmem : v ∈ (s.resolve t).vars := List.mem_eraseDups.mpr hv
  obtain ⟨copy, hcopy⟩ := Option.isSome_iff_exists.mp (lookup_freshFor_isSome (s := s) hmem)
  rw [hcopy]
  exact hs.within_freshFor _ hkept (v, copy) (mem_of_lookup hcopy)

theorem Evolves.spares_empty (h : Evolves s s') (hs : s.Valid) : Spares ∅ s s' where
  rootIndex_eq _ hv := hv.elim (absurd · (Set.notMem_empty _)) (absurd · (Set.notMem_empty _))
  lookup_eq _ hv := absurd hv (Set.notMem_empty _)
  within _ ht := within_empty.mpr (h.over hs ht.known)

/-! ## What the kept variables are in -/

/-- The variables that are left in a type when it is resolved. -/
def leftIn (s : Substitution) (t : Ty) : Set Nat :=
  { i | ∃ v ∈ (s.resolve t).occurrences, v.index = i }

theorem Valid.leftIn_lt (hs : s.Valid) (ht : t.Over s) : ∀ i ∈ s.leftIn t, i < s.size := by
  rintro _ ⟨v, hv, rfl⟩
  exact hs.over_resolve ht v hv

/-- A type avoids what is left in another one if no variable is left in both. -/
theorem Valid.avoids_leftIn (hs : s.Valid) (ht : t.Over s) (hu : u.Over s)
    (h : ∀ v ∈ (s.resolve t).occurrences, v ∉ (s.resolve u).occurrences) : t.Avoids (s.leftIn u) s := by
  rintro v hv ⟨w, hw, hindex⟩
  have hself : s.root v = v := (hs.mem_resolve ht hv).2.2
  have hself' : s.root w = w := (hs.mem_resolve hu hw).2.2
  have heq : w = v := hself'.symm.trans ((root_congr (rootIndex_congr hindex)).trans hself)
  exact h v hv (heq ▸ hw)

/-- A type in which all variables that are left are kept resolves to the same type behind as before. -/
theorem Spares.resolve_eq (h : Spares kept s s') (he : Evolves s s') (hs : s.Valid) (ht : t.Over s)
    (hkept : ∀ v ∈ (s.resolve t).occurrences, v.index ∈ kept) : s'.resolve t = s.resolve t := by
  obtain ⟨hs', hgrows⟩ := he.spec hs
  rw [← hgrows.resolve_resolve hs hs' ht, resolve_eq_bindVars]
  refine Ty.bindVars_eq_self fun v hv => ?_
  obtain ⟨hhas, hnone, hself⟩ := hs.mem_resolve ht hv
  have hindex : s.rootIndex v = v.index := congrArg Var.index hself
  have hmem : s.rootIndex v ∈ kept := hindex ▸ hkept v hv
  have hroot : s'.root v = s.root v := by
    rw [root, root, h.rootIndex_eq v (.inl hmem), he.nameOf_eq (hs.root_lt v hhas)]
  rw [resolve_var_of_unbound ((h.lookup_eq v hmem).trans hnone), hroot, hself]

/-- The class of a kept variable has the same members behind as before. -/
theorem Spares.sameClass_eq (h : Spares kept s s') (hv : s.rootIndex v ∈ kept) (w : Var) :
    s'.sameClass w v = s.sameClass w v := by
  have hroot : s'.rootIndex v = s.rootIndex v := h.rootIndex_eq v (.inl hv)
  rw [Bool.eq_iff_iff, sameClass_iff, sameClass_iff, hroot]
  constructor
  · intro hw
    rw [← h.rootIndex_eq w (.inr (hw ▸ hv))]
    exact hw
  · intro hw
    rw [h.rootIndex_eq w (.inl (hw ▸ hv))]
    exact hw

end Substitution
end Clausal
