import Clausal.Proofs.Unification.Run

/-!
# The steps of the unifier suffice

A call of the unifier goes down through two types at once. Between two changes of the substitution it
gets no deeper than `reach`, which counts the levels of a type, those of the types that its variables
are bound to included; and each change takes one unbound class away. The number of steps that `unify`
allows itself is above the product, so it always answers by a run.
-/
namespace Clausal.Substitution

variable {s s' : Substitution} {v : Var} {t u b d c d' c' : Ty} {r : Unification} {height : Nat → Nat}
  {bound n : Nat}

/-- No class is bound to a type of more nodes than given. -/
def Bounded (s : Substitution) (bound : Nat) : Prop :=
  ∀ v t, s.lookup v = some t → t.size ≤ bound

theorem size_le_weight (h : s.lookup v = some b) : b.size ≤ s.weight := by
  obtain ⟨cell, hcell, hb⟩ := Option.bind_eq_some_iff.mp h
  have hweight : s.weight = (s.cells.toList.map fun c => (c.bound.map Ty.size).getD 0).sum := by
    rw [weight, ← Array.foldl_toList, List.sum_eq_foldl, List.foldl_map]
  have hmem : cell ∈ s.cells.toList := Array.mem_toList_iff.mpr (Array.mem_of_getElem? hcell)
  rw [hweight]
  refine List.le_sum_of_mem (List.mem_map.mpr ⟨cell, hmem, ?_⟩)
  rw [hb]
  rfl

/-- Two types that the unifier can be called with, where no type at hand has more nodes than
given. -/
structure Admits (bound : Nat) (s : Substitution) (t u : Ty) : Prop where
  valid : s.Valid
  over_left : t.Over s
  over_right : u.Over s
  bounded : s.Bounded bound
  left_le : t.size ≤ bound
  right_le : u.size ≤ bound

theorem Admits.chaseLeft (h : Admits bound s (.var v) u) (hv : s.lookup v = some b) :
    Admits bound s b u :=
  { h with over_left := h.valid.bound_over v b hv, left_le := h.bounded v b hv }

theorem Admits.chaseRight (h : Admits bound s t (.var v)) (hv : s.lookup v = some b) :
    Admits bound s t b :=
  { h with over_right := h.valid.bound_over v b hv, right_le := h.bounded v b hv }

theorem Admits.domain (h : Admits bound s (.fn d c) (.fn d' c')) : Admits bound s d' d := by
  have ht := h.left_le
  have hu := h.right_le
  rw [Ty.size_fn] at ht hu
  exact { h with
    over_left := (over_fn.mp h.over_right).1
    over_right := (over_fn.mp h.over_left).1
    left_le := by omega
    right_le := by omega }

theorem Admits.codomain (h : Admits bound s (.fn d c) (.fn d' c')) (hd : Unifies s d' d r s')
    (hb : s'.Bounded bound) : Admits bound s' c c' := by
  have ht := h.left_le
  have hu := h.right_le
  rw [Ty.size_fn] at ht hu
  have h₁ := hd.advances h.valid h.domain.over_left h.domain.over_right
  exact {
    valid := h₁.valid
    over_left := h₁.grows.over (over_fn.mp h.over_left).2
    over_right := h₁.grows.over (over_fn.mp h.over_right).2
    bounded := hb
    left_le := by omega
    right_le := by omega }

theorem Unifies.bounded (h : Unifies s t u r s') (ha : Admits bound s t u) : s'.Bounded bound := by
  induction h with
  | chaseLeft hv _ ih => exact ih (ha.chaseLeft hv)
  | chaseRight _ hw _ ih => exact ih (ha.chaseRight hw)
  | link hv hw _ =>
    intro x y hx
    rw [ha.valid.lookup_link (over_var.mp ha.over_left) (over_var.mp ha.over_right) hv hw] at hx
    exact ha.bounded x y hx
  | bindLeft hv _ _ =>
    intro x y hx
    rw [lookup_bind (ha.valid.root_lt _ (over_var.mp ha.over_left))] at hx
    split_ifs at hx
    · cases hx
      exact ha.right_le
    · exact ha.bounded x y hx
  | bindRight hw _ _ =>
    intro x y hx
    rw [lookup_bind (ha.valid.root_lt _ (over_var.mp ha.over_right))] at hx
    split_ifs at hx
    · cases hx
      exact ha.left_le
    · exact ha.bounded x y hx
  | same _ _ _ => exact ha.bounded
  | circularLeft _ _ _ => exact ha.bounded
  | circularRight _ _ _ => exact ha.bounded
  | named => exact ha.bounded
  | clash _ => exact ha.bounded
  | fn hd _ ihd ihc => exact ihc (ha.codomain hd (ihd ha.domain))
  | fnDomain _ _ ihd => exact ihd ha.domain
  | fnCodomain hd _ _ ihd ihc => exact ihc (ha.codomain hd (ihd ha.domain))

/-! ## How deep a call can get without a change -/

/-- The levels of a type, a variable counted with those of all types below it. -/
def reach (s : Substitution) (height : Nat → Nat) (bound : Nat) : Ty → Nat
  | .var v => (height (s.rootIndex v) + 1) * bound + 1
  | .named _ _ => 1
  | .fn d c => max (s.reach height bound d) (s.reach height bound c) + 1

theorem reach_le {k : Nat} (h : ∀ w ∈ t.occurrences, height (s.rootIndex w) < k) :
    s.reach height bound t ≤ t.size + k * bound := by
  induction t with
  | var v =>
    have hk : height (s.rootIndex v) + 1 ≤ k := h v (Ty.mem_occurrences_var.mpr rfl)
    have := Nat.mul_le_mul_right bound hk
    rw [reach, Ty.size_var]
    omega
  | named constr ts _ =>
    rw [reach, Ty.size_named]
    omega
  | fn d c ihd ihc =>
    have hd := ihd fun w hw => h w (Ty.mem_occurrences_fn.mpr (.inl hw))
    have hc := ihc fun w hw => h w (Ty.mem_occurrences_fn.mpr (.inr hw))
    rw [reach, Ty.size_fn]
    omega

/-- A variable reaches deeper than the type it is bound to. -/
theorem reach_lt_of_lookup (hh : s.Stratified height) (hb : s.Bounded bound)
    (h : s.lookup v = some b) : s.reach height bound b < s.reach height bound (.var v) := by
  have hle : s.reach height bound b ≤ b.size + height (s.rootIndex v) * bound := reach_le (hh v b h)
  have hsize := hb v b h
  have hmul := Nat.add_one_mul (height (s.rootIndex v)) bound
  rw [reach]
  omega

/-- All classes, each bound to the largest type at hand, set on top of one another. -/
def span (s : Substitution) (bound : Nat) : Nat :=
  (s.size + 1) * bound

theorem Valid.reach_le_span (hs : s.Valid) (hlt : ∀ i < s.size, height i < s.size) (ht : t.Over s)
    (hsize : t.size ≤ bound) : s.reach height bound t ≤ s.span bound := by
  have hle : s.reach height bound t ≤ t.size + s.size * bound :=
    reach_le fun w hw => hlt _ (hs.root_lt w (ht w hw))
  rw [span, Nat.add_one_mul]
  omega

/-! ## Steps -/

/-- As many steps as there are levels before each possible change. -/
def Enough (bound n : Nat) (s : Substitution) (t u : Ty) : Prop :=
  ∃ height, s.Stratified height ∧ (∀ i < s.size, height i < s.size) ∧
    s.openClasses.card * (2 * s.span bound + 1) + s.reach height bound t + s.reach height bound u < n

theorem Enough.chaseLeft (h : Enough bound (n + 1) s (.var v) u) (hb : s.Bounded bound)
    (hv : s.lookup v = some b) : Enough bound n s b u := by
  obtain ⟨height, hh, hlt, hn⟩ := h
  have := reach_lt_of_lookup hh hb hv
  exact ⟨height, hh, hlt, by omega⟩

theorem Enough.chaseRight (h : Enough bound (n + 1) s t (.var v)) (hb : s.Bounded bound)
    (hv : s.lookup v = some b) : Enough bound n s t b := by
  obtain ⟨height, hh, hlt, hn⟩ := h
  have := reach_lt_of_lookup hh hb hv
  exact ⟨height, hh, hlt, by omega⟩

theorem Enough.domain (h : Enough bound (n + 1) s (.fn d c) (.fn d' c')) :
    Enough bound n s d' d := by
  obtain ⟨height, hh, hlt, hn⟩ := h
  rw [reach, reach] at hn
  exact ⟨height, hh, hlt, by omega⟩

/-- Where the domains changed the substitution, the codomains may reach deeper than before, but
fewer changes are left. -/
theorem Enough.codomain (h : Enough bound (n + 1) s (.fn d c) (.fn d' c'))
    (h₁ : Advances s r s') (ha : Admits bound s' c c') : Enough bound n s' c c' := by
  obtain ⟨height, hh, hlt, hn⟩ := h
  rw [reach, reach] at hn
  rcases h₁.closes with rfl | hcard
  · exact ⟨height, hh, hlt, by omega⟩
  · obtain ⟨height', hh', hlt'⟩ := ha.valid.exists_height
    have hc := ha.valid.reach_le_span hlt' ha.over_left ha.left_le
    have hc' := ha.valid.reach_le_span hlt' ha.over_right ha.right_le
    have hmul := Nat.mul_le_mul_right (2 * s.span bound + 1) (Nat.succ_le_of_lt hcard)
    rw [Nat.add_one_mul] at hmul
    refine ⟨height', hh', hlt', ?_⟩
    have hspan : s'.span bound = s.span bound := by rw [span, span, h₁.size_eq]
    rw [hspan] at hc hc' ⊢
    omega

theorem isSome_unifyWithin (ha : Admits bound s t u) (hn : Enough bound n s t u) :
    (unifyWithin n t u s).isSome := by
  fun_induction unifyWithin n t u s with
  | case1 =>
    obtain ⟨_, _, _, hn⟩ := hn
    exact absurd hn (Nat.not_lt_zero _)
  | case2 n v w s b hv ih => exact ih (ha.chaseLeft hv) (hn.chaseLeft ha.bounded hv)
  | case3 n v w s _ b hw ih => exact ih (ha.chaseRight hw) (hn.chaseRight ha.bounded hw)
  | case6 n v t s _ b hv ih => exact ih (ha.chaseLeft hv) (hn.chaseLeft ha.bounded hv)
  | case8 n t w s _ b hw ih => exact ih (ha.chaseRight hw) (hn.chaseRight ha.bounded hw)
  | case13 n d c d' c' s domain s₁ hd _ _ ih =>
    have hrun := unifies_of_unifyWithin hd
    have h₁ := hrun.advances ha.valid ha.domain.over_left ha.domain.over_right
    have ha₁ := ha.codomain hrun (hrun.bounded ha.domain)
    exact ih ha₁ (hn.codomain h₁ ha₁)
  | case14 n d c d' c' s _ ih => exact ih ha.domain hn.domain
  | case4 => rfl
  | case5 => rfl
  | case7 => rfl
  | case9 => rfl
  | case10 => rfl
  | case11 => rfl
  | case12 => rfl
  | case15 => rfl

/-- The number of steps `unify` allows itself is enough. -/
theorem Valid.enough_steps (hs : s.Valid) (ht : t.Over s) (hu : u.Over s) :
    Enough (t.size + u.size + s.weight + 1) (s.steps t u) s t u := by
  obtain ⟨height, hh, hlt⟩ := hs.exists_height
  refine ⟨height, hh, hlt, ?_⟩
  have hcard : s.openClasses.card ≤ s.size :=
    (Finset.card_filter_le _ _).trans_eq (Finset.card_range _)
  generalize hbound : t.size + u.size + s.weight + 1 = bound
  have hsteps : s.steps t u = (s.size + 1) * (2 * s.span bound + 1) + 1 := by
    rw [← hbound]
    rfl
  have hmul := Nat.mul_le_mul_right (2 * s.span bound + 1) hcard
  have htr : s.reach height bound t ≤ s.span bound := hs.reach_le_span hlt ht (by omega)
  have hur : s.reach height bound u ≤ s.span bound := hs.reach_le_span hlt hu (by omega)
  rw [hsteps, Nat.add_one_mul s.size]
  omega

/-- `unify` never gives up. -/
theorem Valid.unifyWithin_steps (hs : s.Valid) (ht : t.Over s) (hu : u.Over s) :
    unifyWithin (s.steps t u) t u s = some (s.unify t u) := by
  have ha : Admits (t.size + u.size + s.weight + 1) s t u := {
    valid := hs
    over_left := ht
    over_right := hu
    bounded := fun v b hv => by have := size_le_weight hv; omega
    left_le := by omega
    right_le := by omega }
  obtain ⟨answer, h⟩ :=
    Option.isSome_iff_exists.mp (isSome_unifyWithin ha (hs.enough_steps ht hu))
  rw [unify, h, Option.getD_some]

/-- The answer of `unify` is that of a run. -/
theorem Valid.unify_run (hs : s.Valid) (ht : t.Over s) (hu : u.Over s) :
    Unifies s t u (s.unify t u).1 (s.unify t u).2 :=
  unifies_of_unifyWithin (hs.unifyWithin_steps ht hu)

end Clausal.Substitution
