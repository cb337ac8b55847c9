import Clausal.Proofs.Substitution.Classes
import Clausal.Proofs.Ty.Traversal
import Mathlib.Data.Finset.Card
import Mathlib.Order.Interval.Finset.Nat

/-!
# Substitutions without a circle

The invariant that all substitutions keep: representatives stand for themselves, classes are bound
to types that are no variables, and bindings descend. Under it the number of hops that `resolve` and
`occurs` are allowed is never used up, so both satisfy the equations of an unbounded walk, and types
can be taken apart by an induction that goes through bindings.
-/
namespace Clausal

namespace Substitution

/-- A class is higher than every class that occurs in the type it is bound to. -/
def Stratified (s : Substitution) (height : Nat → Nat) : Prop :=
  ∀ v t, s.lookup v = some t → ∀ w ∈ t.occurrences, height (s.rootIndex w) < height (s.rootIndex v)

structure Valid (s : Substitution) : Prop where
  root_lt : ∀ v, s.Has v → s.rootIndex v < s.size
  root_root : ∀ v, s.rootIndex (s.root v) = s.rootIndex v
  bound_over : ∀ v t, s.lookup v = some t → t.Over s
  bound_not_var : ∀ v t, s.lookup v = some t → ∀ w, t ≠ .var w
  acyclic : ∃ height, s.Stratified height

variable {s : Substitution} {v w : Var} {t u d c : Ty} {height : Nat → Nat}

theorem valid_empty : Valid {} where
  root_lt v h := absurd h (Nat.not_lt_zero _)
  root_root v := rfl
  bound_over v t h := by cases h
  bound_not_var v t h := by cases h
  acyclic := ⟨fun _ => 0, fun v t h => by cases h⟩

theorem Valid.has_root (hs : s.Valid) (hv : s.Has v) : s.Has (s.root v) :=
  hs.root_lt v hv

theorem Valid.rootIndex_of_index (hs : s.Valid) (h : w.index = s.rootIndex v) :
    s.rootIndex w = s.rootIndex v :=
  (rootIndex_congr h).trans (hs.root_root v)

theorem Valid.lookup_root (hs : s.Valid) (v : Var) : s.lookup (s.root v) = s.lookup v :=
  lookup_congr (hs.root_root v)

/-! ## Heights -/

/-- Heights can be chosen below the number of variables: the height of a class becomes the number of
indices of lesser height. -/
theorem Stratified.exists_lt (h : s.Stratified height) (hs : s.Valid) :
    ∃ height', s.Stratified height' ∧ ∀ i < s.size, height' i < s.size := by
  let below (i : Nat) : Finset Nat := (Finset.range s.size).filter fun j => height j < height i
  refine ⟨fun i => (below i).card, ?_, ?_⟩
  · intro v t hv w hw
    have hlt := h v t hv w hw
    have hroot : s.rootIndex w < s.size := hs.root_lt w (hs.bound_over v t hv w hw)
    apply Finset.card_lt_card
    constructor
    · intro j hj
      simp only [below, Finset.mem_filter] at hj ⊢
      exact ⟨hj.1, hj.2.trans hlt⟩
    · intro hsub
      have hmem : s.rootIndex w ∈ below (s.rootIndex v) := by
        simp only [below, Finset.mem_filter, Finset.mem_range]
        exact ⟨hroot, hlt⟩
      have := hsub hmem
      simp only [below, Finset.mem_filter, lt_self_iff_false, and_false] at this
  · intro i hi
    have hsub : below i ⊂ Finset.range s.size := by
      refine Finset.ssubset_iff_subset_ne.mpr ⟨Finset.filter_subset _ _, fun he => ?_⟩
      have : i ∈ below i := he ▸ Finset.mem_range.mpr hi
      simp [below] at this
    calc (below i).card < (Finset.range s.size).card := Finset.card_lt_card hsub
      _ = s.size := Finset.card_range _

theorem Valid.exists_height (hs : s.Valid) :
    ∃ height, s.Stratified height ∧ ∀ i < s.size, height i < s.size := by
  obtain ⟨height, h⟩ := hs.acyclic
  exact h.exists_lt hs

/-- The first class occurs in the type that the second one is bound to. -/
def Under (s : Substitution) (inner outer : Nat) : Prop :=
  ∃ v t w, s.lookup v = some t ∧ s.rootIndex v = outer ∧ w ∈ t.occurrences ∧ s.rootIndex w = inner

theorem Valid.wellFounded_under (hs : s.Valid) : WellFounded s.Under := by
  obtain ⟨height, hh⟩ := hs.acyclic
  have hlower {i j : Nat} (h : s.Under i j) : height i < height j := by
    obtain ⟨v, t, w, hv, rfl, hw, rfl⟩ := h
    exact hh v t hv w hw
  exact Subrelation.wf hlower (InvImage.wf height Nat.lt_wfRel.wf)

/-! ## Hops that are never used up -/

theorem resolveWithin_succ (h : s.Stratified height) :
    ∀ (n : Nat) (t : Ty), (∀ w ∈ t.occurrences, height (s.rootIndex w) < n) →
      s.resolveWithin (n + 1) t = s.resolveWithin n t := by
  intro n
  induction n with
  | zero =>
    intro t ht
    rw [resolveWithin, resolveWithin]
    exact Ty.bindVars_eq_self fun w hw => absurd (ht w hw) (Nat.not_lt_zero _)
  | succ n ih =>
    intro t ht
    rw [resolveWithin.eq_2, resolveWithin.eq_2]
    apply Ty.bindVars_congr
    intro w hw
    cases hb : s.lookup w with
    | none => rfl
    | some b =>
      apply ih
      intro x hx
      have hxw := h w b hb x hx
      have hwn := ht w hw
      omega

theorem occursWithin_succ (h : s.Stratified height) :
    ∀ (n : Nat) (t : Ty), (∀ w ∈ t.occurrences, height (s.rootIndex w) < n) →
      s.occursWithin v (n + 1) t = s.occursWithin v n t := by
  intro n
  induction n with
  | zero =>
    intro t ht
    have hnil : t.occurrences = [] :=
      List.eq_nil_iff_forall_not_mem.mpr fun w hw => absurd (ht w hw) (Nat.not_lt_zero _)
    rw [occursWithin, occursWithin, hnil, List.any_nil]
  | succ n ih =>
    intro t ht
    rw [occursWithin.eq_2, occursWithin.eq_2]
    rw [Bool.eq_iff_iff, List.any_eq_true, List.any_eq_true]
    apply exists_congr
    intro w
    rw [and_congr_right_iff]
    intro hw
    cases hb : s.lookup w with
    | none => rfl
    | some b =>
      simp only
      rw [ih]
      intro x hx
      have hxw := h w b hb x hx
      have hwn := ht w hw
      omega

theorem Valid.resolveWithin_size (hs : s.Valid) (ht : t.Over s) :
    s.resolveWithin s.size t = s.resolve t := by
  obtain ⟨height, hh, hlt⟩ := hs.exists_height
  exact (resolveWithin_succ hh _ t fun w hw => hlt _ (hs.root_lt w (ht w hw))).symm

theorem Valid.occursWithin_size (hs : s.Valid) (ht : t.Over s) :
    s.occursWithin v s.size t = s.occurs v t := by
  obtain ⟨height, hh, hlt⟩ := hs.exists_height
  exact (occursWithin_succ hh _ t fun w hw => hlt _ (hs.root_lt w (ht w hw))).symm

/-! ## Equations -/

@[simp] theorem resolve_named (constr : String) (ts : List Ty) :
    s.resolve (.named constr ts) = .named constr (ts.map s.resolve) :=
  Ty.bindVars_named constr

@[simp] theorem resolve_fn : s.resolve (.fn d c) = .fn (s.resolve d) (s.resolve c) :=
  Ty.bindVars_fn

theorem resolve_var_of_unbound (h : s.lookup v = none) : s.resolve (.var v) = .var (s.root v) := by
  rw [resolve, hops, resolveWithin, Ty.bindVars_var, h]

theorem Valid.resolve_var_of_bound (hs : s.Valid) (h : s.lookup v = some t) :
    s.resolve (.var v) = s.resolve t := by
  rw [resolve, hops, resolveWithin, Ty.bindVars_var, h]
  exact hs.resolveWithin_size (hs.bound_over v t h)

/-- Resolving puts in for each variable what it resolves to. -/
theorem resolve_eq_bindVars (t : Ty) : s.resolve t = t.bindVars fun v => s.resolve (.var v) := by
  rw [resolve, hops, resolveWithin.eq_2]
  apply Ty.bindVars_congr
  intro v _
  rw [resolve, hops, resolveWithin, Ty.bindVars_var]

theorem resolve_var_congr (h : s.rootIndex v = s.rootIndex w) :
    s.resolve (.var v) = s.resolve (.var w) := by
  simp only [resolve, hops, resolveWithin, Ty.bindVars_var, lookup_congr h, root_congr h]

theorem Valid.resolve_root (hs : s.Valid) (v : Var) :
    s.resolve (.var (s.root v)) = s.resolve (.var v) :=
  resolve_var_congr (hs.root_root v)

theorem occurs_iff_exists :
    s.occurs v t = true ↔ ∃ w ∈ t.occurrences, s.occurs v (.var w) = true := by
  simp only [occurs, hops, occursWithin, Ty.occurrences, List.any_eq_true, List.mem_singleton,
    exists_eq_left]

theorem occurs_named {constr : String} {ts : List Ty} :
    s.occurs v (.named constr ts) = true ↔ ∃ t ∈ ts, s.occurs v t = true := by
  rw [occurs_iff_exists]
  constructor
  · rintro ⟨w, hw, ho⟩
    obtain ⟨t, ht, hw⟩ := Ty.mem_occurrences_named.mp hw
    exact ⟨t, ht, occurs_iff_exists.mpr ⟨w, hw, ho⟩⟩
  · rintro ⟨t, ht, ho⟩
    obtain ⟨w, hw, ho⟩ := occurs_iff_exists.mp ho
    exact ⟨w, Ty.mem_occurrences_named.mpr ⟨t, ht, hw⟩, ho⟩

theorem occurs_fn :
    s.occurs v (.fn d c) = true ↔ s.occurs v d = true ∨ s.occurs v c = true := by
  rw [occurs_iff_exists, occurs_iff_exists, occurs_iff_exists (t := c)]
  simp only [Ty.mem_occurrences_fn, or_and_right, exists_or]

theorem occurs_var_congr {x : Var} (h : s.rootIndex w = s.rootIndex x) :
    s.occurs v (.var w) = s.occurs v (.var x) := by
  simp only [occurs, hops, occursWithin, Ty.occurrences, List.any_cons, List.any_nil, Bool.or_false,
    lookup_congr h, sameClass, h]

theorem occurs_var_of_unbound (h : s.lookup w = none) :
    s.occurs v (.var w) = true ↔ s.rootIndex v = s.rootIndex w := by
  rw [occurs, hops, occursWithin, Ty.occurrences, List.any_cons, List.any_nil, Bool.or_false, h]
  exact sameClass_iff

theorem Valid.occurs_var_of_bound (hs : s.Valid) (h : s.lookup w = some t) :
    s.occurs v (.var w) = s.occurs v t := by
  rw [occurs, hops, occursWithin, Ty.occurrences, List.any_cons, List.any_nil, Bool.or_false, h]
  exact hs.occursWithin_size (hs.bound_over w t h)

/-! ## Induction through bindings -/

theorem over_var : (Ty.var v).Over s ↔ s.Has v := by
  simp [Ty.Over]

theorem over_named {constr : String} {ts : List Ty} :
    (Ty.named constr ts).Over s ↔ ∀ t ∈ ts, t.Over s := by
  simp only [Ty.Over, Ty.mem_occurrences_named, forall_exists_index, and_imp]
  exact ⟨fun h t ht v hv => h v t ht hv, fun h v t ht hv => h t ht v hv⟩

theorem over_fn : (Ty.fn d c).Over s ↔ d.Over s ∧ c.Over s := by
  simp only [Ty.Over, Ty.mem_occurrences_fn, or_imp, forall_and]

/-- What holds of unbound variables, of a variable whenever of the type it is bound to, and of a
type whenever of its parts, holds of every type. -/
@[elab_as_elim]
theorem Valid.induction (hs : s.Valid) {motive : (t : Ty) → t.Over s → Prop}
    (unbound : ∀ v (hv : s.Has v), s.lookup v = none → motive (.var v) (over_var.mpr hv))
    (bound : ∀ v t (hb : s.lookup v = some t), motive t (hs.bound_over v t hb) →
      motive (.var v) (over_var.mpr (has_of_lookup hb)))
    (named : ∀ constr ts (h : (Ty.named constr ts).Over s),
      (∀ t (ht : t ∈ ts), motive t (over_named.mp h t ht)) → motive (.named constr ts) h)
    (fn : ∀ d c (h : (Ty.fn d c).Over s), motive d (over_fn.mp h).1 → motive c (over_fn.mp h).2 →
      motive (.fn d c) h) (t : Ty) (ht : t.Over s) : motive t ht := by
  obtain ⟨height, hh⟩ := hs.acyclic
  have parts : ∀ (t : Ty) (ht : t.Over s),
      (∀ v (hv : v ∈ t.occurrences), motive (.var v) (over_var.mpr (ht v hv))) → motive t ht := by
    intro t ht hvars
    induction t with
    | var v => exact hvars v (Ty.mem_occurrences_var.mpr rfl)
    | named constr ts ih =>
      exact named constr ts ht fun t hmem => ih t hmem _ fun v hv =>
        hvars v (Ty.mem_occurrences_named.mpr ⟨t, hmem, hv⟩)
    | fn d c ihd ihc =>
      exact fn d c ht (ihd _ fun v hv => hvars v (Ty.mem_occurrences_fn.mpr (.inl hv)))
        (ihc _ fun v hv => hvars v (Ty.mem_occurrences_fn.mpr (.inr hv)))
  -- a binding leads to lesser heights, so the induction on variables is one on heights
  have vars : ∀ (n : Nat) (v : Var) (hv : s.Has v), height (s.rootIndex v) < n →
      motive (.var v) (over_var.mpr hv) := by
    intro n
    induction n with
    | zero =>
      intro v _ hn
      exact absurd hn (Nat.not_lt_zero _)
    | succ n ih =>
      intro v hv hn
      cases hb : s.lookup v with
      | none => exact unbound v hv hb
      | some b =>
        refine bound v b hb (parts b _ fun w hw => ih w (hs.bound_over v b hb w hw) ?_)
        have := hh v b hb w hw
        omega
  exact parts t ht fun v hv => vars _ v (ht v hv) (Nat.lt_succ_self _)

end Substitution
end Clausal
