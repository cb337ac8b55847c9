import Clausal.Proofs.Substitution.Evolution
import Mathlib.Order.Filter.AtTopBot.Basic
import Mathlib.Order.Filter.Finite

/-!
# The recursions come to an end

Chasing, looking for a variable, resolving, copying and unifying once more, without a bound on the hops or
the steps: each follows bindings for as long as there are any, and unification goes on in the codomains with
the substitution that the domains left. There is no answer as long as the calls may not be nested deep enough,
so there is none at all where the recursion goes on for ever. On a reachable substitution some depth is
enough, and from there on the answer is that of the definition with the bound. A variable that is bound to a
type with itself inside has no answer at any depth.
-/
namespace Clausal.Substitution

open Filter

/-- The recursion of chasing, with calls that are nested at most this deep. -/
def chaseNested (s : Substitution) : Nat → Ty → Option Ty
  | 0, _ => none
  | n + 1, .var v =>
    match s.lookup v with
    | some bound => s.chaseNested n bound
    | none => some (.var (s.root v))
  | _ + 1, t => some t

def occursNested (s : Substitution) (v : Var) : Nat → Ty → Option Bool
  | 0, _ => none
  | n + 1, .var w =>
    match s.lookup w with
    | some bound => s.occursNested v n bound
    | none => some (s.sameClass v w)
  | n + 1, .named _ ts => ts.anyM (s.occursNested v n)
  | n + 1, .fn d c => do
    if ← s.occursNested v n d then return true else s.occursNested v n c

def resolveNested (s : Substitution) : Nat → Ty → Option Ty
  | 0, _ => none
  | n + 1, t => do
    match ← s.chaseNested n t with
    | .var root => return .var root
    | .named constr ts => return .named constr (← ts.mapM (s.resolveNested n))
    | .fn d c => return .fn (← s.resolveNested n d) (← s.resolveNested n c)

def instantiateNested (s : Substitution) (n : Nat) (t : Ty) : Option (Ty × Substitution) := do
  let resolved ← s.resolveNested n t
  let (copies, s') := s.freshFor resolved.vars
  return (resolved.bindVars fun v => (copies.lookup v).getD (.var v), s')

def assignNested (s : Substitution) (n : Nat) (v : Var) (t : Ty) : Option (Unification × Substitution) := do
  if ← s.occursNested v n t then return (.circular t v, s) else return (.unified t, s.bind v t)

def unifyNested : Nat → Ty → Ty → Substitution → Option (Unification × Substitution)
  | 0, _, _, _ => none
  | n + 1, .var v, .var w, s =>
    match s.lookup v with
    | some bound => unifyNested n bound (.var w) s
    | none =>
      match s.lookup w with
      | some bound => unifyNested n (.var v) bound s
      | none =>
        if s.sameClass v w then some (.unified (.var v), s)
        else some (.unified (.var w), s.link v w)
  | n + 1, .var v, u, s =>
    match s.lookup v with
    | some bound => unifyNested n bound u s
    | none => s.assignNested n v u
  | n + 1, t, .var w, s =>
    match s.lookup w with
    | some bound => unifyNested n t bound s
    | none => s.assignNested n w t
  | _ + 1, .named m ts, .named m' us, s =>
    if m = m' then some (.unified (.named m ts), s)
    else some (.mismatch (.named m' us) (.named m ts), s)
  | n + 1, .fn d c, .fn d' c', s => do
    match ← unifyNested n d' d s with
    | (.unified domain, s₁) =>
      match ← unifyNested n c c' s₁ with
      | (.unified codomain, s₂) => return (.unified (.fn domain codomain), s₂)
      | failure => return failure
    | failure => return failure
  | _ + 1, t, u, s => some (.mismatch u t, s)

variable {s s' : Substitution} {v w : Var} {t u b x : Ty} {ts : List Ty} {r : Unification} {n : Nat}

/-! ## Depths -/

/-- The answers of calls that may be nested deep enough are those one level further out. -/
theorem eventually_of_succ {p : Nat → Prop} (h : ∀ᶠ n in atTop, p (n + 1)) : ∀ᶠ n in atTop, p n := by
  rw [← map_add_atTop_eq_nat 1]
  exact eventually_map.mpr h

theorem eventually_forall_mem {p : Nat → Ty → Prop} (h : ∀ t ∈ ts, ∀ᶠ n in atTop, p n t) :
    ∀ᶠ n in atTop, ∀ t ∈ ts, p n t :=
  (eventually_all_finite (List.finite_toSet ts)).mpr h

theorem anyM_eq_some {f : Ty → Option Bool} {g : Ty → Bool} (h : ∀ t ∈ ts, f t = some (g t)) :
    ts.anyM f = some (ts.any g) := by
  induction ts with
  | nil => rfl
  | cons t ts ih =>
    rw [List.anyM, h t List.mem_cons_self, List.any_cons]
    cases hg : g t with
    | true => rfl
    | false => exact ih fun u hu => h u (List.mem_cons_of_mem t hu)

theorem mapM_eq_some {f : Ty → Option Ty} {g : Ty → Ty} (h : ∀ t ∈ ts, f t = some (g t)) :
    ts.mapM f = some (ts.map g) := by
  induction ts with
  | nil => rfl
  | cons t ts ih =>
    rw [List.mapM_cons, h t List.mem_cons_self, ih fun u hu => h u (List.mem_cons_of_mem t hu)]
    rfl

/-! ## Walks of one substitution -/

theorem chaseNested_of_ne_var (hn : 0 < n) (h : ∀ v, t ≠ .var v) : s.chaseNested n t = some t := by
  obtain ⟨n, rfl⟩ := Nat.exists_eq_add_of_lt hn
  cases t with
  | var v => exact absurd rfl (h v)
  | named constr ts => rfl
  | fn d c => rfl

/-- What a class is bound to is no variable, so one hop is enough. -/
theorem Valid.chaseNested_of_bound (hs : s.Valid) (hn : 0 < n) (hv : s.lookup v = some b) :
    s.chaseNested (n + 1) (.var v) = some b := by
  rw [chaseNested, hv]
  exact chaseNested_of_ne_var hn (hs.bound_not_var v b hv)

theorem chaseNested_of_unbound (hv : s.lookup v = none) :
    s.chaseNested (n + 1) (.var v) = some (.var (s.root v)) := by
  rw [chaseNested, hv]

theorem Valid.eventually_chase (hs : s.Valid) (t : Ty) :
    ∀ᶠ n in atTop, s.chaseNested n t = some (s.chase t) := by
  refine eventually_of_succ ?_
  filter_upwards [eventually_gt_atTop 0] with n hn
  cases t with
  | named constr ts => rfl
  | fn d c => rfl
  | var v =>
    cases hv : s.lookup v with
    | none => rw [chaseNested_of_unbound hv, chase, hv, Option.getD_none]
    | some b => rw [hs.chaseNested_of_bound hn hv, chase, hv, Option.getD_some]

theorem Valid.eventually_occurs (hs : s.Valid) (ht : t.Over s) (v : Var) :
    ∀ᶠ n in atTop, s.occursNested v n t = some (s.occurs v t) := by
  induction t, ht using hs.induction with
  | unbound w _ hw =>
    have heq : s.sameClass v w = s.occurs v (.var w) := by
      rw [Bool.eq_iff_iff, sameClass_iff, occurs_var_of_unbound hw]
    refine eventually_of_succ (Eventually.of_forall fun n => ?_)
    rw [occursNested, hw, heq]
  | bound w b hb ih =>
    refine eventually_of_succ ?_
    filter_upwards [ih] with n hn
    rw [occursNested, hb, hs.occurs_var_of_bound hb]
    exact hn
  | named constr ts _ ih =>
    have heq : ts.any (s.occurs v) = s.occurs v (.named constr ts) := by
      rw [Bool.eq_iff_iff, List.any_eq_true, occurs_named]
    refine eventually_of_succ ?_
    filter_upwards [eventually_forall_mem ih] with n hn
    rw [occursNested, anyM_eq_some hn, heq]
  | fn d c _ ihd ihc =>
    have heq : s.occurs v (.fn d c) = (s.occurs v d || s.occurs v c) := by
      rw [Bool.eq_iff_iff, Bool.or_eq_true, occurs_fn]
    refine eventually_of_succ ?_
    filter_upwards [ihd, ihc] with n hd hc
    rw [occursNested, hd, hc, heq]
    cases s.occurs v d <;> rfl

theorem resolveNested_named (hn : 0 < n) (constr : String) (ts : List Ty) :
    s.resolveNested (n + 1) (.named constr ts) = (ts.mapM (s.resolveNested n)).map (.named constr) := by
  rw [resolveNested, chaseNested_of_ne_var hn fun _ => Ty.noConfusion, Option.map_eq_bind]
  rfl

theorem resolveNested_fn (hn : 0 < n) (d c : Ty) : s.resolveNested (n + 1) (.fn d c) =
    (s.resolveNested n d).bind fun d' => (s.resolveNested n c).map (.fn d') := by
  rw [resolveNested, chaseNested_of_ne_var hn fun _ => Ty.noConfusion]
  simp only [Option.map_eq_bind]
  rfl

theorem Valid.resolveNested_of_bound (hs : s.Valid) (hn : 0 < n) (hv : s.lookup v = some b) :
    s.resolveNested (n + 2) (.var v) = s.resolveNested (n + 2) b := by
  rw [resolveNested, resolveNested, hs.chaseNested_of_bound hn hv,
    chaseNested_of_ne_var n.succ_pos (hs.bound_not_var v b hv)]

theorem Valid.eventually_resolve (hs : s.Valid) (ht : t.Over s) :
    ∀ᶠ n in atTop, s.resolveNested n t = some (s.resolve t) := by
  induction t, ht using hs.induction with
  | unbound v _ hv =>
    refine eventually_of_succ (eventually_of_succ (Eventually.of_forall fun n => ?_))
    rw [resolveNested, chaseNested_of_unbound hv, resolve_var_of_unbound hv]
    rfl
  | bound v b hb ih =>
    refine eventually_of_succ (eventually_of_succ ?_)
    filter_upwards [(tendsto_add_atTop_nat 2).eventually ih, eventually_gt_atTop 0] with n hn hpos
    rw [hs.resolveNested_of_bound hpos hb, hs.resolve_var_of_bound hb]
    exact hn
  | named constr ts _ ih =>
    refine eventually_of_succ ?_
    filter_upwards [eventually_forall_mem ih, eventually_gt_atTop 0] with n hn hpos
    rw [resolveNested_named hpos, mapM_eq_some hn, resolve_named, Option.map_some]
  | fn d c _ ihd ihc =>
    refine eventually_of_succ ?_
    filter_upwards [ihd, ihc, eventually_gt_atTop 0] with n hd hc hpos
    rw [resolveNested_fn hpos, hd, hc, resolve_fn, Option.bind_some, Option.map_some]

theorem Valid.eventually_instantiate (hs : s.Valid) (ht : t.Over s) :
    ∀ᶠ n in atTop, s.instantiateNested n t = some (s.instantiate t) := by
  filter_upwards [hs.eventually_resolve ht] with n hn
  rw [instantiateNested, hn]
  rfl

/-! ## Unification -/

theorem Valid.eventually_assign (hs : s.Valid) (ht : t.Over s) (v : Var) :
    ∀ᶠ n in atTop, s.assignNested n v t = some (s.assign v t) := by
  filter_upwards [hs.eventually_occurs ht v] with n hn
  rw [assignNested, hn, assign]
  cases s.occurs v t <;> rfl

theorem unifyNested_chaseLeft (hv : s.lookup v = some b) :
    unifyNested (n + 1) (.var v) u s = unifyNested n b u s := by
  rw [unifyNested.eq_def]
  cases u with
  | var w => simp only [hv]
  | named constr us => simp only [hv]
  | fn d c => simp only [hv]

theorem unifyNested_chaseRight (ht : ∀ v, t = .var v → s.lookup v = none)
    (hw : s.lookup w = some b) : unifyNested (n + 1) t (.var w) s = unifyNested n t b s := by
  rw [unifyNested.eq_def]
  cases t with
  | var v => simp only [ht v rfl, hw]
  | named constr ts => simp only [hw]
  | fn d c => simp only [hw]

theorem unifyNested_unbound (hv : s.lookup v = none) (hw : s.lookup w = none) :
    unifyNested (n + 1) (.var v) (.var w) s =
      if s.sameClass v w then some (.unified (.var v), s)
      else some (.unified (.var w), s.link v w) := by
  rw [unifyNested.eq_def]
  simp only [hv, hw]

theorem unifyNested_assignLeft (hv : s.lookup v = none) (hu : ∀ w, u ≠ .var w) :
    unifyNested (n + 1) (.var v) u s = s.assignNested n v u := by
  rw [unifyNested.eq_def]
  cases u with
  | var w => exact absurd rfl (hu w)
  | named constr us => simp only [hv]
  | fn d c => simp only [hv]

theorem unifyNested_assignRight (hw : s.lookup w = none) (ht : ∀ v, t ≠ .var v) :
    unifyNested (n + 1) t (.var w) s = s.assignNested n w t := by
  rw [unifyNested.eq_def]
  cases t with
  | var v => exact absurd rfl (ht v)
  | named constr ts => simp only [hw]
  | fn d c => simp only [hw]

theorem unifyNested_clash (h : t.Clash u) : unifyNested (n + 1) t u s = some (.mismatch u t, s) := by
  induction t, u, h using Ty.Clash.induction with
  | named m ts n us h => exact if_neg h
  | namedFn m ts d c => rfl
  | fnNamed d c n us => rfl

/-- Behind a failure nothing is done any more. -/
theorem bind_failure (f : Ty → Substitution → Option (Unification × Substitution))
    (hr : r.isUnified = false) : ((some (r, s)).bind fun
      | (.unified x, s') => f x s'
      | failure => some failure) = some (r, s) := by
  cases r with
  | unified x => cases hr
  | mismatch e a => rfl
  | circular x v => rfl

/-- Calls that are nested deep enough go as the run does: where there is a run, there is its answer. -/
theorem Unifies.eventually_unify (h : Unifies s t u r s') (hs : s.Valid) (ht : t.Over s)
    (hu : u.Over s) : ∀ᶠ n in atTop, unifyNested n t u s = some (r, s') := by
  induction h
  all_goals refine eventually_of_succ ?_
  case chaseLeft hv _ ih =>
    simp only [unifyNested_chaseLeft hv]
    exact ih hs (hs.bound_over _ _ hv) hu
  case chaseRight ht' hw _ ih =>
    simp only [unifyNested_chaseRight ht' hw]
    exact ih hs ht (hs.bound_over _ _ hw)
  case same hv hw he =>
    refine Eventually.of_forall fun n => ?_
    rw [unifyNested_unbound hv hw, if_pos (sameClass_iff.mpr he)]
  case link hv hw hne =>
    refine Eventually.of_forall fun n => ?_
    rw [unifyNested_unbound hv hw, if_neg fun h => hne (sameClass_iff.mp h)]
  case bindLeft hv hu' ho =>
    filter_upwards [hs.eventually_assign hu _] with n hn
    rw [unifyNested_assignLeft hv hu', hn, assign, ho]
    rfl
  case bindRight hw ht' ho =>
    filter_upwards [hs.eventually_assign ht _] with n hn
    rw [unifyNested_assignRight hw ht', hn, assign, ho]
    rfl
  case circularLeft hv hu' ho =>
    filter_upwards [hs.eventually_assign hu _] with n hn
    rw [unifyNested_assignLeft hv hu', hn, assign, ho]
    rfl
  case circularRight hw ht' ho =>
    filter_upwards [hs.eventually_assign ht _] with n hn
    rw [unifyNested_assignRight hw ht', hn, assign, ho]
    rfl
  case named => exact Eventually.of_forall fun n => if_pos rfl
  case clash h => exact Eventually.of_forall fun n => unifyNested_clash h
  case fn hd _ ihd ihc =>
    obtain ⟨hdo, hco⟩ := over_fn.mp ht
    obtain ⟨hdo', hco'⟩ := over_fn.mp hu
    have h₁ := hd.advances hs hdo' hdo
    have hdomain := ihd hs hdo' hdo
    have hcodomain := ihc h₁.valid (h₁.grows.over hco) (h₁.grows.over hco')
    filter_upwards [hdomain, hcodomain] with n hnd hnc
    rw [unifyNested.eq_def]
    simp only [hnd, Option.bind_eq_bind, Option.bind_some, hnc]
    rfl
  case fnDomain _ hr ihd =>
    filter_upwards [ihd hs (over_fn.mp hu).1 (over_fn.mp ht).1] with n hnd
    rw [unifyNested.eq_def]
    simp only [hnd]
    exact bind_failure _ hr
  case fnCodomain hd _ hr ihd ihc =>
    obtain ⟨hdo, hco⟩ := over_fn.mp ht
    obtain ⟨hdo', hco'⟩ := over_fn.mp hu
    have h₁ := hd.advances hs hdo' hdo
    have hdomain := ihd hs hdo' hdo
    have hcodomain := ihc h₁.valid (h₁.grows.over hco) (h₁.grows.over hco')
    filter_upwards [hdomain, hcodomain] with n hnd hnc
    rw [unifyNested.eq_def]
    simp only [hnd, Option.bind_eq_bind, Option.bind_some, hnc]
    exact bind_failure _ hr

/-- On a reachable substitution every one of the recursions comes to an end, whatever the types: some depth is
enough, and from there on the answer is that of the definition with the bound. -/
theorem recursions_end (hs : Reachable s) (ht : t.Over s) (hu : u.Over s) (v : Var) :
    ∃ depth, ∀ n, depth ≤ n →
      s.chaseNested n t = some (s.chase t) ∧
      s.occursNested v n t = some (s.occurs v t) ∧
      s.resolveNested n t = some (s.resolve t) ∧
      s.instantiateNested n t = some (s.instantiate t) ∧
      unifyNested n t u s = some (s.unify t u) := by
  have hunify := (hs.valid.unify_run ht hu).eventually_unify hs.valid ht hu
  refine eventually_atTop.mp ?_
  filter_upwards [hs.valid.eventually_chase t, hs.valid.eventually_occurs ht v,
    hs.valid.eventually_resolve ht, hs.valid.eventually_instantiate ht, hunify] with n hc ho hr hi hn
  exact ⟨hc, ho, hr, hi, hn⟩

/-- `?t0` is bound to `?t1 -> Int`; unifying the domains of `?t1 -> ?t0` and `Int -> ?t1 -> Int` binds `?t1`, and
with it changes what the codomains stand for. -/
theorem recursions_end_bound_codomain :
    let v : Var := ⟨1, "?t1"⟩
    let int := Ty.constant "Int"
    let b := Ty.fn (.var v) int
    let s := ((fresh {}).2.fresh.2.unify (.var ⟨0, "?t0"⟩) b).2
    let t := Ty.fn (.var v) (.var ⟨0, "?t0"⟩)
    let u := Ty.fn int b
    Reachable s ∧ t.Over s ∧ u.Over s ∧ ∃ depth, ∀ n, depth ≤ n →
      s.chaseNested n t = some t ∧
      s.occursNested v n t = some true ∧
      s.resolveNested n t = some (.fn (.var v) b) ∧
      s.instantiateNested n t = some (s.instantiate t) ∧
      unifyNested n t u s = some (.unified (.fn int (.fn int int)), (s.unify t u).2) := by
  intro v int b s t u
  have hs₀ : Reachable (fresh {}).2.fresh.2 := (Relation.ReflTransGen.single .fresh).tail .fresh
  have hs : Reachable s := hs₀.tail (.unify (by decide) (by decide))
  have ht : t.Over s := by decide +kernel
  have hu : u.Over s := by decide +kernel
  have hchase : s.chase t = t := rfl
  have hoccurs : s.occurs v t = true := by decide +kernel
  have hresolve : s.resolve t = .fn (.var v) b := by decide +kernel
  have hresult : (s.unify t u).1 = .unified (.fn int (.fn int int)) := by decide +kernel
  have hunify : s.unify t u = (.unified (.fn int (.fn int int)), (s.unify t u).2) := by rw [← hresult]
  obtain ⟨depth, hdepth⟩ := recursions_end hs ht hu v
  refine ⟨hs, ht, hu, depth, fun n hn => ?_⟩
  obtain ⟨hc, ho, hr, hi, hrun⟩ := hdepth n hn
  rw [hchase] at hc
  rw [hoccurs] at ho
  rw [hresolve] at hr
  rw [hunify] at hrun
  exact ⟨hc, ho, hr, hi, hrun⟩

/-! ## Circles -/

theorem mapM_eq_none {f : Ty → Option Ty} (ht : t ∈ ts) (h : f t = none) : ts.mapM f = none := by
  induction ts with
  | nil => cases ht
  | cons u ts ih =>
    rw [List.mapM_cons]
    rcases List.mem_cons.mp ht with rfl | ht
    · rw [h]
      rfl
    · rw [ih ht]
      cases f u <;> rfl

/-- A variable that is bound to a type with itself inside leads back to such a type. -/
theorem mem_of_chaseNested (hv : s.lookup v = some b) (hb : ∀ w, b ≠ .var w) (hmem : v ∈ b.occurrences)
    (ht : v ∈ t.occurrences) (h : s.chaseNested n t = some x) :
    (∀ w, x ≠ .var w) ∧ v ∈ x.occurrences := by
  cases n with
  | zero => cases h
  | succ n =>
    by_cases hvar : ∀ w, t ≠ .var w
    · rw [chaseNested_of_ne_var n.succ_pos hvar] at h
      cases h
      exact ⟨hvar, ht⟩
    · push Not at hvar
      obtain ⟨w, rfl⟩ := hvar
      rw [← Ty.mem_occurrences_var.mp ht, chaseNested, hv] at h
      have hbound : s.chaseNested n b = some x := h
      cases n with
      | zero => cases hbound
      | succ n =>
        rw [chaseNested_of_ne_var n.succ_pos hb] at hbound
        cases hbound
        exact ⟨hb, hmem⟩

/-- However deep the calls may be nested, a type is not resolved if a circle can be reached from it. -/
theorem resolveNested_of_circle (hv : s.lookup v = some b) (hb : ∀ w, b ≠ .var w)
    (hmem : v ∈ b.occurrences) (n : Nat) (ht : v ∈ t.occurrences) : s.resolveNested n t = none := by
  induction n generalizing t with
  | zero => rfl
  | succ n ih =>
    rw [resolveNested]
    cases hx : s.chaseNested n t with
    | none => rfl
    | some x =>
      obtain ⟨hvar, hinside⟩ := mem_of_chaseNested hv hb hmem ht hx
      cases x with
      | var w => exact absurd rfl (hvar w)
      | named constr ts =>
        obtain ⟨u, hu, hvu⟩ := Ty.mem_occurrences_named.mp hinside
        simp only [Option.bind_eq_bind, Option.bind_some, mapM_eq_none hu (ih hvu), Option.bind_none]
      | fn d c =>
        simp only [Option.bind_eq_bind, Option.bind_some]
        rcases Ty.mem_occurrences_fn.mp hinside with hd | hc
        · rw [ih hd, Option.bind_none]
        · rw [ih hc]
          cases s.resolveNested n d <;> rfl

end Clausal.Substitution
