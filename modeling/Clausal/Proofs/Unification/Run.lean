import Clausal.Unify
import Clausal.Proofs.Substitution.Growth

/-!
# Runs of the unifier

`Unifies` is the unifier without its count of steps, one rule for each way a call can go. Every
answer of `unifyWithin` has such a run; facts about the unifier are inductions on runs. A run keeps
the invariant and only adds to the substitution, also where it fails.
-/
namespace Clausal

/-- Two types, neither of them a variable, whose outermost constructors differ. -/
def Ty.Clash : Ty → Ty → Prop
  | .named m _, .named n _ => m ≠ n
  | .named _ _, .fn _ _ => True
  | .fn _ _, .named _ _ => True
  | _, _ => False

namespace Ty.Clash

variable {t u : Ty}

/-- Two names, or a name and a function, on the one side or on the other. -/
theorem induction {motive : ∀ t u : Ty, t.Clash u → Prop}
    (named : ∀ m ts n us (h : m ≠ n), motive (.named m ts) (.named n us) h)
    (namedFn : ∀ m ts d c, motive (.named m ts) (.fn d c) trivial)
    (fnNamed : ∀ d c n us, motive (.fn d c) (.named n us) trivial)
    (t u : Ty) (h : t.Clash u) : motive t u h := by
  cases t with
  | var v => exact h.elim
  | named m ts =>
    cases u with
    | var w => exact h.elim
    | named n us => exact named m ts n us h
    | fn d c => exact namedFn m ts d c
  | fn d c =>
    cases u with
    | var w => exact h.elim
    | named n us => exact fnNamed d c n us
    | fn d' c' => exact h.elim

theorem symm (h : t.Clash u) : u.Clash t := by
  induction t, u, h using induction with
  | named m ts n us h => exact h.symm
  | namedFn m ts d c => trivial
  | fnNamed d c n us => trivial

theorem ne_var (h : t.Clash u) (v : Var) : t ≠ .var v := by
  rintro rfl
  exact h

theorem ne (h : t.Clash u) : t ≠ u := by
  induction t, u, h using induction with
  | named m ts n us h => exact fun he => h (Ty.named.inj he).1
  | namedFn m ts d c => exact Ty.noConfusion
  | fnNamed d c n us => exact Ty.noConfusion

/-- What the variables stand for makes no difference. -/
theorem bindVars (h : t.Clash u) (f : Var → Ty) : (t.bindVars f).Clash (u.bindVars f) := by
  induction t, u, h using induction with
  | named m ts n us h => rwa [bindVars_named, bindVars_named]
  | namedFn m ts d c => rw [bindVars_named, bindVars_fn]; trivial
  | fnNamed d c n us => rw [bindVars_named, bindVars_fn]; trivial

theorem resolve (h : t.Clash u) (s : Substitution) : (s.resolve t).Clash (s.resolve u) := by
  rw [Substitution.resolve_eq_bindVars t, Substitution.resolve_eq_bindVars u]
  exact h.bindVars _

end Ty.Clash

namespace Substitution

inductive Unifies : Substitution → Ty → Ty → Unification → Substitution → Prop where
  | chaseLeft {s s' v b u r} : s.lookup v = some b → Unifies s b u r s' → Unifies s (.var v) u r s'
  | chaseRight {s s' w b t r} : (∀ v, t = .var v → s.lookup v = none) → s.lookup w = some b →
      Unifies s t b r s' → Unifies s t (.var w) r s'
  | same {s v w} : s.lookup v = none → s.lookup w = none → s.rootIndex v = s.rootIndex w →
      Unifies s (.var v) (.var w) (.unified (.var v)) s
  | link {s v w} : s.lookup v = none → s.lookup w = none → s.rootIndex v ≠ s.rootIndex w →
      Unifies s (.var v) (.var w) (.unified (.var w)) (s.link v w)
  | bindLeft {s v u} : s.lookup v = none → (∀ w, u ≠ .var w) → s.occurs v u = false →
      Unifies s (.var v) u (.unified u) (s.bind v u)
  | bindRight {s w t} : s.lookup w = none → (∀ v, t ≠ .var v) → s.occurs w t = false →
      Unifies s t (.var w) (.unified t) (s.bind w t)
  | circularLeft {s v u} : s.lookup v = none → (∀ w, u ≠ .var w) → s.occurs v u = true →
      Unifies s (.var v) u (.circular u v) s
  | circularRight {s w t} : s.lookup w = none → (∀ v, t ≠ .var v) → s.occurs w t = true →
      Unifies s t (.var w) (.circular t w) s
  | named {s constr ts us} :
      Unifies s (.named constr ts) (.named constr us) (.unified (.named constr ts)) s
  | clash {s t u} : t.Clash u → Unifies s t u (.mismatch u t) s
  | fn {s s₁ s₂ d d' c c' domain codomain} : Unifies s d' d (.unified domain) s₁ →
      Unifies s₁ c c' (.unified codomain) s₂ →
      Unifies s (.fn d c) (.fn d' c') (.unified (.fn domain codomain)) s₂
  | fnDomain {s s₁ d d' c c' r} : Unifies s d' d r s₁ → r.isUnified = false →
      Unifies s (.fn d c) (.fn d' c') r s₁
  | fnCodomain {s s₁ s₂ d d' c c' domain r} : Unifies s d' d (.unified domain) s₁ →
      Unifies s₁ c c' r s₂ → r.isUnified = false → Unifies s (.fn d c) (.fn d' c') r s₂

variable {s s' s₁ : Substitution} {v w : Var} {t u d d' c c' : Ty} {r : Unification}

theorem assign_left (hv : s.lookup v = none) (hu : ∀ w, u ≠ .var w)
    (h : s.assign v u = (r, s')) : Unifies s (.var v) u r s' := by
  rw [assign] at h
  split_ifs at h with ho
  · cases h
    exact .circularLeft hv hu ho
  · cases h
    exact .bindLeft hv hu (Bool.eq_false_of_not_eq_true ho)

theorem assign_right (hw : s.lookup w = none) (ht : ∀ v, t ≠ .var v)
    (h : s.assign w t = (r, s')) : Unifies s t (.var w) r s' := by
  rw [assign] at h
  split_ifs at h with ho
  · cases h
    exact .circularRight hw ht ho
  · cases h
    exact .bindRight hw ht (Bool.eq_false_of_not_eq_true ho)

theorem clash_of_ne (hvar : ∀ v, t ≠ .var v) (hvar' : ∀ w, u ≠ .var w)
    (hnamed : ∀ m ts n us, t = .named m ts → u = .named n us → False)
    (hfn : ∀ d c d' c', t = .fn d c → u = .fn d' c' → False) : t.Clash u := by
  cases t with
  | var v => exact absurd rfl (hvar v)
  | named m ts =>
    cases u with
    | var w => exact absurd rfl (hvar' w)
    | named n us => exact (hnamed m ts n us rfl rfl).elim
    | fn d' c' => trivial
  | fn d c =>
    cases u with
    | var w => exact absurd rfl (hvar' w)
    | named n us => trivial
    | fn d' c' => exact (hfn d c d' c' rfl rfl).elim

/-- Every answer of the counting unifier comes from a run. -/
theorem unifies_of_unifyWithin {n : Nat} (h : unifyWithin n t u s = some (r, s')) :
    Unifies s t u r s' := by
  fun_induction unifyWithin n t u s generalizing r s' with
  | case1 => cases h
  | case2 n v w s b hv ih => exact .chaseLeft hv (ih h)
  | case3 n v w s hv b hw ih =>
    refine .chaseRight (fun x hx => ?_) hw (ih h)
    cases hx
    exact hv
  | case4 n v w s hv hw hsame =>
    cases h
    exact .same hv hw (sameClass_iff.mp hsame)
  | case5 n v w s hv hw hsame =>
    cases h
    exact .link hv hw fun he => hsame (sameClass_iff.mpr he)
  | case6 n v t s ht b hv ih => exact .chaseLeft hv (ih h)
  | case7 n v t s ht hv =>
    exact assign_left hv ht (Option.some.inj h)
  | case8 n t w s ht b hw ih => exact .chaseRight (fun v hv => (ht v hv).elim) hw (ih h)
  | case9 n t w s ht hw => exact assign_right hw ht (Option.some.inj h)
  | case10 n ts m us s =>
    cases h
    exact .named
  | case11 n m ts m' us s hne =>
    cases h
    exact .clash hne
  | case12 n d c d' c' s domain s₁ hd codomain s₂ hc ihd ihc =>
    cases h
    exact .fn (ihd hd) (ihc hc)
  | case13 n d c d' c' s domain s₁ hd hc ihd ihc =>
    refine .fnCodomain (ihd hd) (ihc h) ?_
    cases r with
    | unified codomain => exact (hc codomain s' h).elim
    | mismatch _ _ => rfl
    | circular _ _ => rfl
  | case14 n d c d' c' s hd ih =>
    refine .fnDomain (ih h) ?_
    cases r with
    | unified domain => exact (hd domain s' h).elim
    | mismatch _ _ => rfl
    | circular _ _ => rfl
  | case15 n t u s _ ht hu hnamed hfn =>
    cases h
    exact .clash (clash_of_ne ht hu hnamed hfn)

/-! ## What a run keeps -/

/-- A run keeps the invariant and only adds to the substitution: it changes nothing, or fewer classes
are unbound behind it. The type it gives is made of known variables. -/
structure Advances (s : Substitution) (r : Unification) (s' : Substitution) : Prop where
  valid : s'.Valid
  grows : s.Grows s'
  size_eq : s'.size = s.size
  closes : s' = s ∨ s'.openClasses.card < s.openClasses.card
  over_result : ∀ x, r = .unified x → x.Over s'

theorem Valid.advances_self (hs : s.Valid) (h : ∀ x, r = .unified x → x.Over s) : Advances s r s :=
  ⟨hs, .refl s, rfl, .inl rfl, h⟩

theorem Advances.trans {s₂ : Substitution} {r₁ r₂ : Unification} (h₁ : Advances s r₁ s₁)
    (h₂ : Advances s₁ r₂ s₂) (hr : ∀ x, r = .unified x → x.Over s₂) : Advances s r s₂ where
  valid := h₂.valid
  grows := h₁.grows.trans h₂.grows
  size_eq := h₂.size_eq.trans h₁.size_eq
  closes := by
    rcases h₂.closes with rfl | hlt
    · exact h₁.closes
    · rcases h₁.closes with rfl | hlt'
      · exact .inr hlt
      · exact .inr (hlt.trans hlt')
  over_result := hr

theorem Unifies.advances (h : Unifies s t u r s') (hs : s.Valid) (ht : t.Over s) (hu : u.Over s) :
    Advances s r s' := by
  induction h with
  | chaseLeft hv _ ih => exact ih hs (hs.bound_over _ _ hv) hu
  | chaseRight _ hw _ ih => exact ih hs ht (hs.bound_over _ _ hw)
  | same _ _ _ => exact hs.advances_self fun x hx => by cases hx; exact ht
  | link hv hw hne =>
    have hvs := over_var.mp ht
    have hws := over_var.mp hu
    have hgrows := grows_link hs hvs hws hv hw
    exact ⟨hs.link hvs hws hv hw, hgrows, size_link,
      .inr (card_openClasses_link hs hvs hws hv hw hne), fun x hx => by cases hx; exact hgrows.over hu⟩
  | @bindLeft s v u hv hu' ho =>
    have hvs := over_var.mp ht
    have hgrows := grows_bind (t := u) hs hvs hv
    exact ⟨hs.bind hvs hv hu hu' (by simp [ho]), hgrows, size_bind,
      .inr (card_openClasses_bind hs hvs hv), fun x hx => by cases hx; exact hgrows.over hu⟩
  | @bindRight s w t hw ht' ho =>
    have hws := over_var.mp hu
    have hgrows := grows_bind (t := t) hs hws hw
    exact ⟨hs.bind hws hw ht ht' (by simp [ho]), hgrows, size_bind,
      .inr (card_openClasses_bind hs hws hw), fun x hx => by cases hx; exact hgrows.over ht⟩
  | circularLeft _ _ _ => exact hs.advances_self fun x hx => by cases hx
  | circularRight _ _ _ => exact hs.advances_self fun x hx => by cases hx
  | named => exact hs.advances_self fun x hx => by cases hx; exact ht
  | clash _ => exact hs.advances_self fun x hx => by cases hx
  | fn _ _ ihd ihc =>
    have ⟨hd, hc⟩ := over_fn.mp ht
    have ⟨hd', hc'⟩ := over_fn.mp hu
    have h₁ := ihd hs hd' hd
    have h₂ := ihc h₁.valid (h₁.grows.over hc) (h₁.grows.over hc')
    refine h₁.trans h₂ fun x hx => ?_
    cases hx
    exact over_fn.mpr ⟨h₂.grows.over (h₁.over_result _ rfl), h₂.over_result _ rfl⟩
  | fnDomain _ _ ihd =>
    exact ihd hs (over_fn.mp hu).1 (over_fn.mp ht).1
  | fnCodomain _ _ _ ihd ihc =>
    have ⟨hd, hc⟩ := over_fn.mp ht
    have ⟨hd', hc'⟩ := over_fn.mp hu
    have h₁ := ihd hs hd' hd
    have h₂ := ihc h₁.valid (h₁.grows.over hc) (h₁.grows.over hc')
    exact h₁.trans h₂ h₂.over_result

end Substitution
end Clausal
