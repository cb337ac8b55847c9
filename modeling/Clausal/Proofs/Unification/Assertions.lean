import Clausal.Proofs.Substitution.Evolution

/-!
# Bindings are never lost

The unifier once more, with its two changes to classes under assertion: no class that is bound gets
another type, and of two classes that are merged one is unbound. Neither assertion ever fails, and
the unifier without them gives the same answers. What is bound at all is kept at representatives.
-/
namespace Clausal.Substitution

/-- A change to classes that would lose a type. -/
inductive Loss where
  /-- A class that is bound gets another type. -/
  | rebound (v : Var)
  /-- Two classes become one, and they are not both unbound. -/
  | merged (v w : Var)
deriving DecidableEq, Repr

def bindAsserted (s : Substitution) (v : Var) (t : Ty) : Except Loss Substitution :=
  if (s.lookup v).isSome then .error (.rebound v) else .ok (s.bind v t)

def linkAsserted (s : Substitution) (v w : Var) : Except Loss Substitution :=
  if (s.lookup v).isSome || (s.lookup w).isSome then .error (.merged v w) else .ok (s.link v w)

def assignAsserted (s : Substitution) (v : Var) (t : Ty) :
    Except Loss (Unification × Substitution) := do
  if s.occurs v t then return (.circular t v, s) else return (.unified t, ← s.bindAsserted v t)

/-- `unifyWithin`, stopping where it would lose a type. -/
def unifyAsserted : Nat → Ty → Ty → Substitution → Except Loss (Option (Unification × Substitution))
  | 0, _, _, _ => return none
  | n + 1, .var v, .var w, s =>
    match s.lookup v with
    | some bound => unifyAsserted n bound (.var w) s
    | none =>
      match s.lookup w with
      | some bound => unifyAsserted n (.var v) bound s
      | none => do
        if s.sameClass v w then return some (.unified (.var v), s)
        else return some (.unified (.var w), ← s.linkAsserted v w)
  | n + 1, .var v, t, s =>
    match s.lookup v with
    | some bound => unifyAsserted n bound t s
    | none => do return some (← s.assignAsserted v t)
  | n + 1, t, .var w, s =>
    match s.lookup w with
    | some bound => unifyAsserted n t bound s
    | none => do return some (← s.assignAsserted w t)
  | _ + 1, .named m ts, .named m' us, s =>
    if m = m' then return some (.unified (.named m ts), s)
    else return some (.mismatch (.named m' us) (.named m ts), s)
  | n + 1, .fn d c, .fn d' c', s => do
    match ← unifyAsserted n d' d s with
    | some (.unified domain, s₁) =>
      match ← unifyAsserted n c c' s₁ with
      | some (.unified codomain, s₂) => return some (.unified (.fn domain codomain), s₂)
      | failure => return failure
    | failure => return failure
  | _ + 1, t, u, s => return some (.mismatch u t, s)

variable {s s' : Substitution} {v w : Var} {t u : Ty} {r : Unification} {n : Nat}

theorem bindAsserted_of_unbound (h : s.lookup v = none) : s.bindAsserted v t = pure (s.bind v t) := by
  rw [bindAsserted, h]
  rfl

theorem linkAsserted_of_unbound (hv : s.lookup v = none) (hw : s.lookup w = none) :
    s.linkAsserted v w = pure (s.link v w) := by
  rw [linkAsserted, hv, hw]
  rfl

theorem assignAsserted_of_unbound (h : s.lookup v = none) :
    s.assignAsserted v t = pure (s.assign v t) := by
  rw [assignAsserted, assign, bindAsserted_of_unbound h]
  split <;> rfl

/-- No assertion fails, whatever the substitution, the types and the number of steps. -/
theorem unifyAsserted_eq_pure (n : Nat) (t u : Ty) (s : Substitution) :
    unifyAsserted n t u s = pure (unifyWithin n t u s) := by
  fun_induction unifyWithin n t u s with
  | case1 => rfl
  | case2 n v w s b hv ih => simpa only [unifyAsserted, hv] using ih
  | case3 n v w s hv b hw ih => simpa only [unifyAsserted, hv, hw] using ih
  | case4 n v w s hv hw hsame => simp only [unifyAsserted, hv, hw, hsame, if_true]
  | case5 n v w s hv hw hsame =>
    simp only [unifyAsserted, hv, hw, if_neg hsame, linkAsserted_of_unbound hv hw, pure_bind]
  | case6 n v t s ht b hv ih => simpa only [unifyAsserted, hv] using ih
  | case7 n v t s ht hv => simp only [unifyAsserted, hv, assignAsserted_of_unbound hv, pure_bind]
  | case8 n t w s ht b hw ih => simpa only [unifyAsserted, hw] using ih
  | case9 n t w s ht hw => simp only [unifyAsserted, hw, assignAsserted_of_unbound hw, pure_bind]
  | case10 n ts m us s => simp only [unifyAsserted, if_true]
  | case11 n m ts m' us s hne => simp only [unifyAsserted, if_neg hne]
  | case12 n d c d' c' s domain s₁ hd codomain s₂ hc ihd ihc =>
    simp only [unifyAsserted, ihd, ihc, hd, hc, pure_bind]
  | case13 n d c d' c' s domain s₁ hd hc ihd ihc =>
    simp only [unifyAsserted, ihd, ihc, hd, pure_bind]
  | case14 n d c d' c' s hd ih => simp only [unifyAsserted, ih, pure_bind]
  | case15 n t u s _ ht hu hnamed hfn =>
    rw [unifyAsserted]
    all_goals assumption

/-! ## One type for a class -/

theorem Unifies.keptAtRoots (h : Unifies s t u r s') (hs : s.Valid) (ht : t.Over s) (hu : u.Over s)
    (hk : s.KeptAtRoots) : s'.KeptAtRoots := by
  induction h with
  | chaseLeft hv _ ih => exact ih hs (hs.bound_over _ _ hv) hu hk
  | chaseRight _ hw _ ih => exact ih hs ht (hs.bound_over _ _ hw) hk
  | same _ _ _ => exact hk
  | link hv hw _ => exact hk.link hv hw
  | bindLeft _ _ _ => exact hk.bind (hs.root_root _)
  | bindRight _ _ _ => exact hk.bind (hs.root_root _)
  | circularLeft _ _ _ => exact hk
  | circularRight _ _ _ => exact hk
  | named => exact hk
  | clash _ => exact hk
  | fn hd _ ihd ihc =>
    obtain ⟨hdo, hco⟩ := over_fn.mp ht
    obtain ⟨hdo', hco'⟩ := over_fn.mp hu
    have h₁ := hd.advances hs hdo' hdo
    exact ihc h₁.valid (h₁.grows.over hco) (h₁.grows.over hco') (ihd hs hdo' hdo hk)
  | fnDomain _ _ ihd => exact ihd hs (over_fn.mp hu).1 (over_fn.mp ht).1 hk
  | fnCodomain hd _ _ ihd ihc =>
    obtain ⟨hdo, hco⟩ := over_fn.mp ht
    obtain ⟨hdo', hco'⟩ := over_fn.mp hu
    have h₁ := hd.advances hs hdo' hdo
    exact ihc h₁.valid (h₁.grows.over hco) (h₁.grows.over hco') (ihd hs hdo' hdo hk)

theorem KeptAtRoots.freshFor (h : s.KeptAtRoots) (vs : List Var) : (s.freshFor vs).2.KeptAtRoots := by
  induction vs generalizing s with
  | nil => exact h
  | cons v vs ih => exact ih (h.add _)

theorem Operation.keptAtRoots (h : Operation s s') (hs : s.Valid) (hk : s.KeptAtRoots) :
    s'.KeptAtRoots := by
  cases h with
  | @var _ name _ h =>
    rcases eq_or_add_of_var? h with rfl | rfl
    · exact hk
    · exact hk.add name
  | fresh => exact hk.add _
  | unify ht hu => exact (hs.unify_run ht hu).keptAtRoots hs ht hu hk
  | instantiate _ => exact hk.freshFor _

theorem Reachable.keptAtRoots (h : Reachable s) : s.KeptAtRoots := by
  induction h with
  | refl =>
    intro i c t hc
    cases hc
  | tail h hop ih => exact hop.keptAtRoots (Reachable.valid h) ih

/-- The bindings make no circle, and none of them can get lost. -/
structure Orderly (s : Substitution) : Prop where
  /-- Bindings lead to ever other classes and come to an end. -/
  wellFounded : WellFounded s.Under
  /-- A class has one type at most. -/
  bound_unique : ∀ (i j : Nat) (c d : Cell) (t u : Ty), s.cells[i]? = some c → s.cells[j]? = some d →
    c.root = d.root → c.bound = some t → d.bound = some u → t = u
  bound_not_var : ∀ v t, s.lookup v = some t → ∀ w, t ≠ .var w
  /-- No unification of known types fails an assertion. -/
  unify_asserted : ∀ t u : Ty, t.Over s → u.Over s →
    unifyAsserted (s.steps t u) t u s = .ok (some (s.unify t u))

theorem Reachable.orderly (h : Reachable s) : s.Orderly where
  wellFounded := h.valid.wellFounded_under
  bound_unique i j c d t u hc hd hroot ht hu := by
    -- both cells are that of the representative
    have hi := h.keptAtRoots i c t hc ht
    have hj := h.keptAtRoots j d u hd hu
    have hij : i = j := by rw [← hi, hroot, hj]
    subst hij
    rw [hc] at hd
    cases hd
    rw [ht] at hu
    exact Option.some.inj hu
  bound_not_var := h.valid.bound_not_var
  unify_asserted t u ht hu := by
    rw [unifyAsserted_eq_pure, h.valid.unifyWithin_steps ht hu]
    rfl

end Clausal.Substitution
