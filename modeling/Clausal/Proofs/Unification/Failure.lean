import Clausal.Proofs.Unification.Soundness
import Mathlib.Algebra.Group.Nat.Even

/-!
# Where unification fails

A failure is found at one position of both types: sides of functions lead there from each of the two
operands, through the bindings that are known by then. All positions before it are equal already. Each
domain on the way exchanges the roles of the operands, so the number of domains says which of the two types
was expected and which one was found.
-/
namespace Clausal

namespace Ty

/-- The two parts of a function type. -/
inductive Side where
  | domain
  | codomain
deriving DecidableEq

def Side.of : Side → Ty → Ty → Ty
  | .domain, d, _ => d
  | .codomain, _, c => c

/-- The part of a type that the path leads to. -/
def part? : List Side → Ty → Option Ty
  | [], t => some t
  | side :: path, .fn d c => part? path (side.of d c)
  | _ :: _, _ => none

/-- Where the two paths part, the first one takes the domain, which is done first. -/
inductive Before : List Side → List Side → Prop where
  | branch {path path'} : Before (.domain :: path) (.codomain :: path')
  | step {side path path'} : Before path path' → Before (side :: path) (side :: path')

end Ty

open Ty (Side Before)

namespace Substitution

/-- The part of a type that the path leads to, through bindings: what the last variable stands for, where
the path ends at a variable. -/
def part? (s : Substitution) : List Side → Ty → Option Ty
  | [], t => some (s.chase t)
  | side :: path, t =>
    match s.chase t with
    | .fn d c => s.part? path (side.of d c)
    | _ => none

/-- What went wrong at the position that the path leads to, where the left operand has `x` and the right one
has `y`. -/
inductive Wrong (s : Substitution) (path : List Side) (x y : Ty) : Unification → Prop where
  | mismatch : x.Clash y → Even (path.count .domain) → s.Wrong path x y (.mismatch y x)
  /-- The operands have exchanged roles. -/
  | exchanged : x.Clash y → ¬ Even (path.count .domain) → s.Wrong path x y (.mismatch x y)
  | circularLeft {v} : s.lookup v = none → x = .var (s.root v) → (∀ w, y ≠ .var w) →
      s.root v ∈ (s.resolve y).occurrences → s.Wrong path x y (.circular y v)
  | circularRight {v} : s.lookup v = none → y = .var (s.root v) → (∀ w, x ≠ .var w) →
      s.root v ∈ (s.resolve x).occurrences → s.Wrong path x y (.circular x v)

/-- The outcome tells of the position that the path leads to in both types, and nothing is wrong before. -/
structure FailsAt (s : Substitution) (t u : Ty) (r : Unification) (path : List Side) (x y : Ty) :
    Prop where
  left : s.part? path t = some x
  right : s.part? path u = some y
  /-- An earlier position is there in both types or in neither, and its two skeletons are equal. -/
  earlier : ∀ path', Before path' path →
    (s.part? path' t).map s.skeleton = (s.part? path' u).map s.skeleton
  wrong : s.Wrong path x y r

variable {s s' : Substitution} {v : Var} {t u b d d' c c' x y : Ty} {r : Unification}
  {path path' : List Side}

/-! ## Parts and skeletons -/

theorem Valid.chase_of_bound (hs : s.Valid) (h : s.lookup v = some b) :
    s.chase (.var v) = s.chase b := by
  rw [chase, h, Option.getD_some]
  cases b with
  | var w => exact absurd rfl (hs.bound_not_var v _ h w)
  | named constr ts => rfl
  | fn d c => rfl

theorem chase_of_unbound (h : s.lookup v = none) : s.chase (.var v) = .var (s.root v) := by
  rw [chase, h, Option.getD_none]

theorem chase_of_ne_var (h : ∀ v, t ≠ .var v) : s.chase t = t := by
  cases t with
  | var v => exact absurd rfl (h v)
  | named constr ts => rfl
  | fn d c => rfl

/-- A variable is chased to a variable only if its class is not bound. -/
theorem Valid.lookup_of_chase (hs : s.Valid) (h : s.chase t = .var v) : s.lookup v = none := by
  cases t with
  | named constr ts => cases h
  | fn d c => cases h
  | var w =>
    cases hw : s.lookup w with
    | some b =>
      rw [chase, hw, Option.getD_some] at h
      exact absurd h (hs.bound_not_var w b hw v)
    | none =>
      rw [chase_of_unbound hw] at h
      cases h
      rw [hs.lookup_root, hw]

theorem Valid.skeleton_chase (hs : s.Valid) (t : Ty) : s.skeleton (s.chase t) = s.skeleton t := by
  cases t with
  | named constr ts => rfl
  | fn d c => rfl
  | var v =>
    cases hv : s.lookup v with
    | some b => rw [chase, hv, Option.getD_some, hs.skeleton_of_bound hv]
    | none => rw [chase_of_unbound hv, skeleton, hs.resolve_root, skeleton]

theorem Valid.part?_of_bound (hs : s.Valid) (h : s.lookup v = some b) (path : List Side) :
    s.part? path (.var v) = s.part? path b := by
  cases path with
  | nil => rw [part?, part?, hs.chase_of_bound h]
  | cons side path => rw [part?, part?, hs.chase_of_bound h]

/-- The skeleton has parts where the type has them, and they are the skeletons of these parts. -/
theorem Valid.map_skeleton_part? (hs : s.Valid) (path : List Side) (t : Ty) :
    (s.part? path t).map s.skeleton = (s.skeleton t).part? path := by
  induction path generalizing t with
  | nil => rw [part?, Option.map_some, hs.skeleton_chase, Ty.part?]
  | cons side path ih =>
    rw [part?, ← hs.skeleton_chase t]
    cases hc : s.chase t with
    | fn d c =>
      rw [skeleton_fn, Ty.part?]
      cases side with
      | domain => exact ih d
      | codomain => exact ih c
    | named constr ts =>
      rw [skeleton_named]
      rfl
    | var w =>
      rw [skeleton, resolve_var_of_unbound (hs.lookup_of_chase hc)]
      rfl

/-- Types of one skeleton agree at every position. -/
theorem Valid.agree_of_skeleton_eq (hs : s.Valid) (h : s.skeleton t = s.skeleton u) (path : List Side) :
    (s.part? path t).map s.skeleton = (s.part? path u).map s.skeleton := by
  rw [hs.map_skeleton_part?, hs.map_skeleton_part?, h]

/-! ## The position of a failure -/

theorem not_before_nil : ¬ Before path [] := by
  intro h
  cases h

/-- Below a domain each operand has the other's role. -/
theorem Wrong.domain (h : s.Wrong path x y r) : s.Wrong (.domain :: path) y x r := by
  have hcount : (Side.domain :: path).count .domain = path.count .domain + 1 := List.count_cons_self
  cases h with
  | mismatch hclash heven =>
    exact .exchanged hclash.symm (by rw [hcount, Nat.even_add_one]; exact not_not_intro heven)
  | exchanged hclash hodd => exact .mismatch hclash.symm (by rw [hcount, Nat.even_add_one]; exact hodd)
  | circularLeft hv hx hy hmem => exact .circularRight hv hx hy hmem
  | circularRight hv hy hx hmem => exact .circularLeft hv hy hx hmem

theorem Wrong.codomain (h : s.Wrong path x y r) : s.Wrong (.codomain :: path) x y r := by
  have hcount : (Side.codomain :: path).count .domain = path.count .domain :=
    List.count_cons_of_ne (by decide)
  cases h with
  | mismatch hclash heven => exact .mismatch hclash (hcount ▸ heven)
  | exchanged hclash hodd => exact .exchanged hclash (hcount ▸ hodd)
  | circularLeft hv hx hy hmem => exact .circularLeft hv hx hy hmem
  | circularRight hv hy hx hmem => exact .circularRight hv hy hx hmem

/-- Something is wrong with the two types themselves. -/
theorem Wrong.failsAt (h : s.Wrong [] (s.chase t) (s.chase u) r) :
    s.FailsAt t u r [] (s.chase t) (s.chase u) where
  left := rfl
  right := rfl
  earlier _ hbefore := absurd hbefore not_before_nil
  wrong := h

theorem FailsAt.chaseLeft (hs : s.Valid) (hv : s.lookup v = some b) (h : s.FailsAt b u r path x y) :
    s.FailsAt (.var v) u r path x y where
  left := (hs.part?_of_bound hv path).trans h.left
  right := h.right
  earlier path' hbefore := by
    rw [hs.part?_of_bound hv]
    exact h.earlier path' hbefore
  wrong := h.wrong

theorem FailsAt.chaseRight (hs : s.Valid) (hv : s.lookup v = some b) (h : s.FailsAt t b r path x y) :
    s.FailsAt t (.var v) r path x y where
  left := h.left
  right := (hs.part?_of_bound hv path).trans h.right
  earlier path' hbefore := by
    rw [hs.part?_of_bound hv]
    exact h.earlier path' hbefore
  wrong := h.wrong

theorem FailsAt.domain (h : s.FailsAt d' d r path x y) :
    s.FailsAt (.fn d c) (.fn d' c') r (.domain :: path) y x where
  left := h.right
  right := h.left
  earlier _ hbefore := by
    cases hbefore with
    | step hbefore => exact (h.earlier _ hbefore).symm
  wrong := h.wrong.domain

theorem FailsAt.codomain (hs : s.Valid) (hd : s.skeleton d = s.skeleton d')
    (h : s.FailsAt c c' r path x y) :
    s.FailsAt (.fn d c) (.fn d' c') r (.codomain :: path) x y where
  left := h.left
  right := h.right
  earlier _ hbefore := by
    cases hbefore with
    | branch => exact hs.agree_of_skeleton_eq hd _
    | step hbefore => exact h.earlier _ hbefore
  wrong := h.wrong.codomain

/-- A run that fails has found the position. What it went through on the way there is still so in the end. -/
theorem Unifies.exists_failsAt (h : Unifies s t u r s') (hs : s.Valid) (ht : t.Over s) (hu : u.Over s)
    (hr : r.isUnified = false) : ∃ path x y, s'.FailsAt t u r path x y := by
  induction h with
  | chaseLeft hv hrun ih =>
    have h' := hrun.advances hs (hs.bound_over _ _ hv) hu
    obtain ⟨path, x, y, h⟩ := ih hs (hs.bound_over _ _ hv) hu hr
    exact ⟨path, x, y, h.chaseLeft h'.valid (h'.grows.lookup_eq _ _ hv)⟩
  | chaseRight _ hw hrun ih =>
    have h' := hrun.advances hs ht (hs.bound_over _ _ hw)
    obtain ⟨path, x, y, h⟩ := ih hs ht (hs.bound_over _ _ hw) hr
    exact ⟨path, x, y, h.chaseRight h'.valid (h'.grows.lookup_eq _ _ hw)⟩
  | same _ _ _ => cases hr
  | link _ _ _ => cases hr
  | bindLeft _ _ _ => cases hr
  | bindRight _ _ _ => cases hr
  | circularLeft hv hu' ho =>
    refine ⟨[], _, _, Wrong.failsAt ?_⟩
    rw [chase_of_unbound hv, chase_of_ne_var hu']
    exact .circularLeft hv rfl hu' ((hs.occurs_iff hu).mp ho).2
  | circularRight hw ht' ho =>
    refine ⟨[], _, _, Wrong.failsAt ?_⟩
    rw [chase_of_unbound hw, chase_of_ne_var ht']
    exact .circularRight hw rfl ht' ((hs.occurs_iff ht).mp ho).2
  | named => cases hr
  | clash hclash =>
    refine ⟨[], _, _, Wrong.failsAt ?_⟩
    rw [chase_of_ne_var hclash.ne_var, chase_of_ne_var hclash.symm.ne_var]
    exact .mismatch hclash Even.zero
  | fn _ _ _ _ => cases hr
  | fnDomain _ _ ihd =>
    obtain ⟨path, x, y, h⟩ := ihd hs (over_fn.mp hu).1 (over_fn.mp ht).1 hr
    exact ⟨_, y, x, h.domain⟩
  | fnCodomain hd hc _ _ ihc =>
    obtain ⟨hdo, hco⟩ := over_fn.mp ht
    obtain ⟨hdo', hco'⟩ := over_fn.mp hu
    have h₁ := hd.advances hs hdo' hdo
    have h₂ := hc.advances h₁.valid (h₁.grows.over hco) (h₁.grows.over hco')
    obtain ⟨path, x, y, h⟩ := ihc h₁.valid (h₁.grows.over hco) (h₁.grows.over hco') hr
    -- the domains were made equal, and what the codomains bound since keeps them so
    have he := h₂.grows.skeleton_eq h₁.valid h₂.valid (h₁.grows.over hdo) (h₁.grows.over hdo')
      (hd.skeleton_eq hs hdo' hdo rfl).1.symm
    exact ⟨_, x, y, h.codomain h₂.valid he⟩

/-- Where unification fails, sides of functions lead to a constructor or function in each of the two types
that clash, or to an unbound class and a type that it occurs in. All earlier positions are equal by then.
The outcome gives the types at this position: the right one as expected and the left one as found behind an
even number of domains, and the other way round behind an odd number. -/
theorem unify_failure (hs : Reachable s) (ht : t.Over s) (hu : u.Over s)
    (hr : (s.unify t u).1.isUnified = false) :
    ∃ path x y, (s.unify t u).2.FailsAt t u (s.unify t u).1 path x y :=
  (hs.valid.unify_run ht hu).exists_failsAt hs.valid ht hu hr

/-- `?t0` is bound to `Bool -> Int`, and `?t1 -> ?t0` is unified with `Char -> (Int -> Int)`. The domains bind
`?t1`; in the codomains, behind the binding of `?t0` and one domain, `Bool` is expected and `Int` found. -/
theorem unify_failure_behind_binding :
    let s₀ := (fresh {}).2.fresh.2
    let b := Ty.fn (.constant "Bool") (.constant "Int")
    let s := (s₀.unify (.var ⟨0, "?t0"⟩) b).2
    let t := Ty.fn (.var ⟨1, "?t1"⟩) (.var ⟨0, "?t0"⟩)
    let u := Ty.fn (.constant "Char") (.fn (.constant "Int") (.constant "Int"))
    let r := Unification.mismatch (.constant "Bool") (.constant "Int")
    Reachable s ∧ t.Over s ∧ u.Over s ∧ (s.unify t u).1 = r ∧
      ∃ path x y, (s.unify t u).2.FailsAt t u r path x y := by
  intro s₀ b s t u r
  have hs₀ : Reachable s₀ := (Relation.ReflTransGen.single .fresh).tail .fresh
  have hs : Reachable s := hs₀.tail (.unify (by decide) (by decide))
  have ht : t.Over s := by decide +kernel
  have hu : u.Over s := by decide +kernel
  have hr : (s.unify t u).1 = r := by decide +kernel
  have hfails := unify_failure hs ht hu (by rw [hr]; rfl)
  rw [hr] at hfails
  exact ⟨hs, ht, hu, hr, hfails⟩

end Substitution
end Clausal
