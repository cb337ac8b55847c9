import Clausal.Proofs.Substitution.Evolution
import Clausal.Proofs.Ty.Variables

/-!
# The normal form of a type

`chase` looks at the outermost level of a type, `occurs` looks for a variable in it, `resolve` puts in all
that is known. Each of them walks through links, bindings and arguments on its own, and they see the same:
the resolved type begins with what `chase` gives, and its variables are the ones that `occurs` finds.

The three read a substitution and give no other one back, so classes and bindings stay as they are.
-/
namespace Clausal

namespace Ty

/-- The outermost level of a type. -/
inductive Head where
  | var (v : Var)
  | named (constr : String) (arity : Nat)
  | fn
deriving DecidableEq, Repr

def head : Ty → Head
  | .var v => .var v
  | .named constr ts => .named constr ts.length
  | .fn _ _ => .fn

/-- The type with its parts changed, and with the same outermost level. -/
def mapParts (f : Ty → Ty) : Ty → Ty
  | .var v => .var v
  | .named constr ts => .named constr (ts.map f)
  | .fn d c => .fn (f d) (f c)

theorem head_mapParts (f : Ty → Ty) (t : Ty) : (t.mapParts f).head = t.head := by
  cases t with
  | var v => rfl
  | named constr ts => simp only [mapParts, head, List.length_map]
  | fn d c => rfl

end Ty

namespace Substitution

variable {s : Substitution} {v w : Var} {t : Ty}

theorem resolve_of_ne_var (h : ∀ v, t ≠ .var v) : s.resolve t = t.mapParts s.resolve := by
  cases t with
  | var v => exact absurd rfl (h v)
  | named constr ts => rw [resolve_named, Ty.mapParts]
  | fn d c => rw [resolve_fn, Ty.mapParts]

/-- To resolve a type is to chase it and then to resolve the parts of what was found. -/
theorem Valid.resolve_eq_chase (hs : s.Valid) (t : Ty) : s.resolve t = (s.chase t).mapParts s.resolve := by
  cases t with
  | var v =>
    cases hv : s.lookup v with
    | none =>
      have hchase : s.chase (.var v) = .var (s.root v) := by rw [chase, hv, Option.getD_none]
      rw [hchase, resolve_var_of_unbound hv, Ty.mapParts]
    | some b =>
      have hchase : s.chase (.var v) = b := by rw [chase, hv, Option.getD_some]
      rw [hchase, hs.resolve_var_of_bound hv]
      exact resolve_of_ne_var (hs.bound_not_var v b hv)
  | named constr ts => exact resolve_of_ne_var fun _ => Ty.noConfusion
  | fn d c => exact resolve_of_ne_var fun _ => Ty.noConfusion

theorem Valid.head_resolve (hs : s.Valid) (t : Ty) : (s.resolve t).head = (s.chase t).head := by
  rw [hs.resolve_eq_chase, Ty.head_mapParts]

/-- Of a resolved type, all variables stand for unbound classes, and resolving it again changes nothing;
variables of one class resolve to one type; the outermost level is the one that `chase` finds; and exactly
the unbound classes whose representatives are left in it are found by the occurs check. -/
theorem resolve_normal_form (hs : Reachable s) (ht : t.Over s) :
    (∀ v ∈ (s.resolve t).occurrences, s.Has v ∧ s.root v = v ∧ s.lookup v = none) ∧
    s.resolve (s.resolve t) = s.resolve t ∧
    (∀ v w, s.sameClass v w = true → s.resolve (.var v) = s.resolve (.var w)) ∧
    (s.resolve t).head = (s.chase t).head ∧
    ∀ v, s.occurs v t = true ↔ s.lookup v = none ∧ s.root v ∈ (s.resolve t).vars := by
  refine ⟨fun v hv => ?_, hs.valid.resolve_resolve ht, fun v w hvw => ?_, hs.valid.head_resolve t, fun v => ?_⟩
  · obtain ⟨hhas, hnone, hself⟩ := hs.valid.mem_resolve ht hv
    exact ⟨hhas, hself, hnone⟩
  · exact resolve_var_congr (sameClass_iff.mp hvw)
  · rw [hs.valid.occurs_iff ht, Ty.mem_vars]

/-- `?t0` and `?t1` are linked and `?t2` is bound to `List ?t0`; in `?t2 -> ?t0` the list is found, and the
class of `?t0` by either of its variables. -/
theorem resolve_normal_form_linked :
    let list (v : Var) : Ty := .named "List" [.var v]
    let v₀ : Var := ⟨0, "?t0"⟩
    let v₁ : Var := ⟨1, "?t1"⟩
    let v₂ : Var := ⟨2, "?t2"⟩
    let linked := ((fresh {}).2.fresh.2.fresh.2.unify (.var v₀) (.var v₁)).2
    let s := (linked.unify (.var v₂) (list v₀)).2
    let t := Ty.fn (.var v₂) (.var v₀)
    Reachable s ∧ t.Over s ∧ s.resolve t = .fn (list v₁) (.var v₁) ∧
      s.resolve (.fn (list v₁) (.var v₁)) = .fn (list v₁) (.var v₁) ∧
      s.resolve (.var v₀) = s.resolve (.var v₁) ∧
      (s.resolve (.var v₂)).head = .named "List" 1 ∧
      s.occurs v₀ t = true ∧ s.occurs v₁ t = true ∧ s.occurs v₂ t = false := by
  intro list v₀ v₁ v₂ linked s t
  have hfresh : Reachable (fresh {}).2.fresh.2.fresh.2 :=
    ((Relation.ReflTransGen.single .fresh).tail .fresh).tail .fresh
  have hlinked : Reachable linked := hfresh.tail (.unify (by decide) (by decide))
  have hs : Reachable s := hlinked.tail (.unify (by decide +kernel) (by decide +kernel))
  have ht : t.Over s := by decide +kernel
  have ht₂ : (Ty.var v₂).Over s := by decide +kernel
  have hresolve : s.resolve t = .fn (list v₁) (.var v₁) := by decide +kernel
  have hhead : (s.chase (.var v₂)).head = .named "List" 1 := by decide +kernel
  obtain ⟨-, hagain, hclass, -, hoccurs⟩ := resolve_normal_form hs ht
  have hbound : s.occurs v₂ t = false := by
    rw [Bool.eq_false_iff, ne_eq, hoccurs]
    exact fun h => absurd h.1 (by decide +kernel)
  rw [hresolve] at hagain
  exact ⟨hs, ht, hresolve, hagain, hclass v₀ v₁ (by decide +kernel),
    (resolve_normal_form hs ht₂).2.2.2.1.trans hhead, (hoccurs v₀).mpr (by decide +kernel),
    (hoccurs v₁).mpr (by decide +kernel), hbound⟩

end Substitution
end Clausal
