import Clausal.Proofs.Session.Reachable

/-!
# What was found out stays

A session never takes back what it found out about types. Types that were put aside, be it resolved or
not, mean later what they meant with all that was learned in between put in; so reports, signatures and
the types of definitions can be read at any time.
-/
namespace Clausal

namespace Substitution

/-- All that the first substitution says of its variables still holds in the second one. -/
structure AppendOnly (s s' : Substitution) : Prop where
  size_le : s.size ≤ s'.size
  nameOf_eq : ∀ i < s.size, s'.nameOf i = s.nameOf i
  /-- What a name of the program stands for is no new variable, and is the same later. -/
  var?_eq : ∀ name t, s.var? name = .ok (t, s) → s'.var? name = .ok (t, s')
  sameClass : ∀ v w, s.Has v → s.Has w → s.sameClass v w = true → s'.sameClass v w = true
  lookup_eq : ∀ v t, s.lookup v = some t → s'.lookup v = some t
  resolve_resolve : ∀ t : Ty, t.Over s → s'.resolve (s.resolve t) = s'.resolve t

theorem Evolves.appendOnly {s s' : Substitution} (h : Evolves s s') (hs : s.Valid) :
    s.AppendOnly s' := by
  obtain ⟨hs', hgrows⟩ := h.spec hs
  constructor
  case size_le => exact hgrows.size_le
  case nameOf_eq => exact fun i hi => h.nameOf_eq hi
  case var?_eq => exact fun name t hv => h.var?_eq hv
  case sameClass =>
    intro v w hv hw hsame
    exact sameClass_iff.mpr (hgrows.class_eq v w hv hw (sameClass_iff.mp hsame))
  case lookup_eq => exact hgrows.lookup_eq
  case resolve_resolve => exact fun t ht => hgrows.resolve_resolve hs hs' ht

end Substitution

namespace Session

variable {s s' : Session}

/-- Whatever is done with a session, whether it succeeds, reports problems or breaks a contract, only adds
to what its substitution says of the variables there are. -/
theorem Reachable.subst_append_only (hs : Reachable s) (h : Relation.ReflTransGen Action s s') :
    s.subst.AppendOnly s'.subst :=
  have hevolves := (hs.sound.follows_of_actions h).evolves
  hevolves.appendOnly hs.sound.reachable.valid

/-- A session that knows a variable `a` compiles a matcher whose condition is a number, and then fails
to unify `a -> Int` with a constructor. -/
theorem subst_append_only_ill_typed :
    let a : Ty := .var ⟨0, "a"⟩
    let clause : Clause := ⟨default, [.capture default "x" (some a) none],
      .cond default (.literal default (.int 1)) (.name default "x") (.literal default .unit)⟩
    let named : Session := { subst := (Substitution.add {} "a").2 }
    let m := (named.freshMatcher "f" default 1 [clause]).1
    let s := (named.freshMatcher "f" default 1 [clause]).2
    let s₁ := leftBy (compile m s)
    let failed := s₁.subst.unify (.fn a (.constant "Int")) (.constant "Bool")
    let s₂ := { s₁ with subst := failed.2 }
    Reachable s ∧ s₁.diagnostics ≠ [] ∧ failed.1.isUnified = false ∧
      Relation.ReflTransGen Action s s₂ ∧ s.subst.AppendOnly s₂.subst := by
  intro a clause named m s s₁ failed s₂
  have hnamed : Reachable named := Reachable.var .refl rfl (by decide)
  have hs : Reachable s := hnamed.tail .freshMatcher
  have hover : OverAll m.types s.subst := by decide
  have hcompiled : Action s s₁ := .compile hover
  have hknown : a.Over s₁.subst := by decide +kernel
  have hfn : (Ty.fn a (.constant "Int")).Over s₁.subst :=
    Substitution.over_fn.mpr ⟨hknown, Substitution.over_named.mpr nofun⟩
  have hunified : Action s₁ s₂ := .operate (.unify hfn (Substitution.over_named.mpr nofun))
  have hrun : Relation.ReflTransGen Action s s₂ := (Relation.ReflTransGen.single hcompiled).tail hunified
  have hreports : s₁.diagnostics.isEmpty = false := by decide +kernel
  have hfails : failed.1.isUnified = false := by decide +kernel
  refine ⟨hs, fun hnil => ?_, hfails, hrun, hs.subst_append_only hrun⟩
  rw [hnil] at hreports
  cases hreports

end Session
end Clausal
