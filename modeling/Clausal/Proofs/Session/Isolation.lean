import Clausal.Proofs.Session.Reachable

/-!
# Signatures do not leak

A compilation finds out nothing about the variables of a declared type, unless the matcher mentions them
itself: each use of a global or of a field gets a copy, the signature of the matcher included. So a
signature says to all later matchers what it said when it was declared, whatever was compiled in between
and whatever was wrong with it.
-/
namespace Clausal.Session

open Substitution

variable {s : Session} {m : Matcher} {u : Ty}

/-- Whatever becomes of a compilation, a declared type that shares no variable with the types of the
matcher resolves to what it did before, and its variables are unbound and in their old classes. -/
theorem Reachable.compile_isolates (hs : Reachable s) (hm : OverAll m.types s.subst)
    (hu : s.env.Declares u)
    (hapart : ∀ t ∈ m.types, ∀ v ∈ (s.subst.resolve t).occurrences, v ∉ (s.subst.resolve u).occurrences) :
    (leftBy (compile m s)).subst.resolve u = s.subst.resolve u ∧
    ∀ v ∈ (s.subst.resolve u).occurrences, (leftBy (compile m s)).subst.lookup v = none ∧
      ∀ w, (leftBy (compile m s)).subst.sameClass w v = s.subst.sameClass w v := by
  have hvalid : s.subst.Valid := hs.sound.reachable.valid
  have hover : u.Over s.subst := hs.sound.declared u hu
  have hwithin : WithinAll (s.subst.leftIn u) m.types s.subst := fun t ht =>
    ⟨hm t ht, hvalid.avoids_leftIn (hm t ht) hover (hapart t ht)⟩
  have hfollows : Follows (s.subst.leftIn u) s (leftBy (compile m s)) :=
    (hs.sound.compile (hvalid.leftIn_lt hover) hwithin).leftBy fun _ _ h => h
  refine ⟨hfollows.spares.resolve_eq hfollows.evolves hvalid hover fun v hv => ⟨v, hv, rfl⟩, ?_⟩
  intro v hv
  obtain ⟨-, hnone, hself⟩ := hvalid.mem_resolve hover hv
  have hindex : s.subst.rootIndex v = v.index := congrArg Var.index hself
  have hmem : s.subst.rootIndex v ∈ s.subst.leftIn u := ⟨v, hv, hindex.symm⟩
  exact ⟨(hfollows.spares.lookup_eq v hmem).trans hnone, hfollows.spares.sameClass_eq hmem⟩

/-- A session in which `g` has the signature `a -> a` compiles a matcher that uses `g` on a number in one
clause and on the unit value in the next: the type of the result is found, the difference reported, and
nothing is found out about `a`. -/
theorem compile_isolates_generic_global :
    let a : Ty := .var ⟨0, "a"⟩
    let named : Session := { subst := (Substitution.add {} "a").2 }
    let declared := (named.declareGlobal "g" (.fn a a)).2
    let use (l : Literal) : Expr := .call default (.name default "g") [.literal default l]
    let clauses : List Clause := [⟨default, [.ignore default], use (.int 1)⟩,
      ⟨default, [.ignore default], use .unit⟩]
    let m := (declared.freshMatcher "f" default 1 clauses).1
    let s := (declared.freshMatcher "f" default 1 clauses).2
    let s' := leftBy (compile m s)
    Reachable s ∧ s.env.Declares (.fn a a) ∧ s'.diagnostics.length = 1 ∧
      s'.subst.resolve m.result = .constant "Int" ∧
      s'.subst.resolve (.fn a a) = s.subst.resolve (.fn a a) ∧ s'.subst.lookup ⟨0, "a"⟩ = none := by
  intro a named declared use clauses m s s'
  have hnamed : Reachable named := Reachable.var .refl rfl (by decide)
  have hsignature : (Ty.fn a a).Over named.subst := by decide
  have hs : Reachable s := (hnamed.tail (.declareGlobal hsignature)).tail .freshMatcher
  have hm : OverAll m.types s.subst := by decide
  have hu : s.env.Declares (.fn a a) := .global (n := "g") rfl
  have hapart : ∀ t ∈ m.types, ∀ v ∈ (s.subst.resolve t).occurrences,
      v ∉ (s.subst.resolve (.fn a a)).occurrences := by decide +kernel
  obtain ⟨hresolve, hclasses⟩ := hs.compile_isolates hm hu hapart
  have hmem : ⟨0, "a"⟩ ∈ (s.subst.resolve (.fn a a)).occurrences := by decide +kernel
  have hreports : s'.diagnostics.length = 1 := by decide +kernel
  have hresult : s'.subst.resolve m.result = .constant "Int" := by decide +kernel
  exact ⟨hs, hu, hreports, hresult, hresolve, (hclasses _ hmem).1⟩

end Clausal.Session
