import Clausal.Proofs.Session.Reachable
import Clausal.Proofs.Session.Scoping

/-!
# Signatures and the types of definitions

The type of a matcher is unified with a copy of the signature that was declared for its name. The
variables of the copy are like all others and may come to stand for any type, so a definition without
reports has an instance of its signature, which may be less general. The signature stays as it was
declared: callers may use it where the definition was not checked for.
-/
namespace Clausal.Session

open Substitution

variable {s s' : Session} {m : Matcher} {d : Definition} {signature : Ty}

/-- The type of a definition that nothing was reported about comes from its signature, as that was
resolved before, by putting types in for its variables; constructor arguments do not count. It is as
general as the signature exactly if this only renames the variables, and the same if there are none. The
signature is what it was. -/
theorem Reachable.compile_instance_of_signature (hs : Reachable s) (hm : OverAll m.types s.subst)
    (hsignature : s.env.global? m.name = some signature) (h : compile m s = .ok d s')
    (hquiet : s'.diagnostics = s.diagnostics) :
    ∃ f, d.ty.erased = (s.subst.skeleton signature).bindVars f ∧
      ((∃ g, d.ty.erased.bindVars g = s.subst.skeleton signature) ↔
        (s.subst.skeleton signature).Renames f) ∧
      ((s.subst.skeleton signature).isConcrete = true → d.ty.erased = s.subst.skeleton signature) ∧
      s'.env = s.env := by
  obtain ⟨bound, ty, checked, c, hbound, hchecked, -, -, hds, hty, henv⟩ := exists_of_compile h
  rw [hquiet, List.append_assoc, List.self_eq_append_right, List.append_eq_nil_iff] at hds
  have hname : checked.name = m.name := (Matcher.check_name hchecked).trans (Matcher.bind_name hbound)
  have hover : OverAll bound.types s.subst := fun t ht => hm t (Matcher.types_bind hbound ht)
  have hregular : Checker.Regular ⟨s.env, s.config⟩ { subst := s.subst } :=
    hs.sound.regular (List.forall_mem_nil _)
  obtain ⟨-, -, -, htyped⟩ := Ends.of_ok (Matcher.check_keeps bound hregular hover) hchecked
  obtain ⟨⟨start, -, hinstance, hclauses⟩, -⟩ := htyped hds.2
  -- the copy that the type was unified with, seen when all is checked
  have hdeclared : signature ∈ s.env.global? bound.name := by
    rw [Matcher.bind_name hbound]
    exact hsignature
  obtain ⟨copy, hcopy, hsame⟩ := hinstance signature hdeclared
  obtain ⟨f, hf⟩ := hcopy.exists_skeleton_eq c.subst
  obtain ⟨clauses, c₁, -, hresolved, -⟩ := Matcher.exists_of_check hchecked
  have heq : d.ty.erased = (s.subst.skeleton signature).bindVars f := by
    rw [hty, hresolved, ← skeleton, ← hsame c.subst hclauses.evolves]
    exact hf
  refine ⟨f, heq, ?_, fun hconcrete => ?_, henv ?_⟩
  · rw [heq]
    exact Ty.exists_bindVars_eq_iff_renames
  · have hnone : (s.subst.skeleton signature).occurrences = [] := List.isEmpty_iff.mp hconcrete
    rw [heq]
    refine Ty.bindVars_eq_self fun v hv => ?_
    rw [hnone] at hv
    cases hv
  · rw [hname, hsignature]
    rfl

/-- A session in which `f` has the signature `a -> a` compiles a clause for it that gives its argument
back: the type is as general as the signature. -/
theorem compile_instance_of_signature_identity :
    let a : Ty := .var ⟨0, "a"⟩
    let named : Session := { subst := (Substitution.add {} "a").2 }
    let declared := (named.declareGlobal "f" (.fn a a)).2
    let clause : Clause := ⟨default, [.capture default "x" none none], .name default "x"⟩
    let m := (declared.freshMatcher "f" default 1 [clause]).1
    let s := (declared.freshMatcher "f" default 1 [clause]).2
    ∃ d s', compile m s = .ok d s' ∧ s'.diagnostics = s.diagnostics ∧ s'.env = s.env ∧
      ∃ g, d.ty.erased.bindVars g = s.subst.skeleton (.fn a a) := by
  intro a named declared clause m s
  have hnamed : Reachable named := Reachable.var .refl rfl (by decide)
  have hs : Reachable s := (hnamed.tail (.declareGlobal (by decide))).tail .freshMatcher
  have hm : OverAll m.types s.subst := by decide
  have hquiet : (match compile m s with
    | .ok d s' => s'.diagnostics.isEmpty && d.ty == .fn (.var ⟨1, "?t0"⟩) (.var ⟨1, "?t0"⟩)
    | .error _ _ => false) = true := by decide +kernel
  cases hrun : compile m s with
  | error v s' =>
    rw [hrun] at hquiet
    cases hquiet
  | ok d s' =>
    rw [hrun, Bool.and_eq_true, beq_iff_eq] at hquiet
    obtain ⟨hnone, hty⟩ := hquiet
    have hsame : s'.diagnostics = s.diagnostics := List.isEmpty_iff.mp hnone
    obtain ⟨f, heq, hiff, -, henv⟩ := hs.compile_instance_of_signature hm rfl hrun hsame
    refine ⟨d, s', rfl, hsame, henv, hiff.mpr ?_⟩
    have hskeleton : s.subst.skeleton (.fn a a) = .fn a a := by decide +kernel
    rw [hskeleton, hty, Ty.bindVars_fn, Ty.bindVars_var] at heq
    have hf : f ⟨0, "a"⟩ = .var ⟨1, "?t0"⟩ := (Ty.fn.inj heq).1.symm
    rw [hskeleton]
    intro v hv
    have hva : v = ⟨0, "a"⟩ := by simpa [a] using hv
    refine ⟨⟨⟨1, "?t0"⟩, hva ▸ hf⟩, fun v' hv' _ => ?_⟩
    have hva' : v' = ⟨0, "a"⟩ := by simpa [a] using hv'
    exact hva.trans hva'.symm

/-- Nothing is reported about a clause `_ -> 1` for a name with the signature `a -> a`, and no types put in
for the variables of the type that is found make the signature of it, whatever its variable is called. -/
theorem exists_quiet_compile_less_general :
    let a : Ty := .var ⟨0, "a"⟩
    let named : Session := { subst := (Substitution.add {} "a").2 }
    let declared := (named.declareGlobal "f" (.fn a a)).2
    let clause : Clause := ⟨default, [.ignore default], .literal default (.int 1)⟩
    let m := (declared.freshMatcher "f" default 1 [clause]).1
    let s := (declared.freshMatcher "f" default 1 [clause]).2
    Reachable s ∧ OverAll m.types s.subst ∧ s.env.global? m.name = some (.fn a a) ∧
      ∃ d s', compile m s = .ok d s' ∧ s'.diagnostics = s.diagnostics ∧
        ∀ (g : Var → Ty) (rename : Var → Var),
          d.ty.erased.bindVars g ≠ (s.subst.skeleton (.fn a a)).bindVars fun v => .var (rename v) := by
  intro a named declared clause m s
  have hnamed : Reachable named := Reachable.var .refl rfl (by decide)
  have hs : Reachable s := (hnamed.tail (.declareGlobal (by decide))).tail .freshMatcher
  have hquiet : (match compile m s with
    | .ok d s' => s'.diagnostics.isEmpty && d.ty == .fn (.constant "Int") (.constant "Int")
    | .error _ _ => false) = true := by decide +kernel
  refine ⟨hs, by decide, rfl, ?_⟩
  cases hrun : compile m s with
  | error v s' =>
    rw [hrun] at hquiet
    cases hquiet
  | ok d s' =>
    rw [hrun, Bool.and_eq_true, beq_iff_eq] at hquiet
    obtain ⟨hnone, hty⟩ := hquiet
    refine ⟨d, s', rfl, List.isEmpty_iff.mp hnone, fun g rename heq => ?_⟩
    have hskeleton : s.subst.skeleton (.fn a a) = .fn a a := by decide +kernel
    rw [hskeleton, hty, Ty.erased, Ty.bindVars_fn, Ty.bindVars_fn] at heq
    have hdomain := (Ty.fn.inj heq).1
    rw [Ty.constant, Ty.erased, Ty.bindVars_named, Ty.bindVars_var] at hdomain
    cases hdomain

end Clausal.Session
