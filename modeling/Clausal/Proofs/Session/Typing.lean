import Clausal.Proofs.Session.Reachable
import Clausal.Proofs.Typing.Totality

/-!
# Matchers without reports are typed

Whatever was done with a session before, a bound matcher that the checker has nothing to report about
has its type by the rules: when the checker is through, and whatever is learned later.
-/
namespace Clausal.Session

open Checker Substitution

variable {s : Session} {m : Matcher} {config : Config} {scopes : List Scope}

/-- The checker comes to an end on a bound matcher, in any scopes; and if it reports nothing, the matcher
is typed from the substitution of the session on, with the type that is given back. -/
theorem Reachable.check_typed (hs : Reachable s) (hm : m.Bound config) (hts : OverAll m.types s.subst)
    (hscopes : ∀ scope ∈ scopes, OverAll (scope.map Prod.snd) s.subst) (ds : List Diagnostic) :
    ∃ ty checked c, m.check ⟨s.env, s.config⟩ ⟨s.subst, ds, scopes⟩ = .ok (ty, checked) c ∧
      (c.diagnostics = ds → ∀ later, Evolves c.subst later →
        MatcherTyped ⟨s.env, s.config⟩ scopes.flatten s.subst m later ∧ later.Same ty m.fnTy) := by
  have hcompletes : Completes ⟨s.env, s.config⟩ ⟨s.subst, ds, scopes⟩ m.check fun _ => True :=
    Matcher.check_completes hm _
  obtain ⟨⟨ty, checked⟩, c, hrun, -⟩ := hcompletes.exists_ok
  have hregular : Regular ⟨s.env, s.config⟩ ⟨s.subst, ds, scopes⟩ := hs.sound.regular hscopes
  obtain ⟨-, -, -, htyped⟩ := Ends.of_ok (Matcher.check_keeps m hregular hts) hrun
  refine ⟨ty, checked, c, hrun, fun hquiet later hlater => ?_⟩
  obtain ⟨hmatcher, hsame⟩ := htyped hquiet
  exact ⟨hmatcher.later hlater, hsame.later hlater⟩

/-- A new session is told of pairs and checks a matcher that looks into one. -/
theorem check_typed_declared_pair :
    let declared := declareConstr {} "Pair" [("first", .constant "Int"), ("second", .constant "Bool")]
    let pair := Pattern.record default "Pair" default [⟨"first", default, .capture default "a" none none⟩,
      ⟨"second", default, .capture default "b" none none⟩] none
    let body := Expr.cond default (.name default "b") (.name default "a") (.literal default (.int 0))
    let m := (declared.freshMatcher "f" default 1 [⟨default, [pair], body⟩]).1
    let s := (declared.freshMatcher "f" default 1 [⟨default, [pair], body⟩]).2
    ∃ bound, m.bind {} = .ok bound ∧ Reachable s ∧ bound.Bound {} ∧ OverAll bound.types s.subst ∧
      ∃ ty checked c, bound.check ⟨s.env, s.config⟩ ⟨s.subst, [], []⟩ = .ok (ty, checked) c ∧
        c.diagnostics = [] ∧ MatcherTyped ⟨s.env, s.config⟩ [] s.subst bound c.subst.fresh.2 ∧
        c.subst.fresh.2.Same ty bound.fnTy := by
  intro declared pair body m s
  have hs : Reachable s := (Relation.ReflTransGen.single (.declareConstr (by decide))).tail .freshMatcher
  have hover : OverAll m.types s.subst := by decide
  have hquiet : (match m.bind {} with
    | .ok bound => (leftBy (bound.check ⟨s.env, s.config⟩ ⟨s.subst, [], []⟩)).diagnostics.isEmpty
    | .error _ => false) = true := by decide +kernel
  cases hbind : m.bind {} with
  | error v =>
    rw [hbind] at hquiet
    cases hquiet
  | ok bound =>
    rw [hbind] at hquiet
    have hbound : bound.Bound {} := Matcher.bind_bound hbind
    have hts : OverAll bound.types s.subst := fun t ht => hover t (Matcher.types_bind hbind ht)
    obtain ⟨ty, checked, c, hrun, htyped⟩ := hs.check_typed hbound hts (List.forall_mem_nil _) []
    have hleft : leftBy (bound.check ⟨s.env, s.config⟩ ⟨s.subst, [], []⟩) = c := congrArg leftBy hrun
    have hnone : c.diagnostics = [] :=
      List.isEmpty_iff.mp ((congrArg (·.diagnostics.isEmpty) hleft).symm.trans hquiet)
    obtain ⟨hmatcher, hsame⟩ := htyped hnone _ (.single .fresh)
    exact ⟨bound, rfl, hs, hbound, hts, ty, checked, c, hrun, hnone, hmatcher, hsame⟩

end Clausal.Session
