import Clausal.Proofs.Matcher.Blocked
import Clausal.Proofs.Session.Reachable
import Clausal.Proofs.Session.Scoping
import Clausal.Proofs.Typing.Strict
import Clausal.Proofs.Typing.Totality

/-!
# When compiling breaks a contract

The passes of a compilation walk a matcher one after another, each on its own. Only binding can break a
contract: what it lets through is checked and reduced to the end, whatever is wrong with names, types
and numbers of patterns. On types that a reachable session knows this includes every access to the table of
variables: the compilation that checks them is the same one.
-/
namespace Clausal.Session

open Checker

variable {s : Session} {m bound : Matcher} {v : Violation}

theorem compile_of_bind_error (h : m.bind s.config = .error v) :
    compile m s = .error v { s with diagnostics := s.diagnostics ++ m.arityReports } := by
  change (ofExcept (m.bind s.config) >>= _) _ = _
  rw [h]
  rfl

/-- Behind binding there is a definition, and the session has what the checker found out and reported. -/
theorem compile_of_bind_ok (h : m.bind s.config = .ok bound) :
    Ends (compile m) s (fun _ s' => ∃ r c, bound.check ⟨s.env, s.config⟩ { subst := s.subst } = .ok r c ∧
      s'.subst = c.subst ∧ s'.diagnostics = s.diagnostics ++ m.arityReports ++ c.diagnostics)
      fun _ => False := by
  have hbound : bound.Bound s.config := Matcher.bind_bound h
  have hcompletes : Completes ⟨s.env, s.config⟩ { subst := s.subst } bound.check fun _ => True :=
    Matcher.check_completes hbound _
  obtain ⟨⟨ty, checked⟩, c, hrun, -⟩ := hcompletes.exists_ok
  let s₁ : Session := { s with diagnostics := s.diagnostics ++ m.arityReports }
  let Done (s' : Session) : Prop :=
    s'.subst = c.subst ∧ s'.diagnostics = s₁.diagnostics ++ c.diagnostics
  refine Ends.mono (P := fun _ => Done) ?_ (fun _ s' h' => ⟨_, c, hrun, h'⟩) fun _ hfalse => hfalse
  have htree (f : Tree → Definition) {s' : Session} (h' : Done s') :
      Ends (do return f (← ofExcept checked.tree)) s' (fun _ => Done) fun _ => False := by
    -- the checker gives back a bound matcher
    rw [tree_eq_lowered ((Matcher.check_bound hrun).mpr hbound)]
    exact h'
  have hreport : Ends (report m.arityReports) s (fun _ s' => s' = s₁) fun _ => False := rfl
  refine hreport.bind fun _ s' h₁ => .bind_get ?_
  subst h₁
  have hbind : Ends (ofExcept (m.bind s.config)) s₁ (fun b s' => b = bound ∧ s' = s₁) fun _ => False := by
    rw [h]
    exact ⟨rfl, rfl⟩
  refine hbind.bind fun b s' h₁ => ?_
  obtain ⟨rfl, rfl⟩ := h₁
  have hcheck : Ends (checkApart b.check) s₁
      (fun r s' => r = ((ty, checked), c.diagnostics) ∧ s' = { s₁ with subst := c.subst }) fun _ => False := by
    rw [Ends, checkApart, hrun]
    exact ⟨rfl, rfl⟩
  refine hcheck.bind fun r s₂ h₂ => ?_
  obtain ⟨rfl, rfl⟩ := h₂
  refine Ends.bind (x := report c.diagnostics) (P := fun _ => Done) ⟨rfl, rfl⟩ fun _ s₃ h₃ => .bind_get ?_
  split
  · exact Ends.bind (x := step _) (P := fun _ => Done) h₃ fun _ s₄ h₄ => htree _ h₄
  · exact htree _ h₃

/-- The passes break a contract exactly if a node that binding reaches stops it, and the contract is then the
one that binding breaks; in all other cases there is a definition. -/
theorem compile_error_iff (s : Session) (m : Matcher) :
    ((∃ v s', compile m s = .error v s') ↔ m.Blocked s.config) ∧
    (∀ v s', compile m s = .error v s' → m.bind s.config = .error v) ∧
    (¬ m.Blocked s.config → ∃ d s', compile m s = .ok d s') := by
  have hiff : Succeeds (m.bind s.config) ↔ ¬ m.Blocked s.config := Matcher.succeeds_bind_iff m
  cases hbind : m.bind s.config with
  | error v =>
    have hrun := compile_of_bind_error hbind
    have hblocked : m.Blocked s.config := by
      by_contra h
      obtain ⟨bound, hok⟩ := hiff.mpr h
      rw [hbind] at hok
      cases hok
    refine ⟨iff_of_true ⟨v, _, hrun⟩ hblocked, fun v' s' h => ?_, fun h => absurd hblocked h⟩
    rw [hrun] at h
    cases h
    rfl
  | ok bound =>
    obtain ⟨d, s', hrun, -⟩ := (compile_of_bind_ok hbind).exists_ok
    have hnot : ¬ ∃ v s', compile m s = .error v s' := by
      rintro ⟨v, s'', h⟩
      rw [hrun] at h
      cases h
    exact ⟨iff_of_false hnot (hiff.mp ⟨bound, hbind⟩), fun v s'' h => absurd ⟨v, s'', h⟩ hnot,
      fun _ => ⟨d, s', hrun⟩⟩

/-- The checks of the bounds make no difference to a matcher of known types. -/
theorem Sound.compileStrict_eq (hs : s.Sound) (hm : OverAll m.types s.subst) :
    compileStrict m s = Session.compile m s := by
  let s₁ : Session := { s with diagnostics := s.diagnostics ++ m.arityReports }
  change (ofExcept (m.bind s.config) >>= _) s₁ = (ofExcept (m.bind s.config) >>= _) s₁
  cases hbind : m.bind s.config with
  | error v => rfl
  | ok bound =>
    have hover : OverAll bound.types s.subst := fun t ht => hm t (Matcher.types_bind hbind ht)
    have hcheck : checkApart bound.checkStrict s₁ = checkApart bound.check s₁ := by
      rw [checkApart, checkApart, Matcher.check_agrees bound (hs.regular (List.forall_mem_nil _)) hover]
    exact run_bind_congr hcheck

/-- In a reachable session the compilation of a matcher whose types the session knows breaks a contract, the
bounds of the table and the assertions on bindings included, exactly if a node that binding reaches stops
it. The contract is then the one that binding breaks; in all other cases there is a definition. -/
theorem Reachable.compileStrict_breaks_iff (hs : Reachable s) (hm : OverAll m.types s.subst) :
    compileStrict m s = compile m s ∧
    ((∃ v s', compileStrict m s = .error v s') ↔ m.Blocked s.config) ∧
    (∀ v s', compileStrict m s = .error v s' → m.bind s.config = .error v) ∧
    (¬ m.Blocked s.config → ∃ d s', compileStrict m s = .ok d s') := by
  have heq := hs.sound.compileStrict_eq hm
  refine ⟨heq, ?_⟩
  rw [heq]
  exact compile_error_iff s m

/-- A new session compiles a matcher whose body matches its argument by a matcher with a group for its one
placeholder: the group stops the compilation. Behind the placeholders it does not, though the name in the
body is not known, the number of patterns is wrong and the argument gets two types. -/
theorem compileStrict_breaks_group :
    let group : Pattern := .group default [.ignore default]
    let inner (ps : List Pattern) : Matcher :=
      ⟨"g", default, [⟨"%arg2", .constant "Int"⟩], .constant "Int", [⟨default, ps, .name default "y"⟩]⟩
    let clause (ps : List Pattern) : Clause := ⟨default,
      [.capture default "x" (some (.constant "Char")) none], .matching default [.name default "x"] (inner ps)⟩
    let made (ps : List Pattern) := Session.freshMatcher {} "f" default 1 [clause ps]
    (∃ s', compileStrict (made [group]).1 (made [group]).2 = .error .boundGroup s') ∧
      ∃ d s', compileStrict (made [.ignore default, group]).1 (made [.ignore default, group]).2 = .ok d s' := by
  intro group inner clause made
  have hreachable (ps : List Pattern) : Reachable (made ps).2 := .single .freshMatcher
  constructor
  · have hover : OverAll (made [group]).1.types (made [group]).2.subst := by decide
    obtain ⟨-, hiff, hbind, -⟩ := (hreachable [group]).compileStrict_breaks_iff hover
    have hblocked : (made [group]).1.Blocked (made [group]).2.config :=
      ⟨group, .tail _ (.head _), group, .head _, trivial⟩
    obtain ⟨v, s', hrun⟩ := hiff.mpr hblocked
    cases hbind v s' hrun
    exact ⟨s', hrun⟩
  · have hover : OverAll (made [.ignore default, group]).1.types
        (made [.ignore default, group]).2.subst := by decide
    have hfree : ¬ (made [.ignore default, group]).1.Blocked (made [.ignore default, group]).2.config :=
      (Matcher.succeeds_bind_iff _).mp ⟨_, rfl⟩
    exact ((hreachable _).compileStrict_breaks_iff hover).2.2.2 hfree

/-- A variable of another substitution is what the bounds are checked for. -/
example : ∃ s', compileStrict ⟨"f", default, [], .var ⟨7, "?t7"⟩, []⟩ {} =
    .error (.indexOutOfBounds 0 7) s' :=
  ⟨_, rfl⟩

end Clausal.Session
