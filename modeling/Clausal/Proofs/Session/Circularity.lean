import Clausal.Proofs.Session.Reachable
import Clausal.Proofs.Session.Totality

/-!
# Reports of circular types

A circular type is reported with the variable that the unifier came to, and with the type as it is resolved
by then, in which every class has its representative. So the class of the variable occurs in the type, in
every report of every run. The variable that is named does so only if it represents its class: where it was
linked to another one before, it is not to be seen in the type that is shown with it.
-/
namespace Clausal

variable {d : Diagnostic} {arity : Nat}

/-! ## The arity check -/

theorem Clause.isLexical_arityReport {c : Clause} (h : d ∈ c.arityReport arity) : d.isLexical = true := by
  rw [arityReport] at h
  split at h
  · cases h
  · rw [List.mem_singleton.mp h]
    rfl

mutual

theorem Expr.isLexical_arityReports : ∀ {e : Expr}, d ∈ e.arityReports → d.isLexical = true
  | .literal _ _, h => by cases h
  | .name _ _, h => by cases h
  | .call _ callee args, h => by
    rw [Expr.arityReports, List.mem_append] at h
    exact h.elim Expr.isLexical_arityReports Expr.isLexical_arityReportsAll
  | .cond _ c t e, h => by
    rw [Expr.arityReports, List.mem_append, List.mem_append] at h
    exact h.elim (·.elim Expr.isLexical_arityReports Expr.isLexical_arityReports) Expr.isLexical_arityReports
  | .letIn _ _ _ value body, h => by
    rw [Expr.arityReports, List.mem_append] at h
    exact h.elim Expr.isLexical_arityReports Expr.isLexical_arityReports
  | .access _ value _ _, h => by
    rw [Expr.arityReports] at h
    exact Expr.isLexical_arityReports h
  | .matching _ scrutinees m, h => by
    rw [Expr.arityReports, List.mem_append] at h
    exact h.elim Expr.isLexical_arityReportsAll Matcher.isLexical_arityReports

theorem Expr.isLexical_arityReportsAll : ∀ {es : List Expr},
    d ∈ Expr.arityReportsAll es → d.isLexical = true
  | [], h => by cases h
  | e :: es, h => by
    rw [Expr.arityReportsAll, List.mem_append] at h
    exact h.elim Expr.isLexical_arityReports Expr.isLexical_arityReportsAll

theorem Matcher.isLexical_arityReports : ∀ {m : Matcher}, d ∈ m.arityReports → d.isLexical = true
  | ⟨_, _, params, _, clauses⟩, h => by
    rw [Matcher.arityReports] at h
    exact Matcher.isLexical_clauseArityReports h

theorem Matcher.isLexical_clauseArityReports : ∀ {cs : List Clause} {arity : Nat},
    d ∈ Matcher.clauseArityReports arity cs → d.isLexical = true
  | [], _, h => by cases h
  | ⟨s, ps, body⟩ :: cs, arity, h => by
    rw [Matcher.clauseArityReports, List.mem_append, List.mem_append] at h
    exact h.elim (·.elim Clause.isLexical_arityReport Expr.isLexical_arityReports)
      Matcher.isLexical_clauseArityReports

end

namespace Session

open Checker Substitution

variable {kept : Set Nat} {s : Session} {s' : Substitution} {ds ds' : List Diagnostic}

/-! ## Runs of the checker -/

/-- What a run of the checker leaves, whether it ends or breaks a contract. -/
def left {α : Type} (s : Session) (check : CheckM α) (ds : List Diagnostic) (scopes : List Scope) : Checker :=
  leftBy (check ⟨s.env, s.config⟩ ⟨s.subst, ds, scopes⟩)

/-- One run of the checker with the substitution of the session, and what it makes of the substitution and of
these reports. The types handed to it are made of variables of the substitution. -/
inductive Checks (s : Session) : List Diagnostic → Substitution → List Diagnostic → Prop where
  | unifyAt {t u span ds scopes c} : t.Over s.subst → u.Over s.subst →
      (∀ scope ∈ scopes, OverAll (scope.map Prod.snd) s.subst) →
      s.left (Checker.unifyAt t u span) ds scopes = c → s.Checks ds c.subst c.diagnostics
  | infer {e ds scopes c} : OverAll e.types s.subst →
      (∀ scope ∈ scopes, OverAll (scope.map Prod.snd) s.subst) →
      s.left (Expr.infer e) ds scopes = c → s.Checks ds c.subst c.diagnostics
  | checkPattern {p ds scopes c} : OverAll p.types s.subst →
      (∀ scope ∈ scopes, OverAll (scope.map Prod.snd) s.subst) →
      s.left (Pattern.check p) ds scopes = c → s.Checks ds c.subst c.diagnostics
  | checkMatcher {m ds scopes c} : OverAll m.types s.subst →
      (∀ scope ∈ scopes, OverAll (scope.map Prod.snd) s.subst) →
      s.left (Matcher.check m) ds scopes = c → s.Checks ds c.subst c.diagnostics
  | compile {m after} : OverAll m.types s.subst → leftBy (Session.compile m s) = after →
      s.Checks s.diagnostics after.subst after.diagnostics

theorem reported_of_keeps {α : Type} {check : CheckM α} {scopes : List Scope}
    {P : α → Substitution → Prop} {J : α → Checker → Prop}
    (h : Keeps ⟨s.env, s.config⟩ kept ⟨s.subst, ds, scopes⟩ check P J) :
    Reported s.subst (s.left check ds scopes).subst ds (s.left check ds scopes).diagnostics :=
  have hleads := Ends.leftBy (I := Leads kept _) h fun _ _ h => h.1
  hleads.logs

theorem reported_arityReports (s' : Substitution) (ds : List Diagnostic) (m : Matcher) :
    Reported s' s' ds (ds ++ m.arityReports) :=
  ⟨m.arityReports, rfl, fun _ hd => (Diagnostic.HoldsAt.of_isLexical (m.isLexical_arityReports hd)).arises⟩

theorem Sound.reported_compile {m : Matcher} (hs : s.Sound) (hm : OverAll m.types s.subst) :
    Reported s.subst (leftBy (Session.compile m s)).subst s.diagnostics
      (leftBy (Session.compile m s)).diagnostics := by
  have harity := reported_arityReports s.subst s.diagnostics m
  cases hbind : m.bind s.config with
  | error v =>
    rw [compile_of_bind_error hbind]
    exact harity
  | ok bound =>
    obtain ⟨d, s', hrun, r, c, hcheck, hsubst, hdiagnostics⟩ := (compile_of_bind_ok hbind).exists_ok
    have hover : OverAll bound.types s.subst := fun t ht => hm t (Matcher.types_bind hbind ht)
    have hregular : Regular ⟨s.env, s.config⟩ { subst := s.subst } := hs.regular (List.forall_mem_nil _)
    obtain ⟨hleads, -⟩ := Ends.of_ok (Matcher.check_keeps bound hregular hover) hcheck
    obtain ⟨new, hnew, harises⟩ := hleads.logs
    rw [hrun, leftBy, hsubst, hdiagnostics, hnew]
    exact harity.trans ⟨new, rfl, harises⟩ .refl hleads.evolves

/-- Whatever a run reports was so at the moment when it did. -/
theorem Checks.reported (h : s.Checks ds s' ds') (hs : s.Sound) : Reported s.subst s' ds ds' := by
  cases h with
  | unifyAt ht hu hscopes hc =>
    rw [← hc]
    exact reported_of_keeps
      (keeps_unifyAt (hs.regular hscopes) (within_empty.mpr ht) (within_empty.mpr hu) _)
  | infer hts hscopes hc =>
    rw [← hc]
    exact reported_of_keeps (Expr.infer_keeps _ (hs.regular hscopes) (withinAll_empty.mpr hts))
  | checkPattern hts hscopes hc =>
    rw [← hc]
    exact reported_of_keeps (Pattern.check_keeps _ (hs.regular hscopes) (withinAll_empty.mpr hts))
  | checkMatcher hts hscopes hc =>
    rw [← hc]
    exact reported_of_keeps (Matcher.check_keeps _ (hs.regular hscopes) hts)
  | compile hm hafter =>
    rw [← hafter]
    exact hs.reported_compile hm

/-- Each report of a circular type that a run adds was made at a moment when the variable that it names was not
bound and its class occurred in the type, which is shown resolved. The variable itself occurs in the type that
is shown exactly if it represented its class then. -/
theorem Reachable.circular_reports (hs : Reachable s) (h : s.Checks ds s' ds') :
    ∃ new, ds' = ds ++ new ∧ ∀ t v span, .circularType t v span ∈ new →
      ∃ s₁, Evolves s.subst s₁ ∧ Evolves s₁ s' ∧ s₁.Circle t v := by
  obtain ⟨new, hnew, harises⟩ := h.reported hs.sound
  exact ⟨new, hnew, fun t v span hd => harises _ hd⟩

/-- Two captures of one type `a`, of which the second one is applied to itself. Its placeholder has `?t1`, which
was linked to `?t0` by then, and the type that is shown has `?t0` alone. -/
theorem circular_reports_linked_captures :
    let capture (n : String) : Pattern := .capture default n (some (.var ⟨0, "a"⟩)) none
    let clause : Clause := ⟨default, [capture "x", capture "y"],
      .call default (.name default "y") [.name default "y"]⟩
    let named : Session := { subst := (Substitution.add {} "a").2 }
    let m := (named.freshMatcher "f" default 2 [clause]).1
    let s := (named.freshMatcher "f" default 2 [clause]).2
    let s' := leftBy (compile m s)
    let t := Ty.fn (.var ⟨1, "?t0"⟩) (.var ⟨4, "?t3"⟩)
    let v : Var := ⟨2, "?t1"⟩
    let report : Diagnostic := .circularType t v default
    Reachable s ∧ s.Checks [] s'.subst s'.diagnostics ∧ s'.diagnostics = [report] ∧
      report.text = "0:0: circular type: `?t1` occurs in `?t0 -> ?t3`" ∧ v ∉ t.vars ∧
      ∃ s₁, Evolves s.subst s₁ ∧ Evolves s₁ s'.subst ∧ s₁.Circle t v := by
  intro capture clause named m s s' t v report
  have hnamed : Reachable named := Reachable.var .refl rfl (by decide)
  have hs : Reachable s := hnamed.tail .freshMatcher
  have hover : OverAll m.types s.subst := by decide
  have hchecks : s.Checks [] s'.subst s'.diagnostics := .compile hover rfl
  have hreports : s'.diagnostics = [report] := by decide +kernel
  have htext : report.text = "0:0: circular type: `?t1` occurs in `?t0 -> ?t3`" := by decide +kernel
  have hunseen : v ∉ t.vars := by decide
  obtain ⟨new, hnew, hcircles⟩ := hs.circular_reports hchecks
  rw [List.nil_append] at hnew
  have hmem : report ∈ new := by
    rw [← hnew, hreports]
    exact List.mem_singleton_self _
  exact ⟨hs, hchecks, hreports, htext, hunseen, hcircles t v default hmem⟩

end Session
end Clausal
