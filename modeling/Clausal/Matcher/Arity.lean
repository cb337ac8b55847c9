import Clausal.Diagnostic
import Clausal.Matcher.Basic

/-!
The arity check: which clauses have another number of patterns than their matcher has arguments.
Reports come in source order, a clause before the matchers in its body.
-/
namespace Clausal

/-- The report on a clause of a matcher with this arity, if its patterns do not fit. -/
def Clause.arityReport (arity : Nat) (c : Clause) : List Diagnostic :=
  if c.patterns.length = arity then []
  else [.arityMismatch arity c.patterns.length c.span]

mutual

def Expr.arityReports : Expr → List Diagnostic
  | .literal _ _ => []
  | .name _ _ => []
  | .call _ callee args => callee.arityReports ++ Expr.arityReportsAll args
  | .cond _ c t e => c.arityReports ++ t.arityReports ++ e.arityReports
  | .letIn _ _ _ value body => value.arityReports ++ body.arityReports
  | .access _ value _ _ => value.arityReports
  | .matching _ scrutinees m => Expr.arityReportsAll scrutinees ++ m.arityReports

def Expr.arityReportsAll : List Expr → List Diagnostic
  | [] => []
  | e :: es => e.arityReports ++ Expr.arityReportsAll es

/-- The reports on a matcher and on the matchers inside it. -/
def Matcher.arityReports : Matcher → List Diagnostic
  | ⟨_, _, params, _, clauses⟩ => Matcher.clauseArityReports params.length clauses

def Matcher.clauseArityReports (arity : Nat) : List Clause → List Diagnostic
  | [] => []
  | ⟨s, ps, body⟩ :: cs =>
    Clause.arityReport arity ⟨s, ps, body⟩ ++ body.arityReports ++ Matcher.clauseArityReports arity cs

end

end Clausal
