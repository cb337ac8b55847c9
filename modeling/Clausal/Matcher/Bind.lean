import Clausal.Matcher.Basic
import Clausal.Pattern.Bind

/-!
Binding a matcher: every clause is given one pattern for each argument, every pattern its place, and
so in each matcher inside the bodies.
-/
namespace Clausal

/-- One pattern for each argument: surplus patterns are dropped, and missing ones ignore their
value. A missing pattern has the source text of the last one there, or of the body. -/
def Pattern.fitTo (arity : Nat) (bodySpan : Span) (ps : List Pattern) : List Pattern :=
  let span := (ps.getLast?.map Pattern.span).getD bodySpan
  ps.take arity ++ List.replicate (arity - ps.length) (.ignore span)

variable (config : Config)

mutual

def Expr.bindMatchers : Expr → Except Violation Expr
  | .literal s l => return .literal s l
  | .name s n => return .name s n
  | .call s callee args => do
    let callee ← Expr.bindMatchers callee
    return .call s callee (← Expr.bindMatchersAll args)
  | .cond s c t e => do
    let c ← Expr.bindMatchers c
    let t ← Expr.bindMatchers t
    return .cond s c t (← Expr.bindMatchers e)
  | .letIn s n ns value body => do
    let value ← Expr.bindMatchers value
    return .letIn s n ns value (← Expr.bindMatchers body)
  | .access s value f fs => do
    return .access s (← Expr.bindMatchers value) f fs
  | .matching s scrutinees m => do
    let scrutinees ← Expr.bindMatchersAll scrutinees
    return .matching s scrutinees (← Matcher.bind m)

def Expr.bindMatchersAll : List Expr → Except Violation (List Expr)
  | [] => return []
  | e :: es => do
    let e ← Expr.bindMatchers e
    return e :: (← Expr.bindMatchersAll es)

/-- Binds the patterns of a matcher to its placeholders, and the matchers inside it. -/
def Matcher.bind : Matcher → Except Violation Matcher
  | ⟨n, ns, params, result, clauses⟩ => do
    return ⟨n, ns, params, result, ← Matcher.bindClauses params clauses⟩

def Matcher.bindClauses (params : List Argument) : List Clause → Except Violation (List Clause)
  | [] => return []
  | ⟨s, ps, body⟩ :: cs => do
    let ps ← Pattern.bindAll config (Pattern.fitTo params.length body.span ps) params
    let body ← Expr.bindMatchers body
    return ⟨s, ps, body⟩ :: (← Matcher.bindClauses params cs)

end

end Clausal
