import Clausal.Pattern.Basic

/-!
Matchers and the expressions they are made of. A matcher tries its clauses from top to bottom; an
expression may apply a matcher of its own to scrutinees.
-/
namespace Clausal

mutual

inductive Expr where
  | literal (span : Span) (l : Literal)
  | name (span : Span) (n : String)
  | call (span : Span) (callee : Expr) (args : List Expr)
  | cond (span : Span) (condition consequence alternative : Expr)
  | letIn (span : Span) (name : String) (nameSpan : Span) (value body : Expr)
  | access (span : Span) (value : Expr) (field : String) (fieldSpan : Span)
  /-- A matcher applied to scrutinees in place. -/
  | matching (span : Span) (scrutinees : List Expr) (matcher : Matcher)

/-- A row of patterns, and what to do where all of them match. -/
structure Clause where
  span : Span
  patterns : List Pattern
  body : Expr

/-- A definition by clauses, with a placeholder for each argument. -/
structure Matcher where
  name : String
  nameSpan : Span
  params : List Argument
  result : Ty
  clauses : List Clause

end

deriving instance Inhabited, Repr for Expr
deriving instance Inhabited, Repr for Clause
deriving instance Inhabited, Repr for Matcher

namespace Expr

def span : Expr → Span
  | .literal s _ => s
  | .name s _ => s
  | .call s _ _ => s
  | .cond s _ _ _ => s
  | .letIn s _ _ _ _ => s
  | .access s _ _ _ => s
  | .matching s _ _ => s

mutual

/-- The matchers an expression applies, from left to right, without those inside their clauses. -/
def matchers : Expr → List Matcher
  | .literal _ _ => []
  | .name _ _ => []
  | .call _ callee args => matchers callee ++ matchersAll args
  | .cond _ c t e => matchers c ++ matchers t ++ matchers e
  | .letIn _ _ _ value body => matchers value ++ matchers body
  | .access _ value _ _ => matchers value
  | .matching _ scrutinees m => matchersAll scrutinees ++ [m]

def matchersAll : List Expr → List Matcher
  | [] => []
  | e :: es => matchers e ++ matchersAll es

end

end Expr

namespace Matcher

def arity (m : Matcher) : Nat :=
  m.params.length

/-- The type of a matcher as a function of its arguments. -/
def fnTy (m : Matcher) : Ty :=
  .curried (m.params.map (·.ty)) m.result

end Matcher
end Clausal
