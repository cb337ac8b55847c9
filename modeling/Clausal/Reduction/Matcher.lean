import Clausal.Matcher.Basic
import Clausal.Reduction.Reducer

/-!
Reducing patterns, whole matchers and the expressions around them. The tests of a clause come in the
order of its patterns, a constructor before its fields. The body of a clause is reduced before the
clause is opened, and a matcher inside an expression is bound to its scrutinees by its placeholders.
-/
namespace Clausal

open Reducer

namespace Pattern

def reducedPlace : Option Place → ReduceM Place
  | some place => return place
  | none => throw .reducedUnbound

mutual

/-- Adds the tests and captures of a pattern to the open clause. -/
def reduce : Pattern → ReduceM Unit
  | .ignore _ => return
  | .group _ _ => throw .reducedGroup
  | .capture _ n _ place => do
    assign n (← reducedPlace place)
  | .equal _ e place => do
    require ((← reducedPlace place).equalTest e)
  | .record _ c _ fields place => do
    require ((← reducedPlace place).tagTest c)
    reduceFields fields
  | .tuple _ c _ fields place => do
    require ((← reducedPlace place).tagTest c)
    reduceAll fields

def reduceAll : List Pattern → ReduceM Unit
  | [] => return
  | p :: ps => do
    reduce p
    reduceAll ps

def reduceFields : List FieldPattern → ReduceM Unit
  | [] => return
  | ⟨_, _, p⟩ :: fs => do
    reduce p
    reduceFields fs

end

end Pattern

mutual

def Expr.lower : Expr → ReduceM Tree
  | .literal _ l => return .literal l
  | .name _ n => return .symbol n
  | .call _ callee args => do
    let callee ← callee.lower
    return .call callee (← Expr.lowerAll args)
  | .cond _ c t e => do
    let c ← c.lower
    let t ← t.lower
    return .cond c t (← e.lower)
  | .letIn _ n _ value body => do
    let value ← value.lower
    return .letIn n value (← body.lower)
  | .access _ value f _ => do
    return .access (← value.lower) f none
  | .matching _ scrutinees ⟨name, _, params, _, clauses⟩ => do
    let scrutinees ← Expr.lowerAll scrutinees
    let body ← guarded do
      beginMatcher name
      Matcher.reduceClauses clauses
      endMatcher
      finish
    return .letAll ((params.map (·.name)).zip scrutinees) body

def Expr.lowerAll : List Expr → ReduceM (List Tree)
  | [] => return []
  | e :: es => do
    let e ← e.lower
    return e :: (← Expr.lowerAll es)

/-- Adds clauses to the innermost matcher, from top to bottom. -/
def Matcher.reduceClauses : List Clause → ReduceM Unit
  | [] => return
  | ⟨_, patterns, body⟩ :: clauses => do
    let body ← body.lower
    beginClause body
    Pattern.reduceAll patterns
    endClause
    Matcher.reduceClauses clauses

end

/-- The tree of a matcher. The levels of the reducer are afterwards as they were. -/
def Matcher.reduce (m : Matcher) : ReduceM Tree :=
  guarded do
    beginMatcher m.name
    Matcher.reduceClauses m.clauses
    endMatcher
    finish

end Clausal
