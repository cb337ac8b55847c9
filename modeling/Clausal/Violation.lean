/-!
What a caller can do wrong. An operation that is used outside its contract stops with a `Violation`;
problems of the program under work are never violations, they are diagnostics.
-/
namespace Clausal

/-- A contract that a caller broke. -/
inductive Violation where
  /-- A pattern that already has its place is bound again. -/
  | boundTwice
  | boundGroup
  | checkedUnbound
  | checkedGroup
  | localOutsideScope
  /-- A reducer is asked about a matcher while it holds none. -/
  | noMatcher
  /-- A clause is filled or closed while none is open. -/
  | noOpenClause
  | clauseAfterEnd
  | clauseInsideClause
  | endInsideClause
  | reducedBeforeEnd
  | reducedUnbound
  | reducedGroup
  | additionOverflow
  | subtractionOverflow
  /-- A variable is used with a substitution that did not make it. -/
  | indexOutOfBounds (size index : Nat)
  /-- A class of variables that has a type is given another one. -/
  | boundAgain
  | boundToVariable
deriving DecidableEq, Repr

def Violation.message : Violation → String
  | .boundTwice => "tried to bind a pattern twice"
  | .boundGroup => "tried to bind an unshuffled pattern"
  | .checkedUnbound => "tried to check an unbound pattern"
  | .checkedGroup => "tried to check an unshuffled pattern"
  | .localOutsideScope => "tried to bind a local outside of any scope"
  | .noMatcher => "no pattern is being reduced"
  | .noOpenClause => "no pattern case is open"
  | .clauseAfterEnd => "tried to add a case to an ended pattern"
  | .clauseInsideClause => "a pattern case is already open"
  | .endInsideClause => "a pattern case is still open"
  | .reducedBeforeEnd => "tried to reduce a pattern before ending it"
  | .reducedUnbound => "tried to reduce an unbound pattern"
  | .reducedGroup => "tried to reduce an unshuffled pattern"
  | .additionOverflow => "attempt to add with overflow"
  | .subtractionOverflow => "attempt to subtract with overflow"
  | .indexOutOfBounds size index =>
    "index out of bounds: the len is " ++ toString size ++ " but the index is " ++ toString index
  | .boundAgain => "tried to rebind a bound type variable"
  | .boundToVariable => "assertion failed: ty.as_var().is_none()"

end Clausal
