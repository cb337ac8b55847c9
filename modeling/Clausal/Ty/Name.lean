import Clausal.Text.LetterCase
import Clausal.Ty.Basic

/-!
Which names may stand in a type. A constructor name is upper case and may be qualified: of
`Prelude.Option` the last segment counts. A variable name is lower case.
-/
namespace Clausal

inductive NameError where
  | empty
  | notUppercase (name : String)
  | notLowercase (name : String)
deriving DecidableEq, Repr

def NameError.message : NameError → String
  | .empty => "type names cannot be empty"
  | .notUppercase name => "type constructor names must be uppercase, found `" ++ name ++ "`"
  | .notLowercase name =>
    "type variable names must start with a lowercase letter, found `" ++ name ++ "`"

/-- What stands behind the last dot, or all if there is none. -/
def lastSegment (name : List Char) : List Char :=
  (name.reverse.takeWhile (· != '.')).reverse

/-- A constructor name: its last segment starts with an uppercase character. -/
def checkConstrName (name : String) : Except NameError Unit :=
  match lastSegment name.toList with
  | [] => .error .empty
  | c :: _ => if Text.isUppercase c then .ok () else .error (.notUppercase name)

/-- A variable name: it starts with a lowercase character. -/
def checkVarName (name : String) : Except NameError Unit :=
  match name.toList with
  | [] => .error .empty
  | c :: _ => if Text.isLowercase c then .ok () else .error (.notLowercase name)

/-- A constructor applied to arguments, its name checked. -/
def Ty.named? (constr : String) (args : List Ty) : Except NameError Ty := do
  checkConstrName constr
  return .named constr args

end Clausal
