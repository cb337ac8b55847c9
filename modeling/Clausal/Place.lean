import Clausal.Ty.Basic

/-!
Where the value under a pattern is found at run time: at the placeholder of an argument, or at a
field of another place. A place also says which constructor its value has been tested for.
-/
namespace Clausal

structure Argument where
  name : String
  ty : Ty
deriving DecidableEq, Inhabited, Repr

/-- The name of the placeholder with this number. No program can spell it, so it is neither the name
of a capture nor of a definition. -/
def placeholderName (number : Nat) : String :=
  "%arg" ++ toString number

/-- Where a value is found, and the constructor it was tested for. -/
inductive Place where
  | argument (arg : Argument) (tag : Option String)
  | field (of : Place) (name : String) (tag : Option String)
deriving DecidableEq, Inhabited, Repr

namespace Place

/-- The place of an argument, not tested yet. -/
def ofArgument (arg : Argument) : Place :=
  .argument arg none

/-- The place of a field, not tested yet. -/
def access (p : Place) (name : String) : Place :=
  .field p name none

/-- The place once its value is known to have this constructor. -/
def tagged (p : Place) (tag : String) : Place :=
  match p with
  | .argument arg _ => .argument arg (some tag)
  | .field q name _ => .field q name (some tag)

def tag? : Place → Option String
  | .argument _ tag => tag
  | .field _ _ tag => tag

def fieldName? : Place → Option String
  | .argument _ _ => none
  | .field _ name _ => some name

end Place
end Clausal
