import Clausal.Config
import Clausal.Literal

/-!
Values at run time: a literal, or data built with a constructor. Equality is that of the literals,
floating-point numbers compared as numbers, and that of data field by field, in order.
-/
namespace Clausal

inductive Value where
  | literal (l : Literal)
  | data (tag : String) (fields : List (String × Value))
deriving Inhabited, Repr

/-- Equality of literals as values. -/
def Literal.equal : Literal → Literal → Bool
  | .float x, .float y => x.equal y
  | l, l' => l == l'

namespace Value

mutual

def equal : Value → Value → Bool
  | .literal l, .literal l' => l.equal l'
  | .data t fs, .data t' fs' => t == t' && equalFields fs fs'
  | _, _ => false

def equalFields : List (String × Value) → List (String × Value) → Bool
  | [], [] => true
  | (n, v) :: fs, (n', v') :: fs' => n == n' && equal v v' && equalFields fs fs'
  | _, _ => false

end

def ofBool (b : Bool) : Value :=
  .literal (.bool b)

/-- Each value equals the next one. -/
def allEqual : List Value → Bool
  | v :: w :: vs => v.equal w && allEqual (w :: vs)
  | _ => true

/-- Data whose fields are named by position, as patterns project them. -/
def tuple (config : Config) (tag : String) (fields : List Value) : Except Violation Value := do
  return .data tag (← config.nameFields 0 fields)

end Value
end Clausal
