import Clausal.Violation

/-!
Settings of a session: how the fields of a constructor are named by position, how the type of a
destructured value is named, and whether an undeclared constructor is worth a report.
-/
namespace Clausal

structure Config where
  /-- A destructured value with `n` fields has the type of this name followed by `n`. -/
  tupleTypePrefix : String := "Tuple"
  /-- A field by position has this name followed by its number. -/
  tupleFieldPrefix : String := "_"
  tupleFieldBase : UInt64 := 0
  /-- Destructuring an undeclared constructor is reported. -/
  reportUndeclaredConstrs : Bool := true
deriving DecidableEq, Inhabited, Repr

namespace Config

/-- The name of the field at a position, counted from zero. Numbers of fields are 64-bit words. -/
def positionalField (config : Config) (position : Nat) : Except Violation String :=
  let number := config.tupleFieldBase.toNat + position
  if number < UInt64.size then .ok (config.tupleFieldPrefix ++ toString number)
  else .error .additionOverflow

/-- The name of the type of a destructured value with this many fields. -/
def tupleTypeName (config : Config) (fields : Nat) : String :=
  config.tupleTypePrefix ++ toString fields

/-- Names things by position, the first at the given one. -/
def nameFields {α : Type} (config : Config) : Nat → List α → Except Violation (List (String × α))
  | _, [] => return []
  | position, a :: as => do
    let name ← config.positionalField position
    return (name, a) :: (← config.nameFields (position + 1) as)

end Config
end Clausal
