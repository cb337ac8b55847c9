import Clausal.Config
import Clausal.Pattern.Basic

/-!
Binding patterns to places. A constructor pattern marks its place as tested for the constructor, and
each field is found at a projection of that place.
-/
namespace Clausal.Pattern

variable (config : Config)

mutual

/-- Gives every node of the pattern its place, the root the given one. -/
def bind : Pattern → Place → Except Violation Pattern
  | .ignore s, _ => return .ignore s
  | .group _ _, _ => throw .boundGroup
  | .capture s n t none, place => return .capture s n t (some place)
  | .capture _ _ _ (some _), _ => throw .boundTwice
  | .equal s e none, place => return .equal s e (some place)
  | .equal _ _ (some _), _ => throw .boundTwice
  | .record s c cs fields none, place => do
    let fields ← bindFields (place.tagged c) fields
    return .record s c cs fields (some (place.tagged c))
  | .record _ _ _ _ (some _), _ => throw .boundTwice
  | .tuple s c cs fields none, place => do
    let fields ← bindPositions (place.tagged c) 0 fields
    return .tuple s c cs fields (some (place.tagged c))
  | .tuple _ _ _ _ (some _), _ => throw .boundTwice

def bindFields (parent : Place) : List FieldPattern → Except Violation (List FieldPattern)
  | [] => return []
  | ⟨n, ns, p⟩ :: fs => do
    let p ← bind p (parent.access n)
    return ⟨n, ns, p⟩ :: (← bindFields parent fs)

/-- Binds patterns to the fields of a place from the given position on. -/
def bindPositions (parent : Place) : Nat → List Pattern → Except Violation (List Pattern)
  | _, [] => return []
  | position, p :: ps => do
    let name ← config.positionalField position
    let p ← bind p (parent.access name)
    return p :: (← bindPositions parent (position + 1) ps)

end

/-- Binds each pattern to the placeholder at its position. -/
def bindAll : List Pattern → List Argument → Except Violation (List Pattern)
  | p :: ps, a :: as => do
    let p ← bind config p (.ofArgument a)
    return p :: (← bindAll ps as)
  | _, _ => return []

end Clausal.Pattern
