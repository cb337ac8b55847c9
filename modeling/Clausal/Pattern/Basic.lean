import Clausal.Literal
import Clausal.Place
import Clausal.Span

/-!
Patterns. A pattern is written without places; binding gives each node the place of the value it is
matched against. A group is a row of patterns whose structure is not settled yet; it can neither be
bound nor checked nor reduced.
-/
namespace Clausal

inductive Expected where
  | literal (l : Literal)
  | name (n : String)
deriving DecidableEq, Inhabited, Repr

mutual

inductive Pattern where
  | ignore (span : Span)
  /-- Matches anything and names it. -/
  | capture (span : Span) (name : String) (ty : Option Ty) (place : Option Place)
  /-- Matches what equals a literal or a named constant. -/
  | equal (span : Span) (expected : Expected) (place : Option Place)
  /-- Matches a constructor, then each of the named fields. -/
  | record (span : Span) (constr : String) (constrSpan : Span) (fields : List FieldPattern)
      (place : Option Place)
  /-- Matches a constructor, then each of the fields by position. -/
  | tuple (span : Span) (constr : String) (constrSpan : Span) (fields : List Pattern)
      (place : Option Place)
  /-- A row of patterns whose structure is not settled. -/
  | group (span : Span) (members : List Pattern)

structure FieldPattern where
  name : String
  nameSpan : Span
  pattern : Pattern

end

deriving instance Inhabited, Repr for Pattern
deriving instance Inhabited, Repr for FieldPattern

namespace Pattern

def span : Pattern → Span
  | .ignore s => s
  | .capture s _ _ _ => s
  | .equal s _ _ => s
  | .record s _ _ _ _ => s
  | .tuple s _ _ _ _ => s
  | .group s _ => s

def withSpan (s : Span) : Pattern → Pattern
  | .ignore _ => .ignore s
  | .capture _ n t p => .capture s n t p
  | .equal _ e p => .equal s e p
  | .record _ c cs fs p => .record s c cs fs p
  | .tuple _ c cs fs p => .tuple s c cs fs p
  | .group _ ms => .group s ms

/-- The place of a pattern. A pattern that ignores its value has none. -/
def place? : Pattern → Option Place
  | .ignore _ => none
  | .capture _ _ _ p => p
  | .equal _ _ p => p
  | .record _ _ _ _ p => p
  | .tuple _ _ _ _ p => p
  | .group _ _ => none

mutual

/-- Every node that looks at its value has a place. -/
def isBound : Pattern → Bool
  | .ignore _ => true
  | .capture _ _ _ p => p.isSome
  | .equal _ _ p => p.isSome
  | .record _ _ _ fs p => p.isSome && fieldsBound fs
  | .tuple _ _ _ fs p => p.isSome && allBound fs
  | .group _ _ => false

def allBound : List Pattern → Bool
  | [] => true
  | p :: ps => isBound p && allBound ps

def fieldsBound : List FieldPattern → Bool
  | [] => true
  | ⟨_, _, p⟩ :: fs => isBound p && fieldsBound fs

end

mutual

/-- No group is left in the pattern. -/
def isSettled : Pattern → Bool
  | .ignore _ => true
  | .capture _ _ _ _ => true
  | .equal _ _ _ => true
  | .record _ _ _ fs _ => fieldsSettled fs
  | .tuple _ _ _ fs _ => allSettled fs
  | .group _ _ => false

def allSettled : List Pattern → Bool
  | [] => true
  | p :: ps => isSettled p && allSettled ps

def fieldsSettled : List FieldPattern → Bool
  | [] => true
  | ⟨_, _, p⟩ :: fs => isSettled p && fieldsSettled fs

end

end Pattern
end Clausal
