import Clausal.Pattern.Basic
import Clausal.Tree.Basic

/-!
The reducer takes a matcher apart, clause by clause, and builds one tree from it. It is led by calls:
a matcher is begun, each clause is opened with its body, filled with bindings and conditions, and
closed; then the matcher is ended and reduced. Matchers may be begun inside others, each on a level of
its own. A call out of this order is a violation.

The clauses become a chain of conditionals. A clause without conditions takes every value: it ends
the chain, and the clauses behind it are dropped. Without one the chain ends in a fault.
-/
namespace Clausal

/-- A clause under construction. -/
structure ClauseState where
  /-- What the captures of the clause stand for, the first one outermost. -/
  assignments : List (String × Tree) := []
  /-- What has to hold for the clause to be taken, in the order of testing. -/
  conditions : List Tree := []
  body : Tree
deriving Inhabited, Repr

namespace ClauseState

/-- The body under the captures. -/
def toTree (c : ClauseState) : Tree :=
  .letAll c.assignments c.body

def condition (c : ClauseState) : Tree :=
  match c.conditions with
  | [only] => only
  | all => .call (.builtin .and) all

/-- The chain of conditionals over clauses. -/
def chain (fallback : Tree) : List ClauseState → Tree
  | [] => fallback
  | c :: cs =>
    if c.conditions.isEmpty then c.toTree
    else .cond c.condition c.toTree (chain fallback cs)

end ClauseState

/-- A matcher under construction. -/
structure Level where
  matcher : String
  /-- The closed clauses, in order. -/
  clauses : List ClauseState := []
  opened : Option ClauseState := none
  ended : Bool := false
deriving Inhabited, Repr

def Level.toTree (l : Level) : Tree :=
  ClauseState.chain (.fault l.matcher) l.clauses

/-- The matchers under construction, the innermost first. -/
structure Reducer where
  levels : List Level := []
deriving Inhabited, Repr

/-- A step of reduction. Where it breaks a contract, everything it did before stays. -/
abbrev ReduceM := EStateM Violation Reducer

/-- The tree that computes the value at a place. -/
def Place.toTree : Place → Tree
  | .argument arg _ => .symbol arg.name
  | .field parent name _ => .access parent.toTree name parent.tag?

/-- The tree that computes what an equality pattern compares with. -/
def Expected.toTree : Expected → Tree
  | .literal l => .literal l
  | .name n => .symbol n

/-- The test that the value at a place has this constructor. -/
def Place.tagTest (p : Place) (tag : String) : Tree :=
  .isTag p.toTree tag

/-- The test that the value at a place equals something. -/
def Place.equalTest (p : Place) (e : Expected) : Tree :=
  .call (.builtin .equal) [p.toTree, e.toTree]

namespace Reducer

def depth (r : Reducer) : Nat :=
  r.levels.length

/-- The outermost levels, this many of them. -/
def truncate (r : Reducer) (depth : Nat) : Reducer :=
  ⟨r.levels.drop (r.levels.length - depth)⟩

def top : ReduceM Level := do
  match (← get).levels with
  | [] => throw .noMatcher
  | l :: _ => return l

def setTop (l : Level) : ReduceM Unit :=
  modify fun r => ⟨l :: r.levels.tail⟩

def beginMatcher (name : String) : ReduceM Unit :=
  modify fun r => ⟨{ matcher := name } :: r.levels⟩

def beginClause (body : Tree) : ReduceM Unit := do
  let l ← top
  if l.ended then throw .clauseAfterEnd
  if l.opened.isSome then throw .clauseInsideClause
  setTop { l with opened := some { body := body } }

def onClause (f : ClauseState → ClauseState) : ReduceM Unit := do
  let l ← top
  match l.opened with
  | none => throw .noOpenClause
  | some c => setTop { l with opened := some (f c) }

def assign (name : String) (place : Place) : ReduceM Unit :=
  onClause fun c => { c with assignments := c.assignments ++ [(name, place.toTree)] }

def require (condition : Tree) : ReduceM Unit :=
  onClause fun c => { c with conditions := c.conditions ++ [condition] }

def endClause : ReduceM Unit := do
  let l ← top
  match l.opened with
  | none => throw .noOpenClause
  | some c => setTop { l with opened := none, clauses := l.clauses ++ [c] }

def endMatcher : ReduceM Unit := do
  let l ← top
  if l.opened.isSome then throw .endInsideClause
  setTop { l with ended := true }

/-- Removes the innermost matcher, which has to be ended, and builds its tree. -/
def finish : ReduceM Tree := do
  let l ← top
  modify fun r => ⟨r.levels.tail⟩
  if l.ended then return l.toTree else throw .reducedBeforeEnd

/-- Runs a step and then takes away what it left above the levels that were there before, also where
the step breaks a contract. -/
def guarded {α : Type} (step : ReduceM α) : ReduceM α := fun r =>
  match step r with
  | .ok a r' => .ok a (r'.truncate r.depth)
  | .error v r' => .error v (r'.truncate r.depth)

end Reducer
end Clausal
