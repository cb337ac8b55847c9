import Clausal.Literal
import Clausal.Ty.Basic

/-!
The tree that matchers are reduced to: bindings, conditionals, calls, tag tests and projections. A
match that no clause takes is a fault.
-/
namespace Clausal

/-- An operation that is not defined by a program. -/
inductive Builtin where
  | equal
  /-- Conjunction that stops at the first false condition. -/
  | and
deriving DecidableEq, Inhabited, Repr

def Builtin.identifier : Builtin → String
  | .equal => "equal?"
  | .and => "and"

inductive Tree where
  | literal (l : Literal)
  | symbol (name : String)
  | builtin (b : Builtin)
  | call (callee : Tree) (args : List Tree)
  | cond (condition consequence alternative : Tree)
  | letIn (name : String) (value body : Tree)
  /-- A field of a value, which was tested for the constructor if one is given. -/
  | access (value : Tree) (field : String) (tag : Option String)
  /-- The value is built with the constructor. -/
  | isTag (value : Tree) (tag : String)
  /-- No clause of the matcher took the value. -/
  | fault (matcher : String)
deriving Inhabited, Repr

/-- A reduced matcher: a definition with one parameter for each placeholder. -/
structure Definition where
  name : String
  params : List String
  ty : Ty
  body : Tree
deriving Inhabited, Repr

namespace Tree

mutual

def faultCount : Tree → Nat
  | .literal _ => 0
  | .symbol _ => 0
  | .builtin _ => 0
  | .call callee args => faultCount callee + faultCountAll args
  | .cond c t e => faultCount c + faultCount t + faultCount e
  | .letIn _ value body => faultCount value + faultCount body
  | .access value _ _ => faultCount value
  | .isTag value _ => faultCount value
  | .fault _ => 1

def faultCountAll : List Tree → Nat
  | [] => 0
  | t :: ts => faultCount t + faultCountAll ts

end

/-- A body under bindings, the first one outermost. -/
def letAll (bindings : List (String × Tree)) (body : Tree) : Tree :=
  bindings.foldr (fun (name, value) inner => .letIn name value inner) body

end Tree
end Clausal
