import Clausal.Eval.Value
import Clausal.Tree.Basic

/-!
Evaluation of reduced trees. A definition sees its own parameters only; a name that is no local is a
definition without arguments, or the definition that a call applies.

Evaluation is a recursion on the tree. What a definition comes to is given to it from outside, and
`apply` ties the knot by counting how deep definitions are nested: an answer of `none` says that the
depth did not suffice, and is neither a value nor an error.
-/
namespace Clausal

/-- Why an evaluation has no value. -/
inductive EvalError where
  | nonExhaustiveMatch (matcher : String)
  | unboundSymbol (name : String)
  | noSuchField (value : Value) (field : String)
  | tagMismatch (expected found : String)
  | notData (value : Value)
  | notBool (value : Value)
  /-- A local is called. -/
  | notCallable (name : String)
  /-- Something other than a name is called. -/
  | notAFunction (value : Value)
  | unappliedBuiltin (b : Builtin)
  | wrongArgumentCount (name : String) (expected found : Nat)
deriving Inhabited, Repr

/-- The wording of a builtin that stands alone. -/
def Builtin.unappliedMessage (b : Builtin) : String :=
  "builtin `" ++ b.identifier ++ "` must be applied"

/-- The outcome of an evaluation: none if the depth did not suffice, else an error or a result. -/
abbrev EvalM := ExceptT EvalError Option

/-- The locals of an evaluation, the innermost first. -/
abbrev Locals := List (String × Value)

/-- What definitions come to. -/
abbrev Apply := String → List Value → EvalM Value

namespace Tree

def asBool : Value → EvalM Bool
  | .literal (.bool b) => return b
  | v => throw (.notBool v)

/-- The constructor and the fields of a value. -/
def asData : Value → EvalM (String × List (String × Value))
  | .data tag fields => return (tag, fields)
  | v => throw (.notData v)

/-- A field of a value, which has to be built with the constructor if one is given. -/
def project (v : Value) (field : String) (tag : Option String) : EvalM Value := do
  let (found, fields) ← asData v
  match tag with
  | some expected =>
    if expected ≠ found then throw (.tagMismatch expected found)
  | none => pure ()
  match fields.lookup field with
  | some fieldValue => return fieldValue
  | none => throw (.noSuchField v field)

mutual

def eval (apply : Apply) (locals : Locals) : Tree → EvalM Value
  | .literal l => return .literal l
  | .symbol n =>
    match locals.lookup n with
    | some v => return v
    | none => apply n []
  | .builtin b => throw (.unappliedBuiltin b)
  | .call (.builtin .and) args => evalAnd apply locals args
  | .call (.builtin .equal) args => do
    return .ofBool (Value.allEqual (← evalAll apply locals args))
  | .call (.symbol n) args =>
    match locals.lookup n with
    | some _ => throw (.notCallable n)
    | none => do apply n (← evalAll apply locals args)
  | .call callee _ => do throw (.notAFunction (← eval apply locals callee))
  | .cond c t e => do
    if ← asBool (← eval apply locals c) then eval apply locals t else eval apply locals e
  | .letIn n value body => do
    let v ← eval apply locals value
    eval apply ((n, v) :: locals) body
  | .access value f tag => do
    project (← eval apply locals value) f tag
  | .isTag value tag => do
    let (found, _) ← asData (← eval apply locals value)
    return .ofBool (found == tag)
  | .fault m => throw (.nonExhaustiveMatch m)

def evalAll (apply : Apply) (locals : Locals) : List Tree → EvalM (List Value)
  | [] => return []
  | t :: ts => do
    let v ← eval apply locals t
    return v :: (← evalAll apply locals ts)

/-- Whether all trees are true; those behind the first false one are not evaluated. -/
def evalAnd (apply : Apply) (locals : Locals) : List Tree → EvalM Value
  | [] => return .ofBool true
  | t :: ts => do
    if ← asBool (← eval apply locals t) then evalAnd apply locals ts else return .ofBool false

end

end Tree

/-- The definitions an evaluation can use, the latest first. -/
structure Interpreter where
  definitions : List Definition := []
deriving Inhabited, Repr

namespace Interpreter

/-- Adds a definition, which takes the place of an earlier one of the same name. -/
def define (i : Interpreter) (d : Definition) : Interpreter :=
  ⟨d :: i.definitions⟩

def definition? (i : Interpreter) (name : String) : Option Definition :=
  i.definitions.find? (·.name == name)

/-- The locals of a definition: its parameters, of two of one name the later one. -/
def parameters (d : Definition) (args : List Value) : Locals :=
  (d.params.zip args).reverse

/-- The definition of a name applied to arguments, definitions nested no deeper than given. -/
def apply (i : Interpreter) : Nat → Apply
  | 0, _, _ => ExceptT.mk none
  | depth + 1, name, args =>
    match i.definition? name with
    | none => throw (.unboundSymbol name)
    | some d =>
      if d.params.length = args.length then
        d.body.eval (i.apply depth) (parameters d args)
      else throw (.wrongArgumentCount name d.params.length args.length)

/-- The value of a tree without locals, definitions nested no deeper than given. -/
def eval (i : Interpreter) (depth : Nat) (t : Tree) : EvalM Value :=
  t.eval (i.apply depth) []

end Interpreter
end Clausal
