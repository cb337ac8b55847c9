import Clausal.Eval.Interpreter
import Clausal.Proofs.Pattern.Steps
import Clausal.Matcher.Basic

/-!
# The meaning of matchers

What a program means, read off its syntax without places, trees or placeholders. The first clause
whose patterns accept the arguments is taken; its body is evaluated under what its patterns capture.

The value under a pattern is handed down as an evaluation, since a field is projected only where a
pattern looks at it: a pattern that ignores a field is content with data that lacks it.
-/
namespace Clausal

/-- A field of the value that an evaluation gives. -/
def projected (subject : EvalM Value) (field : String) : EvalM Value := do
  Tree.project (← subject) field none

section

variable (config : Config) (apply : Apply)

/-- The value of a name: that of the innermost local, else of the definition. -/
def Locals.valueOf (locals : Locals) (n : String) : EvalM Value :=
  match locals.lookup n with
  | some v => return v
  | none => apply n []

/-- The value that an equality pattern compares with. -/
def Expected.value (locals : Locals) : Expected → EvalM Value
  | .literal l => return .literal l
  | .name n => locals.valueOf apply n

namespace Pattern

mutual

/-- Whether all tests of a pattern are true, in pre-order up to the first one that is not. -/
def accepts (locals : Locals) : Pattern → EvalM Value → EvalM Bool
  | .ignore _, _ => return true
  | .capture _ _ _ _, _ => return true
  | .equal _ e _, subject => do
    let found ← subject
    return found.equal (← e.value apply locals)
  | .record _ c _ fields _, subject => do
    let (tag, _) ← Tree.asData (← subject)
    if tag = c then fieldsAccept locals fields subject else return false
  | .tuple _ c _ fields _, subject => do
    let (tag, _) ← Tree.asData (← subject)
    if tag = c then positionsAccept locals 0 fields subject else return false
  | .group _ _, _ => return true

/-- Whether the patterns of named fields accept the fields of a value. -/
def fieldsAccept (locals : Locals) : List FieldPattern → EvalM Value → EvalM Bool
  | [], _ => return true
  | ⟨n, _, p⟩ :: fs, subject => do
    if ← accepts locals p (projected subject n) then fieldsAccept locals fs subject else return false

/-- Whether patterns accept the fields of a value from the given position on. -/
def positionsAccept (locals : Locals) : Nat → List Pattern → EvalM Value → EvalM Bool
  | _, [], _ => return true
  | position, p :: ps, subject => do
    if ← accepts locals p (projected subject (config.fieldName position)) then
      positionsAccept locals (position + 1) ps subject
    else return false

end

/-- Whether patterns accept values, from left to right. -/
def allAccept (locals : Locals) : List Pattern → List Value → EvalM Bool
  | p :: ps, v :: vs => do
    if ← p.accepts config apply locals (return v) then allAccept locals ps vs else return false
  | _, _ => return true

mutual

/-- What a pattern captures of its value, the latest capture first. -/
def captured : Pattern → EvalM Value → EvalM Locals
  | .ignore _, _ => return []
  | .capture _ n _ _, subject => do
    return [(n, ← subject)]
  | .equal _ _ _, _ => return []
  | .record _ _ _ fields _, subject => fieldsCaptured fields subject
  | .tuple _ _ _ fields _, subject => positionsCaptured 0 fields subject
  | .group _ _, _ => return []

/-- What the patterns of named fields capture, the latest capture first. -/
def fieldsCaptured : List FieldPattern → EvalM Value → EvalM Locals
  | [], _ => return []
  | ⟨n, _, p⟩ :: fs, subject => do
    let first ← captured p (projected subject n)
    return (← fieldsCaptured fs subject) ++ first

/-- What patterns capture of fields from the given position on, the latest capture first. -/
def positionsCaptured : Nat → List Pattern → EvalM Value → EvalM Locals
  | _, [], _ => return []
  | position, p :: ps, subject => do
    let first ← captured p (projected subject (config.fieldName position))
    return (← positionsCaptured (position + 1) ps subject) ++ first

end

/-- What patterns capture of values, the latest capture first. -/
def allCaptured : List Pattern → List Value → EvalM Locals
  | p :: ps, v :: vs => do
    let first ← p.captured config (return v)
    return (← allCaptured ps vs) ++ first
  | _, _ => return []

end Pattern

mutual

/-- The value of an expression. -/
def Expr.eval (locals : Locals) : Expr → EvalM Value
  | .literal _ l => return .literal l
  | .name _ n => locals.valueOf apply n
  | .call _ (.name _ n) args =>
    match locals.lookup n with
    | some _ => throw (.notCallable n)
    | none => do apply n (← Expr.evalAll locals args)
  | .call _ callee _ => do throw (.notAFunction (← callee.eval locals))
  | .cond _ c t e => do
    if ← Tree.asBool (← c.eval locals) then t.eval locals else e.eval locals
  | .letIn _ n _ value body => do
    let v ← value.eval locals
    body.eval ((n, v) :: locals)
  | .access _ value f _ => projected (value.eval locals) f
  | .matching _ scrutinees ⟨name, _, _, _, clauses⟩ => do
    Matcher.select locals name clauses (← Expr.evalAll locals scrutinees)

/-- The values of expressions, from left to right. -/
def Expr.evalAll (locals : Locals) : List Expr → EvalM (List Value)
  | [] => return []
  | e :: es => do
    let v ← e.eval locals
    return v :: (← Expr.evalAll locals es)

/-- The value of the first clause that takes the arguments. -/
def Matcher.select (locals : Locals) (name : String) : List Clause → List Value → EvalM Value
  | [], _ => throw (.nonExhaustiveMatch name)
  | ⟨_, patterns, body⟩ :: clauses, args => do
    if ← Pattern.allAccept config apply locals patterns args then
      body.eval ((← Pattern.allCaptured config patterns args) ++ locals)
    else Matcher.select locals name clauses args

end

end

/-- Matchers that can use each other, the latest first. -/
structure Program where
  matchers : List Matcher

/-- The matcher of a name applied to arguments, matchers nested no deeper than given. -/
def Program.apply (p : Program) (config : Config) : Nat → Apply
  | 0, _, _ => ExceptT.mk none
  | depth + 1, name, args =>
    match p.matchers.find? (·.name == name) with
    | none => throw (.unboundSymbol name)
    | some m =>
      if m.arity = args.length then
        Matcher.select config (p.apply config depth) [] m.name m.clauses args
      else throw (.wrongArgumentCount name m.arity args.length)

end Clausal
