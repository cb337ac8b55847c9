import Clausal.Eval.Interpreter

/-!
The interpreter with its locals on one stack that is kept from request to request. A binding is pushed
and popped, and an applied definition sets the whole stack aside for one of its own. An error leaves the
stack as it stands where the error is raised; what has to be put right on the way out is put right there,
and only there.
-/
namespace Clausal

/-- An evaluation on the stack of locals, the innermost first: none if the depth did not suffice, else
an error or a result, and the stack left behind in either case. -/
abbrev StackM := ExceptT EvalError (StateT Locals Option)

/-- What definitions come to, applied over a stack. -/
abbrev StackApply := String → List Value → StackM Value

namespace StackM

variable {α : Type}

/-- The outcome and the stack behind it. -/
def on (m : StackM α) (stack : Locals) : Option (Except EvalError α × Locals) :=
  m.run.run stack

/-- What does not touch the stack. -/
def ofEval (m : EvalM α) : StackM α :=
  ExceptT.mk fun stack => m.run.map (·, stack)

/-- Holds back an error for as long as the stack has to be put right. -/
def attempt (m : StackM α) : StackM (Except EvalError α) :=
  ExceptT.mk (Except.ok <$> m.run)

def lookup (n : String) : StackM (Option Value) :=
  return (← get).lookup n

def push (n : String) (v : Value) : StackM Unit :=
  modify ((n, v) :: ·)

def pop : StackM Unit :=
  modify List.tail

/-- Empties the stack and gives what was on it. -/
def take : StackM Locals :=
  modifyGet (·, [])

end StackM

namespace Tree

open StackM

mutual

def evalOn (apply : StackApply) : Tree → StackM Value
  | .literal l => return .literal l
  | .symbol n => do
    match ← lookup n with
    | some v => return v
    | none => apply n []
  | .builtin b => throw (.unappliedBuiltin b)
  | .call (.builtin .and) args => evalAndOn apply args
  | .call (.builtin .equal) args => do
    return .ofBool (Value.allEqual (← evalAllOn apply args))
  | .call (.symbol n) args => do
    match ← lookup n with
    | some _ => throw (.notCallable n)
    | none => do apply n (← evalAllOn apply args)
  | .call callee _ => do throw (.notAFunction (← evalOn apply callee))
  | .cond c t e => do
    if ← ofEval (asBool (← evalOn apply c)) then evalOn apply t else evalOn apply e
  | .letIn n value body => do
    let v ← evalOn apply value
    push n v
    let result ← attempt (evalOn apply body)
    pop
    MonadExcept.ofExcept result
  | .access value f tag => do
    ofEval (project (← evalOn apply value) f tag)
  | .isTag value tag => do
    let (found, _) ← ofEval (asData (← evalOn apply value))
    return .ofBool (found == tag)
  | .fault m => throw (.nonExhaustiveMatch m)

def evalAllOn (apply : StackApply) : List Tree → StackM (List Value)
  | [] => return []
  | t :: ts => do
    let v ← evalOn apply t
    return v :: (← evalAllOn apply ts)

def evalAndOn (apply : StackApply) : List Tree → StackM Value
  | [] => return .ofBool true
  | t :: ts => do
    if ← ofEval (asBool (← evalOn apply t)) then evalAndOn apply ts else return .ofBool false

end

end Tree

namespace Interpreter

open StackM

/-- The definition of a name applied over a stack, which it gets back afterwards; its parameters are
all that the definition sees. -/
def applyOn (i : Interpreter) : Nat → StackApply
  | 0, _, _ => ofEval (ExceptT.mk none)
  | depth + 1, name, args =>
    match i.definition? name with
    | none => throw (.unboundSymbol name)
    | some d =>
      if d.params.length = args.length then do
        let saved ← take
        set (parameters d args)
        let result ← attempt (d.body.evalOn (i.applyOn depth))
        set saved
        MonadExcept.ofExcept result
      else throw (.wrongArgumentCount name d.params.length args.length)

/-- What an interpreter can be asked, with the depth it may take for it. -/
inductive Request where
  | apply (depth : Nat) (name : String) (args : List Value)
  | eval (depth : Nat) (t : Tree)

def Request.answer (i : Interpreter) : Request → StackM Value
  | .apply depth name args => i.applyOn depth name args
  | .eval depth t => t.evalOn (i.applyOn depth)

/-- The outcomes of requests made one after another, each on the stack that the one before it left. -/
def answers (i : Interpreter) : List Request → Locals → Option (List (Except EvalError Value) × Locals)
  | [], stack => some ([], stack)
  | q :: qs, stack => do
    let (outcome, stack) ← (q.answer i).on stack
    let (outcomes, stack) ← answers i qs stack
    return (outcome :: outcomes, stack)

end Interpreter
end Clausal
