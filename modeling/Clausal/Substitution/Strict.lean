import Clausal.Unify
import Clausal.Violation

/-!
The operations of a substitution with the bounds of its table checked. A variable that a substitution did
not make has no cell in it; `Substitution.lookup` and `Substitution.root` take it for one that is unbound
and alone in its class, the steps here stop at it. They also stop where a class would lose the type it is
bound to, or be bound to a variable. Where they do not stop, each does what the operation of its name does.
-/
namespace Clausal

/-- A step on a substitution. Where it breaks a contract, everything it did before stays. -/
abbrev SubstM := EStateM Violation Substitution

namespace Ty

mutual

/-- Puts a type in the place of each variable, from left to right. -/
def bindVarsM (f : Var → SubstM Ty) : Ty → SubstM Ty
  | .var v => f v
  | .named n ts => return .named n (← bindVarsAllM f ts)
  | .fn d c => return .fn (← bindVarsM f d) (← bindVarsM f c)

def bindVarsAllM (f : Var → SubstM Ty) : List Ty → SubstM (List Ty)
  | [] => return []
  | t :: ts => return (← bindVarsM f t) :: (← bindVarsAllM f ts)

end

end Ty

namespace Substitution

/-! Reading the table -/

/-- The one access to the table that all others go through. -/
def cellStrict (index : Nat) : SubstM Cell := do
  let s ← get
  match s.cells[index]? with
  | some c => return c
  | none => throw (.indexOutOfBounds s.size index)

def rootIndexStrict (v : Var) : SubstM Nat :=
  return (← cellStrict v.index).root

def rootStrict (v : Var) : SubstM Var := do
  let index ← rootIndexStrict v
  return ⟨index, (← cellStrict index).name⟩

def lookupStrict (v : Var) : SubstM (Option Ty) :=
  return (← cellStrict (← rootIndexStrict v)).bound

def sameClassStrict (v w : Var) : SubstM Bool :=
  return (← rootIndexStrict v) == (← rootIndexStrict w)

def chaseStrict : Ty → SubstM Ty
  | .var v => do
    match ← lookupStrict v with
    | some bound => return bound
    | none => return .var (← rootStrict v)
  | t => return t

def occursWithinStrict (v : Var) : Nat → Ty → SubstM Bool
  | 0, _ => return false
  | n + 1, t => t.occurrences.anyM fun w => do
    match ← lookupStrict w with
    | some bound => occursWithinStrict v n bound
    | none => sameClassStrict v w

def occursStrict (v : Var) (t : Ty) : SubstM Bool := do
  occursWithinStrict v (← get).hops t

def resolveWithinStrict : Nat → Ty → SubstM Ty
  | 0, t => return t
  | n + 1, t => t.bindVarsM fun v => do
    match ← lookupStrict v with
    | some bound => resolveWithinStrict n bound
    | none => return .var (← rootStrict v)

def resolveStrict (t : Ty) : SubstM Ty := do
  resolveWithinStrict (← get).hops t

/-! Changing the table -/

def instantiateStrict (t : Ty) : SubstM Ty := do
  let resolved ← resolveStrict t
  let copies ← modifyGet (·.freshFor resolved.vars)
  return resolved.bindVars fun v => (copies.lookup v).getD (.var v)

def bindStrict (v : Var) (t : Ty) : SubstM Unit := do
  match ← lookupStrict v, t with
  | some _, _ => throw .boundAgain
  | none, .var _ => throw .boundToVariable
  | none, t => modify (·.bind v t)

/-- Both representatives are read for their ranks; the cells that move are those there are. -/
def linkStrict (v w : Var) : SubstM Unit := do
  let _ ← cellStrict (← rootIndexStrict v)
  let _ ← cellStrict (← rootIndexStrict w)
  modify (·.link v w)

def assignStrict (v : Var) (t : Ty) : SubstM Unification := do
  if ← occursStrict v t then return .circular t v
  bindStrict v t
  return .unified t

def unifyWithinStrict : Nat → Ty → Ty → SubstM (Option Unification)
  | 0, _, _ => return none
  | n + 1, .var v, .var w => do
    match ← lookupStrict v with
    | some bound => unifyWithinStrict n bound (.var w)
    | none =>
      match ← lookupStrict w with
      | some bound => unifyWithinStrict n (.var v) bound
      | none =>
        if ← sameClassStrict v w then return some (.unified (.var v))
        linkStrict v w
        return some (.unified (.var w))
  | n + 1, .var v, t => do
    match ← lookupStrict v with
    | some bound => unifyWithinStrict n bound t
    | none => return some (← assignStrict v t)
  | n + 1, t, .var w => do
    match ← lookupStrict w with
    | some bound => unifyWithinStrict n t bound
    | none => return some (← assignStrict w t)
  | _ + 1, .named m ts, .named m' us =>
    if m = m' then return some (.unified (.named m ts))
    else return some (.mismatch (.named m' us) (.named m ts))
  | n + 1, .fn d c, .fn d' c' => do
    match ← unifyWithinStrict n d' d with
    | some (.unified domain) =>
      match ← unifyWithinStrict n c c' with
      | some (.unified codomain) => return some (.unified (.fn domain codomain))
      | failure => return failure
    | failure => return failure
  | _ + 1, t, u => return some (.mismatch u t)

def unifyStrict (t u : Ty) : SubstM Unification := do
  let s ← get
  return (← unifyWithinStrict (s.steps t u) t u).getD (.mismatch u t)

end Substitution
end Clausal
