import Clausal.Diagnostic
import Clausal.Env
import Clausal.Literal
import Clausal.Place
import Clausal.Unify

/-!
The state of type checking and its elementary steps. A checker carries the substitution, the problems
found so far, and the open scopes; what was declared and the settings do not change under it. Where a
step breaks a contract, everything it did before stays.
-/
namespace Clausal

/-- The locals of a scope, the latest first. -/
abbrev Scope := List (String × Ty)

/-- What type checking has found out. -/
structure Checker where
  subst : Substitution
  diagnostics : List Diagnostic := []
  /-- The open scopes, the innermost first. -/
  scopes : List Scope := []
deriving Inhabited, Repr

/-- What type checking goes by. -/
structure Declarations where
  env : Env
  config : Config
deriving Inhabited, Repr

abbrev CheckM := ReaderT Declarations (EStateM Violation Checker)

namespace Checker

def report (d : Diagnostic) : CheckM Unit :=
  modify fun c => { c with diagnostics := c.diagnostics ++ [d] }

def onSubst {α : Type} (f : Substitution → α × Substitution) : CheckM α := do
  let c ← get
  let (a, s) := f c.subst
  set { c with subst := s }
  return a

def fresh : CheckM Ty :=
  onSubst Substitution.fresh

/-- A copy of a declared type for one use. -/
def instantiate (t : Ty) : CheckM Ty :=
  onSubst (·.instantiate t)

def withScope {α : Type} (step : CheckM α) : CheckM α := do
  modify fun c => { c with scopes := [] :: c.scopes }
  let a ← step
  modify fun c => { c with scopes := c.scopes.tail }
  return a

/-- Records the type of a local in the innermost scope. -/
def bindLocal (name : String) (ty : Ty) : CheckM Unit := do
  let c ← get
  match c.scopes with
  | [] => throw .localOutsideScope
  | scope :: outer => set { c with scopes := ((name, ty) :: scope) :: outer }

/-- The type of a name: that of the innermost local, else a copy of that of the global. -/
def lookup? (name : String) : CheckM (Option Ty) := do
  match (← get).scopes.findSome? (·.lookup name) with
  | some ty => return some ty
  | none =>
    match (← read).env.global? name with
    | some ty => return some (← instantiate ty)
    | none => return none

/-- A copy of the type of a field if it is declared, else a new variable. -/
def instantiateOrFresh : Option Ty → CheckM Ty
  | some ty => instantiate ty
  | none => fresh

/-- Unifies the type that was found with the one expected, and reports a failure with both as they
are known by then. The answer is the unified type, or the one expected. -/
def unifyAt (expected actual : Ty) (span : Span) : CheckM Ty := do
  match ← onSubst (·.unify actual expected) with
  | .unified ty => return ty
  | .mismatch e a =>
    let s := (← get).subst
    report (.typeMismatch (s.resolve e) (s.resolve a) span)
    return expected
  | .circular ty var =>
    let s := (← get).subst
    report (.circularType (s.resolve ty) var span)
    return expected

def literalTy (l : Literal) : Ty :=
  .constant l.tyName

/-- The type of the value at a place: an argument has its own; a field has the declared type if its
parent was tested for a constructor that is declared with it, else a new variable. -/
def typeOfPlace : Place → CheckM Ty
  | .argument arg _ => return arg.ty
  | .field parent name _ => do
    let env := (← read).env
    instantiateOrFresh (parent.tag?.bind (env.field? · name))

end Checker
end Clausal
