import Clausal.Config
import Clausal.Ty.Basic

/-!
What a program has declared: the types of its globals, and the fields of its constructors with their
types. Either type holds for all values of its variables. A later declaration takes the place of an
earlier one of the same name.
-/
namespace Clausal

abbrev Fields := List (String × Ty)

/-- Declared globals and constructors, the latest first. -/
structure Env where
  globals : List (String × Ty) := []
  constrs : List (String × Fields) := []
deriving Inhabited, Repr

namespace Env

def global? (env : Env) (name : String) : Option Ty :=
  env.globals.lookup name

def constr? (env : Env) (name : String) : Option Fields :=
  env.constrs.lookup name

def field? (env : Env) (constr field : String) : Option Ty :=
  (env.constr? constr).bind (·.lookup field)

def declareGlobal (env : Env) (name : String) (ty : Ty) : Env :=
  { env with globals := (name, ty) :: env.globals }

def declareConstr (env : Env) (name : String) (fields : Fields) : Env :=
  { env with constrs := (name, fields) :: env.constrs }

def declareTupleConstr (env : Env) (config : Config) (name : String) (fields : List Ty) :
    Except Violation Env := do
  return env.declareConstr name (← config.nameFields 0 fields)

end Env
end Clausal
