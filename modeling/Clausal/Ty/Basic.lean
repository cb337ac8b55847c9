/-!
Types: a variable, a constructor applied to arguments, or a function. A type is never changed; what
is known about its variables is kept in a substitution beside it.
-/
namespace Clausal

/-- A type variable: its place in the substitution that made it, and the name it is shown by. -/
structure Var where
  index : Nat
  name : String
deriving DecidableEq, Inhabited, Repr

inductive Ty where
  | var (v : Var)
  | named (constr : String) (args : List Ty)
  | fn (domain codomain : Ty)
deriving Inhabited, Repr

namespace Ty

mutual

def decEq : (t u : Ty) → Decidable (t = u)
  | .var v, .var w =>
    if h : v = w then isTrue (h ▸ rfl) else isFalse fun e => h (Ty.var.inj e)
  | .named m ts, .named n us =>
    if h : m = n then
      match decEqAll ts us with
      | isTrue hs => isTrue (h ▸ hs ▸ rfl)
      | isFalse hs => isFalse fun e => hs (Ty.named.inj e).2
    else isFalse fun e => h (Ty.named.inj e).1
  | .fn d c, .fn d' c' =>
    match decEq d d', decEq c c' with
    | isTrue hd, isTrue hc => isTrue (hd ▸ hc ▸ rfl)
    | isFalse hd, _ => isFalse fun e => hd (Ty.fn.inj e).1
    | _, isFalse hc => isFalse fun e => hc (Ty.fn.inj e).2
  | .var _, .named _ _ => isFalse nofun
  | .var _, .fn _ _ => isFalse nofun
  | .named _ _, .var _ => isFalse nofun
  | .named _ _, .fn _ _ => isFalse nofun
  | .fn _ _, .var _ => isFalse nofun
  | .fn _ _, .named _ _ => isFalse nofun

def decEqAll : (ts us : List Ty) → Decidable (ts = us)
  | [], [] => isTrue rfl
  | t :: ts, u :: us =>
    match decEq t u, decEqAll ts us with
    | isTrue h, isTrue hs => isTrue (h ▸ hs ▸ rfl)
    | isFalse h, _ => isFalse fun e => h (List.cons.inj e).1
    | _, isFalse hs => isFalse fun e => hs (List.cons.inj e).2
  | [], _ :: _ => isFalse nofun
  | _ :: _, [] => isFalse nofun

end

instance : DecidableEq Ty := decEq

mutual

/-- Puts a type in the place of each variable. -/
def bindVars (f : Var → Ty) : Ty → Ty
  | .var v => f v
  | .named n ts => .named n (bindVarsAll f ts)
  | .fn d c => .fn (bindVars f d) (bindVars f c)

def bindVarsAll (f : Var → Ty) : List Ty → List Ty
  | [] => []
  | t :: ts => bindVars f t :: bindVarsAll f ts

end

mutual

/-- Every occurrence of a variable, from left to right. -/
def occurrences : Ty → List Var
  | .var v => [v]
  | .named _ ts => occurrencesAll ts
  | .fn d c => occurrences d ++ occurrences c

def occurrencesAll : List Ty → List Var
  | [] => []
  | t :: ts => occurrences t ++ occurrencesAll ts

end

mutual

def size : Ty → Nat
  | .var _ => 1
  | .named _ ts => sizeAll ts + 1
  | .fn d c => size d + size c + 1

def sizeAll : List Ty → Nat
  | [] => 0
  | t :: ts => size t + sizeAll ts

end

/-- The variables, each once, in the order in which they first occur. -/
def vars (t : Ty) : List Var :=
  t.occurrences.eraseDups

def isConcrete (t : Ty) : Bool :=
  t.occurrences.isEmpty

/-- The function that takes its parameters one at a time. -/
def curried (params : List Ty) (result : Ty) : Ty :=
  params.foldr .fn result

def constant (constr : String) : Ty :=
  .named constr []

end Ty
end Clausal
