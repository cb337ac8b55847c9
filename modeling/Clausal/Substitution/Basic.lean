import Clausal.Ty.Name

/-!
What is known about type variables. A substitution sorts the variables it has made into classes;
each class has a representative, by which it is shown, and is bound to one type at most. Variables
are only ever added, classes only merged, and a binding is never taken back.

A class is bound to a constructor or a function, never to a variable: a variable is linked instead.
A chain of bindings therefore meets every class at most once, which is what the number of hops below
counts on.
-/
namespace Clausal

/-- What a substitution keeps of one variable. Rank and type are those of its class and are kept at
the representative. -/
structure Cell where
  name : String
  root : Nat
  /-- How often the class was merged with one of equal rank. -/
  rank : Nat
  bound : Option Ty
deriving Inhabited, Repr

/-- The type variables made so far, and what they stand for. -/
structure Substitution where
  cells : Array Cell := #[]
  /-- How many of the variables are anonymous. -/
  freshCount : Nat := 0
deriving Inhabited, Repr

namespace Substitution

def size (s : Substitution) : Nat :=
  s.cells.size

def isEmpty (s : Substitution) : Bool :=
  s.cells.isEmpty

/-- Adds a variable, alone in its class and unbound. -/
def add (s : Substitution) (name : String) : Var × Substitution :=
  (⟨s.size, name⟩, { s with cells := s.cells.push ⟨name, s.size, 0, none⟩ })

/-- The name of the anonymous variable with this number. It starts with a character that is not a
lowercase letter, so no variable of a program has it. -/
def freshName (number : Nat) : String :=
  "?t" ++ toString number

def fresh (s : Substitution) : Ty × Substitution :=
  let (v, s') := s.add (freshName s.freshCount)
  (.var v, { s' with freshCount := s.freshCount + 1 })

/-- The variable of a program with this name, made at its first use. -/
def var? (s : Substitution) (name : String) : Except NameError (Ty × Substitution) := do
  checkVarName name
  match s.cells.findIdx? (·.name == name) with
  | some i => return (.var ⟨i, name⟩, s)
  | none =>
    let (v, s') := s.add name
    return (.var v, s')

def nameOf (s : Substitution) (index : Nat) : String :=
  (s.cells[index]?.map (·.name)).getD ""

/-- The index of the representative of a variable. -/
def rootIndex (s : Substitution) (v : Var) : Nat :=
  (s.cells[v.index]?.map (·.root)).getD v.index

/-- The representative of the class of a variable. -/
def root (s : Substitution) (v : Var) : Var :=
  ⟨s.rootIndex v, s.nameOf (s.rootIndex v)⟩

def rank (s : Substitution) (v : Var) : Nat :=
  (s.cells[s.rootIndex v]?.map (·.rank)).getD 0

/-- The type that the class of a variable is bound to. -/
def lookup (s : Substitution) (v : Var) : Option Ty :=
  s.cells[s.rootIndex v]?.bind (·.bound)

def sameClass (s : Substitution) (v w : Var) : Bool :=
  s.rootIndex v == s.rootIndex w

/-- Binds the class of a variable to a type. For a class that is not bound, and a type that is no
variable. -/
def bind (s : Substitution) (v : Var) (t : Ty) : Substitution :=
  { s with cells := s.cells.modify (s.rootIndex v) fun c => { c with bound := some t } }

/-- Makes the class of `loser` part of the class of `winner`, which gets the given rank. -/
def absorb (s : Substitution) (winner loser rank : Nat) : Substitution :=
  let moved := s.cells.map fun c => if c.root == loser then { c with root := winner } else c
  { s with cells := moved.modify winner fun c => { c with rank := rank } }

/-- Merges the classes of two variables, neither of them bound. The class of higher rank keeps its
representative; of two with equal rank it is the second one, whose rank grows. -/
def link (s : Substitution) (v w : Var) : Substitution :=
  if s.sameClass v w then s
  else if s.rank v > s.rank w then s.absorb (s.rootIndex v) (s.rootIndex w) (s.rank v)
  else if s.rank v < s.rank w then s.absorb (s.rootIndex w) (s.rootIndex v) (s.rank w)
  else s.absorb (s.rootIndex w) (s.rootIndex v) (s.rank w + 1)

/-- A variable as what it stands for: the type its class is bound to, or the representative. -/
def chase (s : Substitution) : Ty → Ty
  | .var v => (s.lookup v).getD (.var (s.root v))
  | t => t

/-- More hops through bindings than any chain without a circle has. -/
def hops (s : Substitution) : Nat :=
  s.size + 1

/-- Looks for the class of a variable in a type, through at most the given number of hops. -/
def occursWithin (s : Substitution) (v : Var) : Nat → Ty → Bool
  | 0, _ => false
  | n + 1, t => t.occurrences.any fun w =>
    match s.lookup w with
    | some bound => s.occursWithin v n bound
    | none => s.sameClass v w

/-- The variable occurs in the type, seen through bindings. -/
def occurs (s : Substitution) (v : Var) (t : Ty) : Bool :=
  s.occursWithin v s.hops t

/-- Puts in for each variable what it stands for, through at most the given number of hops. -/
def resolveWithin (s : Substitution) : Nat → Ty → Ty
  | 0, t => t
  | n + 1, t => t.bindVars fun v =>
    match s.lookup v with
    | some bound => s.resolveWithin n bound
    | none => .var (s.root v)

/-- The type with every variable in it replaced by what it stands for. -/
def resolve (s : Substitution) (t : Ty) : Ty :=
  s.resolveWithin s.hops t

/-- A new anonymous variable for each of the given ones, in their order. -/
def freshFor (s : Substitution) : List Var → List (Var × Ty) × Substitution
  | [] => ([], s)
  | v :: vs =>
    let (t, s₁) := s.fresh
    let (rest, s₂) := s₁.freshFor vs
    ((v, t) :: rest, s₂)

/-- A copy of the type with new variables in the place of its unbound ones. Signatures of globals and
of fields hold for all values of their variables, so each use gets its own copy. -/
def instantiate (s : Substitution) (t : Ty) : Ty × Substitution :=
  let resolved := s.resolve t
  let (copies, s') := s.freshFor resolved.vars
  (resolved.bindVars fun v => (copies.lookup v).getD (.var v), s')

end Substitution
end Clausal
