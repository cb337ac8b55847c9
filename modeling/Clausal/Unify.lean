import Clausal.Substitution.Basic

/-!
Unification of types. Functions are compared part by part, domains with their roles exchanged.
Constructors agree if their names do; their arguments are not compared. What was bound before a
failure stays bound.

`unifyWithin` follows bindings, so it does not recurse on the types it is given; it counts steps
instead, and `unify` allows as many as any substitution without a circle can need.
-/
namespace Clausal

inductive Unification where
  /-- Both types are made equal; this one shows how. -/
  | unified (ty : Ty)
  /-- A constructor or function was expected, another one found. -/
  | mismatch (expected actual : Ty)
  /-- The variable would stand for a type that it occurs in. -/
  | circular (ty : Ty) (var : Var)
deriving DecidableEq, Repr

namespace Unification

def isUnified : Unification → Bool
  | .unified _ => true
  | _ => false

/-- Goes on with the unified type; a failure stays. -/
def andThen (r : Unification) (f : Ty → Unification) : Unification :=
  match r with
  | .unified t => f t
  | failure => failure

/-- Changes the unified type; a failure stays. -/
def map (r : Unification) (f : Ty → Ty) : Unification :=
  r.andThen fun t => .unified (f t)

def message? : Unification → Option String
  | .unified _ => none
  | .mismatch _ _ => some "type mismatch"
  | .circular _ _ => some "circular type"

end Unification

namespace Substitution

/-- Binds an unbound variable to a type that is no variable, unless it occurs there. -/
def assign (s : Substitution) (v : Var) (t : Ty) : Unification × Substitution :=
  if s.occurs v t then (.circular t v, s) else (.unified t, s.bind v t)

/-- Unifies in at most the given number of nested steps, or gives up. -/
def unifyWithin : Nat → Ty → Ty → Substitution → Option (Unification × Substitution)
  | 0, _, _, _ => none
  | n + 1, .var v, .var w, s =>
    match s.lookup v with
    | some bound => unifyWithin n bound (.var w) s
    | none =>
      match s.lookup w with
      | some bound => unifyWithin n (.var v) bound s
      | none =>
        if s.sameClass v w then some (.unified (.var v), s)
        else some (.unified (.var w), s.link v w)
  | n + 1, .var v, t, s =>
    match s.lookup v with
    | some bound => unifyWithin n bound t s
    | none => some (s.assign v t)
  | n + 1, t, .var w, s =>
    match s.lookup w with
    | some bound => unifyWithin n t bound s
    | none => some (s.assign w t)
  | _ + 1, .named m ts, .named m' us, s =>
    if m = m' then some (.unified (.named m ts), s)
    else some (.mismatch (.named m' us) (.named m ts), s)
  | n + 1, .fn d c, .fn d' c', s =>
    match unifyWithin n d' d s with
    | some (.unified domain, s₁) =>
      match unifyWithin n c c' s₁ with
      | some (.unified codomain, s₂) => some (.unified (.fn domain codomain), s₂)
      | failure => failure
    | failure => failure
  | _ + 1, t, u, s => some (.mismatch u t, s)

/-- The number of nodes of all types that classes are bound to. -/
def weight (s : Substitution) : Nat :=
  s.cells.foldl (fun n c => n + (c.bound.map Ty.size).getD 0) 0

/-- Steps enough for any two types under a substitution without a circle: between two merges or
bindings the types only get shallower, and neither is deeper than all classes, each bound to the
largest type at hand, set on top of one another. -/
def steps (s : Substitution) (t u : Ty) : Nat :=
  let deepest := (s.size + 1) * (t.size + u.size + s.weight + 1)
  (s.size + 1) * (2 * deepest + 1) + 1

/-- Unifies two types and records what has to be known for it. -/
def unify (s : Substitution) (t u : Ty) : Unification × Substitution :=
  (unifyWithin (s.steps t u) t u s).getD (.mismatch u t, s)

/-- Unifies pairs of types one after another, for as long as that succeeds. The answer is the last
result, to start with the given type, and the number of pairs tried. -/
def unifyAll (s : Substitution) (start : Ty) :
    List (Ty × Ty) → Unification × Nat × Substitution
  | [] => (.unified start, 0, s)
  | (t, u) :: pairs =>
    match s.unify t u with
    | (.unified v, s₁) =>
      let (result, tried, s₂) := s₁.unifyAll v pairs
      (result, tried + 1, s₂)
    | (failure, s₁) => (failure, 1, s₁)

end Substitution
end Clausal
