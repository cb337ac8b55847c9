import Clausal.Matcher.Arity
import Clausal.Matcher.Bind
import Clausal.Reduction.Matcher
import Clausal.Typing.Strict

/-!
A session compiles matchers one after another. They share one substitution and one environment, and
the signature of a matcher is known to those compiled after it. A problem of the program never stops
the work: it is reported, and a definition comes out in any case.
-/
namespace Clausal

structure Session where
  config : Config := {}
  subst : Substitution := {}
  env : Env := {}
  diagnostics : List Diagnostic := []
  /-- The number of placeholders made so far. -/
  placeholders : Nat := 0
deriving Inhabited, Repr

/-- A step of a session. Where it breaks a contract, everything it did before stays. -/
abbrev SessionM := EStateM Violation Session

/-- The tree of a matcher, reduced by itself. -/
def Matcher.tree (m : Matcher) : Except Violation Tree :=
  match m.reduce {} with
  | .ok t _ => .ok t
  | .error v _ => .error v

namespace Session

/-- The result of something that leaves the session alone. -/
def ofExcept {α : Type} : Except Violation α → SessionM α
  | .ok a => return a
  | .error v => throw v

/-- A result of the session that cannot break a contract. -/
def step {α : Type} (f : Session → α × Session) : SessionM α :=
  modifyGet f

def freshTy (session : Session) : Ty × Session :=
  let (t, s) := session.subst.fresh
  (t, { session with subst := s })

def freshArgument (session : Session) (ty : Ty) : Argument × Session :=
  let number := session.placeholders + 1
  (⟨placeholderName number, ty⟩, { session with placeholders := number })

/-- As many new placeholders as given, each with a type variable of its own. -/
def freshArguments (session : Session) : Nat → List Argument × Session
  | 0 => ([], session)
  | n + 1 =>
    let (ty, s₁) := session.freshTy
    let (arg, s₂) := s₁.freshArgument ty
    let (args, s₃) := s₂.freshArguments n
    (arg :: args, s₃)

/-- A matcher with this many new placeholders and a new result type. -/
def freshMatcher (session : Session) (name : String) (nameSpan : Span) (arity : Nat)
    (clauses : List Clause) : Matcher × Session :=
  let (params, s₁) := session.freshArguments arity
  let (result, s₂) := s₁.freshTy
  (⟨name, nameSpan, params, result, clauses⟩, s₂)

/-- Declares a global; the answer is the type it had before. -/
def declareGlobal (session : Session) (name : String) (ty : Ty) : Option Ty × Session :=
  (session.env.global? name, { session with env := session.env.declareGlobal name ty })

def declareConstr (session : Session) (name : String) (fields : Fields) : Session :=
  { session with env := session.env.declareConstr name fields }

def declareTupleConstr (name : String) (fields : List Ty) : SessionM Unit := do
  let session ← get
  let env ← ofExcept (session.env.declareTupleConstr session.config name fields)
  set { session with env := env }

/-- Runs a new checker on the substitution of the session. What it finds out about types stays; the
problems it found are the caller's. -/
def checkApart {α : Type} (check : CheckM α) : SessionM (α × List Diagnostic) := fun session =>
  match check ⟨session.env, session.config⟩ { subst := session.subst } with
  | .ok a c => .ok (a, c.diagnostics) { session with subst := c.subst }
  | .error v c => .error v { session with subst := c.subst }

def report (ds : List Diagnostic) : SessionM Unit :=
  modify fun session => { session with diagnostics := session.diagnostics ++ ds }

/-- Compiles a matcher: its arity is checked, its patterns are bound, its types checked, and a tree
is built from it. A name without a signature gets the type that was found. -/
def compile (m : Matcher) : SessionM Definition := do
  report m.arityReports
  let m ← ofExcept (m.bind (← get).config)
  let ((ty, m), ds) ← checkApart m.check
  report ds
  if ((← get).env.global? m.name).isNone then
    let _ ← step (·.declareGlobal m.name ty)
  let body ← ofExcept m.tree
  return ⟨m.name, m.params.map (·.name), ty, body⟩

/-- `compile`, with the bounds of the table checked wherever the checker looks at a variable. -/
def compileStrict (m : Matcher) : SessionM Definition := do
  report m.arityReports
  let m ← ofExcept (m.bind (← get).config)
  let ((ty, m), ds) ← checkApart m.checkStrict
  report ds
  if ((← get).env.global? m.name).isNone then
    let _ ← step (·.declareGlobal m.name ty)
  let body ← ofExcept m.tree
  return ⟨m.name, m.params.map (·.name), ty, body⟩

/-- Hands over the problems of the session, which has none afterwards. -/
def takeDiagnostics (session : Session) : List Diagnostic × Session :=
  (session.diagnostics, { session with diagnostics := [] })

end Session
end Clausal
