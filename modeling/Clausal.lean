import Clausal.Binary64
import Clausal.Config
import Clausal.Config.Reader
import Clausal.Diagnostic
import Clausal.Doc
import Clausal.Env
import Clausal.Eval.Interpreter
import Clausal.Eval.Stack
import Clausal.Eval.Value
import Clausal.Interner
import Clausal.Literal
import Clausal.Matcher.Arity
import Clausal.Matcher.Basic
import Clausal.Matcher.Bind
import Clausal.Pattern.Basic
import Clausal.Pattern.Bind
import Clausal.Pattern.Group
import Clausal.Place
import Clausal.Proofs.Config.TupleNames
import Clausal.Proofs.Control
import Clausal.Proofs.Doc.Layout
import Clausal.Proofs.Doc.SExpr
import Clausal.Proofs.Eval.Faults
import Clausal.Proofs.Eval.Meaning
import Clausal.Proofs.Eval.Stack
import Clausal.Proofs.Eval.Trees
import Clausal.Proofs.Interner
import Clausal.Proofs.Matcher.Arity
import Clausal.Proofs.Matcher.Binding
import Clausal.Proofs.Matcher.Blocked
import Clausal.Proofs.Matcher.Bound
import Clausal.Proofs.Matcher.Names
import Clausal.Proofs.Matcher.Placement
import Clausal.Proofs.Matcher.Strays
import Clausal.Proofs.Matcher.Types
import Clausal.Proofs.Pattern.Binding
import Clausal.Proofs.Pattern.Settling
import Clausal.Proofs.Pattern.Steps
import Clausal.Proofs.Reduction.Faults
import Clausal.Proofs.Reduction.Lowered
import Clausal.Proofs.Reduction.Patterns
import Clausal.Proofs.Reduction.Positional
import Clausal.Proofs.Reduction.Protocol
import Clausal.Proofs.Reduction.Safety
import Clausal.Proofs.Reduction.Simulation
import Clausal.Proofs.Reduction.Strays
import Clausal.Proofs.Session.Circularity
import Clausal.Proofs.Session.Erasure
import Clausal.Proofs.Session.History
import Clausal.Proofs.Session.Isolation
import Clausal.Proofs.Session.Principal
import Clausal.Proofs.Session.Reachable
import Clausal.Proofs.Session.Register
import Clausal.Proofs.Session.Scoping
import Clausal.Proofs.Session.Signatures
import Clausal.Proofs.Session.Totality
import Clausal.Proofs.Session.Typing
import Clausal.Proofs.Session.Variables
import Clausal.Proofs.Substitution.Classes
import Clausal.Proofs.Substitution.Distinct
import Clausal.Proofs.Substitution.Evolution
import Clausal.Proofs.Substitution.Growth
import Clausal.Proofs.Substitution.Names
import Clausal.Proofs.Substitution.NormalForm
import Clausal.Proofs.Substitution.Strict
import Clausal.Proofs.Substitution.Valid
import Clausal.Proofs.Text.LetterCase
import Clausal.Proofs.Tree.FreeNames
import Clausal.Proofs.Tree.Rendering
import Clausal.Proofs.Ty.Rendering
import Clausal.Proofs.Ty.Traversal
import Clausal.Proofs.Ty.Variables
import Clausal.Proofs.Typing.Diagnostics
import Clausal.Proofs.Typing.Exact
import Clausal.Proofs.Typing.Lexical
import Clausal.Proofs.Typing.Locals
import Clausal.Proofs.Typing.Positions
import Clausal.Proofs.Typing.Preservation
import Clausal.Proofs.Typing.Principal
import Clausal.Proofs.Typing.Reports
import Clausal.Proofs.Typing.Rules
import Clausal.Proofs.Typing.Solving
import Clausal.Proofs.Typing.Soundness
import Clausal.Proofs.Typing.Steps
import Clausal.Proofs.Typing.Strict
import Clausal.Proofs.Typing.Totality
import Clausal.Proofs.Typing.Untyped
import Clausal.Proofs.Unification.Assertions
import Clausal.Proofs.Unification.Completeness
import Clausal.Proofs.Unification.Copies
import Clausal.Proofs.Unification.Failure
import Clausal.Proofs.Unification.Idempotence
import Clausal.Proofs.Unification.Isolation
import Clausal.Proofs.Unification.Recursion
import Clausal.Proofs.Unification.Run
import Clausal.Proofs.Unification.Solutions
import Clausal.Proofs.Unification.Soundness
import Clausal.Proofs.Unification.Symmetry
import Clausal.Proofs.Unification.Termination
import Clausal.Reduction.Matcher
import Clausal.Reduction.Reducer
import Clausal.Session
import Clausal.Span
import Clausal.Substitution.Basic
import Clausal.Substitution.Strict
import Clausal.Text.CharWidth
import Clausal.Text.CodeRange
import Clausal.Text.Combining
import Clausal.Text.DisplayWidth
import Clausal.Text.Emoji
import Clausal.Text.LetterCase
import Clausal.Text.Ligature
import Clausal.Text.Quoted
import Clausal.Toml.Document
import Clausal.Toml.Lexical
import Clausal.Toml.Node
import Clausal.Toml.Number
import Clausal.Tree.Basic
import Clausal.Tree.Printer
import Clausal.Ty.Basic
import Clausal.Ty.Name
import Clausal.Ty.Printer
import Clausal.Typing.Checker
import Clausal.Typing.Matcher
import Clausal.Typing.Pattern
import Clausal.Typing.Strict
import Clausal.Unify
import Clausal.Violation
