import Clausal.Span
import Clausal.Ty.Printer

/-!
Problems of the program under work. None of them ends the work: each is reported with the source
text it belongs to, and what it concerns is given a type to go on with.
-/
namespace Clausal

/-- A problem of the program. -/
inductive Diagnostic where
  /-- One type was expected where another was found. -/
  | typeMismatch (expected actual : Ty) (span : Span)
  /-- A variable would stand for a type that it occurs in. -/
  | circularType (ty : Ty) (var : Var) (span : Span)
  /-- A name, constructor or field is not known. -/
  | symbolNotFound (symbol : String) (span : Span)
  /-- The number of patterns or scrutinees is not that of the placeholders. -/
  | arityMismatch (declared found : Nat) (span : Span)
deriving DecidableEq, Inhabited, Repr

namespace Diagnostic

def span : Diagnostic → Span
  | .typeMismatch _ _ s => s
  | .circularType _ _ s => s
  | .symbolNotFound _ s => s
  | .arityMismatch _ _ s => s

def quotedDoc (d : Doc) : Doc :=
  d.enclosed "`" "`"

/-- What is wrong, without the position. -/
def messageDoc : Diagnostic → Doc
  | .typeMismatch expected actual _ =>
    Doc.text "type mismatch: expected " ++ quotedDoc expected.toDoc ++
      Doc.text ", found " ++ quotedDoc actual.toDoc
  | .circularType ty var _ =>
    Doc.text "circular type: " ++ quotedDoc (Doc.text var.name) ++
      Doc.text " occurs in " ++ quotedDoc ty.toDoc
  | .symbolNotFound symbol _ =>
    Doc.text "cannot find " ++ quotedDoc (Doc.text symbol) ++ Doc.text " in this scope"
  | .arityMismatch declared found _ =>
    Doc.text ("arity mismatch: expected " ++ toString declared ++ " patterns, found " ++
      toString found)

def toDoc (d : Diagnostic) : Doc :=
  Doc.text d.span.text ++ Doc.text ": " ++ d.messageDoc

def text (d : Diagnostic) : String :=
  d.toDoc.render

end Diagnostic
end Clausal
