import Clausal.Tree.Basic

/-!
Reduced trees as text: nested lists in parentheses, the parts of a conditional and of a binding on
lines of their own.
-/
namespace Clausal

namespace Tree

mutual

def toDoc : Tree → Doc
  | .literal l => l.toDoc
  | .symbol n => Doc.text n
  | .builtin b => Doc.text b.identifier
  | .call callee args =>
    (Doc.group (.nest 1 (Doc.separated .line (toDoc callee) (toDocs args)))).enclosed "(" ")"
  | .cond c t e =>
    (toDoc c ++ Doc.nest 2 (Doc.hardline ++ toDoc t ++ Doc.hardline ++ toDoc e)).enclosed "(if " ")"
  | .letIn n value body =>
    (Doc.text n ++ Doc.text " " ++ toDoc value ++ Doc.text "]]" ++
      Doc.nest 2 (Doc.hardline ++ toDoc body)).enclosed "(let [[" ")"
  | .access value f none =>
    (toDoc value ++ Doc.text " " ++ Doc.text f).enclosed "(field " ")"
  | .access value f (some tag) =>
    (toDoc value ++ Doc.text " " ++ Doc.text f ++ Doc.text " #:tag " ++ Doc.text tag).enclosed
      "(field " ")"
  | .isTag value tag =>
    (toDoc value ++ Doc.text " " ++ Doc.text tag).enclosed "(tag? " ")"
  | .fault m => (Doc.text m).enclosed "(fault non-exhaustive-match " ")"

def toDocs : List Tree → List Doc
  | [] => []
  | t :: ts => toDoc t :: toDocs ts

end

def text (t : Tree) : String :=
  t.toDoc.render

end Tree

namespace Definition

/-- The document of a definition: its name and parameters, and the body below. -/
def toDoc (d : Definition) : Doc :=
  ((Doc.separated (.text " ") (.text d.name) (d.params.map .text)).enclosed "(" ")" ++
    Doc.nest 2 (Doc.hardline ++ d.body.toDoc)).enclosed "(define " ")"

def text (d : Definition) : String :=
  d.toDoc.render

end Definition
end Clausal
