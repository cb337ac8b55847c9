import Clausal.Doc
import Clausal.Ty.Basic

/-!
Types as text. An arrow extends to the right as far as possible, so a function is put in parentheses
where it is a domain; a constructor with arguments, and a function, are put in parentheses where they
are arguments themselves.
-/
namespace Clausal.Ty

/-- The type needs parentheses as an argument. -/
def isCompound : Ty → Bool
  | .var _ => false
  | .named _ args => !args.isEmpty
  | .fn _ _ => true

def isFn : Ty → Bool
  | .fn _ _ => true
  | _ => false

/-- A document in parentheses if asked for. -/
def parenthesized (wanted : Bool) (d : Doc) : Doc :=
  if wanted then d.enclosed "(" ")" else d

mutual

def toDoc : Ty → Doc
  | .var v => Doc.text v.name
  | .named n ts => Doc.separated (.text " ") (.text n) (argDocs ts)
  | .fn d c =>
    .group (parenthesized d.isFn (toDoc d) ++ Doc.text " ->" ++ Doc.line ++ toDoc c)

def argDocs : List Ty → List Doc
  | [] => []
  | t :: ts => parenthesized t.isCompound (toDoc t) :: argDocs ts

end

def text (t : Ty) : String :=
  t.toDoc.render

end Clausal.Ty
