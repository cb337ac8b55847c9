import Clausal.Binary64
import Clausal.Doc

/-!
Literals, which mean the same in patterns, in expressions and in the lowered tree.
-/
namespace Clausal

inductive Literal where
  | unit
  | bool (b : Bool)
  | int (n : Int)
  | float (x : Binary64)
  | char (c : Char)
  | text (content : String)
deriving DecidableEq, Inhabited, Repr

namespace Literal

def tyName : Literal → String
  | .unit => "Unit"
  | .bool _ => "Bool"
  | .int _ => "Int"
  | .float _ => "Float"
  | .char _ => "Char"
  | .text _ => "String"

/-- The document of a literal. The content of a text stands between quotes as it is. -/
def toDoc : Literal → Doc
  | .unit => Doc.text "(void)"
  | .bool true => Doc.text "#t"
  | .bool false => Doc.text "#f"
  | .int n => Doc.text (toString n)
  | .float x => Doc.text ("#i" ++ x.text)
  | .char c => Doc.text ("#\\" ++ String.singleton c)
  | .text content => (Doc.text content).enclosed "\"" "\""

end Literal
end Clausal
