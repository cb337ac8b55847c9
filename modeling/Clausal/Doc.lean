import Clausal.Text.DisplayWidth

/-!
Documents that choose their own line breaks, and their layout on a page of a given width. A group is
set on one line if it fits there together with all that follows it up to the next line break. What is
shown is set on lines of eighty columns.

The layout is a structural recursion on the document; what stands behind the document is passed
along, because a group looks ahead into it and a line break takes its indentation from it.
-/
namespace Clausal

/-- Text with optional line breaks. -/
inductive Doc where
  | text (content : String)
  /-- A space, or a line break where the group around it is broken. -/
  | line
  /-- Always a line break. -/
  | hardline
  | append (first second : Doc)
  /-- Line breaks inside are indented further. -/
  | nest (columns : Nat) (body : Doc)
  /-- Set on one line if it fits. -/
  | group (body : Doc)
deriving DecidableEq, Inhabited, Repr

namespace Doc

instance : Append Doc := ⟨.append⟩

/-- The documents in order, a separator between any two neighbours. -/
def separated (separator first : Doc) (rest : List Doc) : Doc :=
  rest.foldl (fun all next => all ++ separator ++ next) first

def enclosed (body : Doc) (opening closing : String) : Doc :=
  .text opening ++ body ++ .text closing

/-- Whether the optional line breaks of a group are spaces or breaks. -/
inductive Mode where
  | flat
  | broken
deriving DecidableEq, Repr

/-- Where a look ahead over a document ends. -/
inductive Reach where
  /-- Behind the document, on the same line, in this column. -/
  | column (c : Nat)
  /-- At a line break that ends the line in time. -/
  | lineEnd
  /-- Beyond the page, or at a break that may not be there. -/
  | beyond
deriving DecidableEq, Repr

/-- The column behind a piece of text, if it is still on a page of this width. -/
def Reach.advance (page column width : Nat) : Reach :=
  if column + width ≤ page then .column (column + width) else .beyond

variable (page : Nat)

/-- Looks ahead over a document, all of it in one mode. -/
def reach (mode : Mode) : Doc → Nat → Reach
  | .text content, c => .advance page c (Text.displayWidth content)
  | .line, c =>
    match mode with
    | .flat => .advance page c 1
    | .broken => .lineEnd
  | .hardline, _ =>
    match mode with
    | .flat => .beyond
    | .broken => .lineEnd
  | .append d e, c =>
    match reach mode d c with
    | .column c' => reach mode e c'
    | r => r
  | .nest _ d, c => reach mode d c
  | .group d, c => reach mode d c

/-- A document waiting behind the one that is set, with its indentation. -/
structure Pending where
  indent : Nat
  doc : Doc
deriving DecidableEq, Repr

/-- What is pending, its groups broken, still ends the line in time. -/
def pendingFits : List Pending → Nat → Bool
  | [], _ => true
  | p :: ps, c =>
    match reach page .broken p.doc c with
    | .column c' => pendingFits ps c'
    | .lineEnd => true
    | .beyond => false

/-- The document fits on the line in one piece, together with what follows on that line. -/
def fits (d : Doc) (pending : List Pending) (c : Nat) : Bool :=
  match reach page .flat d c with
  | .column c' => pendingFits page pending c'
  | .lineEnd => true
  | .beyond => false

/-- The indentation behind a line break: that of the next document, if there is one. -/
def nextIndent (indent : Nat) : List Pending → Nat
  | [] => indent
  | p :: _ => p.indent

def newline (indent : Nat) : String :=
  "\n" ++ String.ofList (List.replicate indent ' ')

/-- Sets one document from a column on: its text and the column behind it. -/
def set : Doc → (indent : Nat) → Mode → List Pending → (column : Nat) → String × Nat
  | .text content, _, _, _, c => (content, c + Text.displayWidth content)
  | .line, i, mode, ps, c =>
    match mode with
    | .flat => (" ", c + 1)
    | .broken => (newline (nextIndent i ps), nextIndent i ps)
  | .hardline, i, _, ps, _ => (newline (nextIndent i ps), nextIndent i ps)
  | .append d e, i, mode, ps, c =>
    let first := set d i mode (⟨i, e⟩ :: ps) c
    let second := set e i mode ps first.2
    (first.1 ++ second.1, second.2)
  | .nest n d, i, mode, ps, c => set d (i + n) mode ps c
  | .group d, i, mode, ps, c =>
    match mode with
    | .flat => set d i .flat ps c
    | .broken => set d i (if fits page d ps c then .flat else .broken) ps c

/-- The text of a document on a page of this width. -/
def renderWithin (d : Doc) : String :=
  (set page d 0 .broken [] 0).1

def pageWidth : Nat := 80

def render (d : Doc) : String :=
  d.renderWithin pageWidth

end Doc
end Clausal
