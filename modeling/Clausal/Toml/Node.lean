/-!
What a TOML document holds. A table remembers how it came to be, because that decides who may still
add to it: a header may take up a table that was only implied by a longer header, a dotted key may
extend a table made by dotted keys, and a table in braces is closed.
-/
namespace Clausal.Toml

/-- How a table came to be. -/
inductive Origin where
  /-- It has a header of its own, or is the document. -/
  | header
  /-- It stands before the last part of a header. -/
  | implied
  /-- It stands before the last part of a key. -/
  | dotted
  /-- It is written in braces. -/
  | inBraces
deriving DecidableEq, Inhabited, Repr

/-- A value of a document. Settings are texts, whole numbers and truth values; of the other scalars
it is enough to know that they are there. -/
inductive Node where
  | text (content : String)
  | integer (n : Int)
  | boolean (b : Bool)
  | real
  | moment
  | array (items : List Node)
  | table (origin : Origin) (entries : List (String × Node))
  /-- The tables under one repeated header, the latest first. -/
  | tables (items : List (List (String × Node)))
deriving Inhabited, Repr

/-- The keys of a table and their values, in order. -/
abbrev Entries := List (String × Node)

namespace Entries

/-- Changes the value of a key, or adds it at the end. -/
def alter (key : String) (f : Option Node → Option Node) : Entries → Option Entries
  | [] => do
    return [(key, ← f none)]
  | (k, v) :: rest =>
    if k = key then do
      return (k, ← f (some v)) :: rest
    else do
      return (k, v) :: (← alter key f rest)

/-- Adds a key that is not there yet. -/
def add (key : String) (value : Node) (es : Entries) : Option Entries :=
  alter key (fun | none => some value | some _ => none) es

/-- Adds a key with the parts before it. Every part but the last names a table: one made by dotted
keys, or a new one. Only behind another part may it also be a table implied by a header, or the
latest table of a repeated header. -/
def addDotted (key : String) (value : Node) : List String → Entries → Option Entries
  | [], es => es.add key value
  | part :: parts, es =>
    es.alter part fun
      | none => (addDotted key value parts []).map (.table .dotted)
      | some (.table .dotted inner) => (addDotted key value parts inner).map (.table .dotted)
      | some (.table .implied inner) =>
        if parts.isEmpty then none else (addDotted key value parts inner).map (.table .implied)
      | some (.tables (inner :: older)) =>
        if parts.isEmpty then none
        else (addDotted key value parts inner).map fun inner => .tables (inner :: older)
      | _ => none

/-- Changes the table at a path of headers. Tables on the way that are not there yet are implied; of
a repeated header the latest table is meant. -/
def within (f : Entries → Option Entries) : List String → Entries → Option Entries
  | [], es => f es
  | part :: parts, es =>
    es.alter part fun
      | none => (within f parts []).map (.table .implied)
      | some (.table .inBraces _) => none
      | some (.table origin inner) => (within f parts inner).map (.table origin)
      | some (.tables (inner :: older)) =>
        (within f parts inner).map fun inner => .tables (inner :: older)
      | _ => none

/-- Opens the table of a header and fills it. Only a table that was implied so far may be there. -/
def openTable (fill : Entries → Option Entries) (key : String) (es : Entries) : Option Entries :=
  es.alter key fun
    | none => (fill []).map (.table .header)
    | some (.table .implied inner) => (fill inner).map (.table .header)
    | _ => none

/-- Adds a table to those of a repeated header and fills it. -/
def pushTable (fill : Entries → Option Entries) (key : String) (es : Entries) : Option Entries :=
  es.alter key fun
    | none => (fill []).map fun inner => .tables [inner]
    | some (.tables older) => (fill []).map fun inner => .tables (inner :: older)
    | _ => none

end Entries
end Clausal.Toml
