import Clausal.Toml.Node
import Clausal.Toml.Number

/-!
Whole TOML documents, version 1.0. A document starts with keys of its own; after that come tables,
each with a header and its keys. What would define a key or a table twice is refused.
-/
namespace Clausal.Toml

open Reader

/-- The keys of a document or table and their values, as written. -/
abbrev Settings := List ((List String × String) × Node)

def Entries.addAll (settings : Settings) (es : Entries) : Option Entries :=
  settings.foldlM (fun es ((path, key), value) => es.addDotted key value path) es

/-- A number or a moment, whichever it is. -/
def numeric : Reader Node :=
  (do moment; return .moment) <|> (do real; return .real) <|> (do return .integer (← integer))

/-- A value that holds no others. -/
def scalar : Reader Node := do
  match ← peek? with
  | some c =>
    if c == '"' || c == '\'' then return .text (← anyText)
    else if c == 't' then
      exactly "true".toList
      return .boolean true
    else if c == 'f' then
      exactly "false".toList
      return .boolean false
    else numeric
  | none => failure

/-- Values in brackets, over as many lines as they take, with an optional comma behind the last. -/
def array (value : Reader Node) : Reader Node := do
  exactly ['[']
  let item : Reader (Option Node) := do
    filler
    if (← peek?) == some ']' then return none
    let v ← value
    filler
    if (← peek?) ≠ some ']' then exactly [',']
    return some v
  let items ← many item
  exactly [']']
  return .array items

def setting (value : Reader Node) : Reader ((List String × String) × Node) := do
  let k ← key
  exactly ['=']
  blanks
  return (k, ← value)

/-- Settings in braces, on one line and without a comma behind the last. -/
def inlineTable (value : Reader Node) : Reader Node := do
  exactly ['\x7b']
  blanks
  if ← skip? ['\x7d'] then return .table .inBraces []
  let item : Reader ((List String × String) × Node) := do
    let s ← setting value
    blanks
    return s
  let first ← item
  let others ← many do
    if ← skip? [','] then return some (← item) else return none
  exactly ['\x7d']
  match Entries.addAll (first :: others) [] with
  | some es => return .table .inBraces es
  | none => failure

/-- A value, with arrays and tables inside one another no deeper than given. -/
def value : Nat → Reader Node
  | 0 => scalar
  | depth + 1 => do
    match ← peek? with
    | some '[' => array (value depth)
    | some '\x7b' => inlineTable (value depth)
    | _ => scalar

/-- A line with a header: its path, and whether it may be repeated. -/
def header : Reader ((List String × String) × Bool) := do
  if ← skip? ['[', '['] then
    let path ← key
    exactly [']', ']']
    trailing
    return (path, true)
  else
    exactly ['[']
    let path ← key
    exactly [']']
    trailing
    return (path, false)

/-- Lines without a header: settings, comments and empty lines. -/
def settings : Reader Settings := do
  let lines ← many do
    blanks
    match ← peek? with
    | none => return none
    | some '[' => return none
    | some '#' =>
      comment
      lineEnd
      return some []
    | some c =>
      if c == '\n' || c == '\r' then
        newline
        return some []
      else
        let s ← setting (value deepest)
        trailing
        return some [s]
  return lines.flatten

/-- The settings of a document, and its tables in order. -/
def sections : Reader (Settings × List (((List String × String) × Bool) × Settings)) := do
  let _ ← skip? ['\uFEFF']
  let top ← settings
  let tables ← many do
    if (← peek?) == some '[' then return some (← header, ← settings) else return none
  if ← atEnd then return (top, tables) else failure

def Entries.addSection (es : Entries) :
    ((List String × String) × Bool) × Settings → Option Entries
  | (((path, key), repeated), settings) =>
    let fill := Entries.addAll settings
    es.within (if repeated then Entries.pushTable fill key else Entries.openTable fill key) path

/-- The keys and values of a document, if it is one. -/
def parse (source : String) : Option Entries := do
  let ((top, tables), _) ← StateT.run sections source.toList
  let es ← Entries.addAll top []
  tables.foldlM Entries.addSection es

end Clausal.Toml
