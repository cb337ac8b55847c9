/-!
The small parts of a TOML document: blanks, comments, keys and texts. A reader takes characters from
the front of the document or fails.
-/
namespace Clausal.Toml

/-- Takes characters from the front, or fails. -/
abbrev Reader := StateT (List Char) Option

namespace Reader

/-- The next character, which is left in place. -/
def peek? : Reader (Option Char) := do
  return (← get).head?

def atEnd : Reader Bool := do
  return (← get).isEmpty

def one (p : Char → Bool) : Reader Char := do
  match ← get with
  | c :: cs =>
    if p c then
      set cs
      return c
    else failure
  | [] => failure

def exactly (word : List Char) : Reader Unit := do
  let cs ← get
  if word.isPrefixOf cs then set (cs.drop word.length) else failure

/-- Takes this text if it is next, and says so. -/
def skip? (word : List Char) : Reader Bool := do
  let cs ← get
  if word.isPrefixOf cs then
    set (cs.drop word.length)
    return true
  else return false

def span (p : Char → Bool) : Reader (List Char) := do
  let cs ← get
  set (cs.dropWhile p)
  return cs.takeWhile p

/-- Takes parts until there is none, no more than given. -/
def manyWithin {α : Type} (part : Reader (Option α)) : Nat → Reader (List α)
  | 0 => return []
  | n + 1 => do
    match ← part with
    | none => return []
    | some a => return a :: (← manyWithin part n)

/-- Takes parts until there is none. Each part takes a character at least, so there are no more of
them than characters. -/
def many {α : Type} (part : Reader (Option α)) : Reader (List α) := do
  manyWithin part ((← get).length + 1)

end Reader

open Reader

def isBlank (c : Char) : Bool :=
  c == ' ' || c == '\t'

/-- A character that may stand in a comment: a tab, or what is no control character. -/
def isCommentChar (c : Char) : Bool :=
  c == '\t' || (0x20 ≤ c.toNat && c.toNat != 0x7F)

/-- A character that stands for itself in a text with escapes. -/
def isPlainChar (c : Char) : Bool :=
  isCommentChar c && c != '"' && c != '\\'

/-- A character that may stand in a text without escapes. -/
def isLiteralChar (c : Char) : Bool :=
  isCommentChar c && c != '\''

def isDigit (c : Char) : Bool :=
  '0' ≤ c && c ≤ '9'

def hexDigit? (c : Char) : Option Nat :=
  if isDigit c then some (c.toNat - '0'.toNat)
  else if 'a' ≤ c && c ≤ 'f' then some (c.toNat - 'a'.toNat + 10)
  else if 'A' ≤ c && c ≤ 'F' then some (c.toNat - 'A'.toNat + 10)
  else none

def isKeyChar (c : Char) : Bool :=
  isDigit c || ('a' ≤ c && c ≤ 'z') || ('A' ≤ c && c ≤ 'Z') || c == '-' || c == '_'

def blanks : Reader Unit := do
  let _ ← span isBlank

def newline : Reader Unit :=
  exactly ['\n'] <|> exactly ['\r', '\n']

/-- A comment up to the end of its line. -/
def comment : Reader Unit := do
  exactly ['#']
  let _ ← span isCommentChar

/-- A line end or the end of the document. -/
def lineEnd : Reader Unit := do
  if ← atEnd then return else newline

/-- What may follow on a line: blanks and a comment. -/
def trailing : Reader Unit := do
  blanks
  if (← peek?) == some '#' then comment
  lineEnd

/-- Blanks, line ends and comments, each comment with the line end behind it. -/
def filler : Reader Unit := do
  let _ ← many do
    match ← peek? with
    | some '#' =>
      comment
      newline
      return some ()
    | some c =>
      if isBlank c then
        blanks
        return some ()
      else if c == '\n' || c == '\r' then
        newline
        return some ()
      else return none
    | none => return none

/-- A character given by this many hexadecimal digits. -/
def codePoint (digits : Nat) : Reader Char := do
  let cs := (← get).take digits
  if cs.length ≠ digits then failure
  let values ← cs.mapM fun c => (hexDigit? c : Option Nat)
  let code := values.foldl (fun n d => 16 * n + d) 0
  if h : code.isValidChar then
    modify (·.drop digits)
    return Char.ofNatAux code h
  else failure

/-- The character that an escape stands for, behind its backslash. -/
def escape : Reader Char := do
  match ← one fun _ => true with
  | 'b' => return '\x08'
  | 't' => return '\t'
  | 'n' => return '\n'
  | 'f' => return '\x0c'
  | 'r' => return '\r'
  | '"' => return '"'
  | '\\' => return '\\'
  | 'u' => codePoint 4
  | 'U' => codePoint 8
  | _ => failure

def basicText : Reader String := do
  exactly ['"']
  let parts ← many do
    match ← peek? with
    | some '\\' =>
      exactly ['\\']
      return some (← escape)
    | some c =>
      if isPlainChar c then return some (← one isPlainChar) else return none
    | none => return none
  exactly ['"']
  return String.ofList parts

def literalText : Reader String := do
  exactly ['\'']
  let content ← span isLiteralChar
  exactly ['\'']
  return String.ofList content

/-- A row of quotes inside a text on many lines. One or two of them belong to the text. Three or more
end it; of those the ones before the last three belong to the text, two at most. -/
def innerQuotes (quote : Char) : Reader (List Char × Bool) := do
  let quotes ← span (· == quote)
  if quotes.length ≤ 2 then return (quotes, false)
  else if quotes.length ≤ 5 then return (quotes.drop 3, true)
  else failure

/-- A line end that does not count, behind its backslash: all blanks and line ends up to the next
character are left out. -/
def foldedLines : Reader Unit := do
  blanks
  newline
  let _ ← many do
    match ← peek? with
    | some c =>
      if isBlank c then
        blanks
        return some ()
      else if c == '\n' || c == '\r' then
        newline
        return some ()
      else return none
    | none => return none

/-- The rest of a text on many lines, its parts read one by one until one ends it. -/
def manyLinesWithin (part : Reader (List Char × Bool)) : Nat → Reader (List Char)
  | 0 => failure
  | n + 1 => do
    let (content, done) ← part
    if done then return content else return content ++ (← manyLinesWithin part n)

/-- A text on many lines between three quotes on either side. A line end right behind the opening
quotes does not count. -/
def manyLines (quote : Char) (part : Char → Reader (List Char × Bool)) : Reader String := do
  exactly [quote, quote, quote]
  let _ ← optional newline
  let inside : Reader (List Char × Bool) := do
    match ← peek? with
    | none => failure
    | some c =>
      if c == quote then innerQuotes quote
      else if c == '\n' || c == '\r' then
        newline
        return (['\n'], false)
      else part c
  let content ← manyLinesWithin inside ((← get).length + 1)
  return String.ofList content

def basicLines : Reader String :=
  manyLines '"' fun c => do
    if c == '\\' then
      exactly ['\\']
      (do foldedLines; return ([], false)) <|> (do return ([← escape], false))
    else return ([← one isPlainChar], false)

def literalLines : Reader String :=
  manyLines '\'' fun _ => do
    return ([← one isLiteralChar], false)

def anyText : Reader String :=
  basicLines <|> basicText <|> literalLines <|> literalText

def keyPart : Reader String := do
  match ← peek? with
  | some '"' => basicText
  | some '\'' => literalText
  | _ =>
    let cs ← span isKeyChar
    if cs.isEmpty then failure else return String.ofList cs

/-- The largest number of parts of a key, and of arrays and tables inside one another. -/
def deepest : Nat := 79

/-- A key: parts between dots. -/
def key : Reader (List String × String) := do
  let part : Reader String := do
    blanks
    let p ← keyPart
    blanks
    return p
  let first ← part
  let others ← many do
    if ← skip? ['.'] then return some (← part) else return none
  let parts := first :: others
  if parts.length > deepest then failure
  return (parts.dropLast, others.getLastD first)

end Clausal.Toml
