import Clausal.Text.Emoji
import Clausal.Text.Ligature

/-!
How many columns of a terminal a text takes. Plain text counts its bytes. Any other text counts its
characters from the right, each with what stands after it: the parts of one emoji take two columns
together, a ligature takes those of its form, and a line end of two characters takes one.
-/
namespace Clausal.Text

/-- The characters that choose the style of the one before them. -/
inductive Selector where
  | fullWidth
  | text
  | emoji
deriving DecidableEq, Repr

def Selector.of? (c : Char) : Option Selector :=
  match c with
  | '\uFE01' => some .fullWidth
  | '\uFE0E' => some .text
  | '\uFE0F' => some .emoji
  | _ => none

/-- The character is a quotation mark that has a form of two columns. -/
def isCurlyQuote (c : Char) : Bool :=
  c = '‘' || c = '’' || c = '“' || c = '”'

/-- What stands to the right of a character, as far as the two may count together. -/
inductive Follower where
  | other
  | lineFeed
  | skinTone
  | flagLetter
  | flagLetters
  | emoji
  /-- A joiner and an emoji. -/
  | joinedEmoji
  /-- A keycap mark before a joined emoji. -/
  | joinedKeycap
  /-- One flag letter before a joined emoji. -/
  | joinedFlagLetter
  /-- Pairs of flag letters before a joined emoji. -/
  | joinedFlags
  /-- Pairs of flag letters before a joined emoji, and one letter more. -/
  | joinedFlagsLetter
  /-- Tags before a joined emoji: the last tags are letters, those before them digits. -/
  | joinedTags (letters digits : Nat)
  /-- The Kirat Rai vowel sign e, which makes one sign with the vowel before it. -/
  | vowelE
  /-- The Kirat Rai vowel sign ai. -/
  | vowelAi
  /-- An alef, which makes one form with the lam before it. -/
  | alef
  /-- The end of a ligature, with or without a joiner before it. -/
  | piece (tail : Piece) (joined : Bool)
deriving DecidableEq, Repr

namespace Follower

/-- What a character by itself is for the one before it. -/
def of (c : Char) : Follower :=
  if isSkinTone c then .skinTone
  else if isFlagLetter c then .flagLetter
  else if isEmoji c then .emoji
  else if alefRanges.contains c then .alef
  else if c.toNat = 0x16D67 then .vowelE
  else if c.toNat = 0x16D68 then .vowelAi
  else match Piece.of? c with
    | some p => .piece p false
    | none => .other

/-- A selector may stand before it without parting it from what comes before the selector. -/
def isScript : Follower → Bool
  | .alef | .piece _ _ => true
  | _ => false

/-- It is joined to the emoji before it, which may end in a selector. -/
def isJoined : Follower → Bool
  | .joinedEmoji | .joinedKeycap => true
  | _ => false

/-- The tags name a part of a country: two letters or three digits, and one to four letters more. -/
def isRegion (letters digits : Nat) : Bool :=
  digits == 3 || (digits == 0 && 3 ≤ letters && letters ≤ 6)

/-- What a character adds to the columns of a sequence that it continues, and what the two are. -/
def extend? (c : Char) : Follower → Option (Int × Follower)
  | .alef =>
    if lamRanges.contains c then some (0, .other)
    else if isJoiningTransparent c then some (0, .alef)
    else none
  | .piece p joined =>
    if c = '\u200D' then some (0, .piece p true)
    else if ignorableMarkRanges.contains c then some (0, .piece p joined)
    else (Ligature.find? c p joined).map fun l =>
      (l.width, (l.longer.map fun q => piece q false).getD .other)
  | .skinTone =>
    if isSkinToneBase c then some (0, .emoji)
    else if c = '\u200D' then some (0, .joinedEmoji)
    else none
  | .flagLetter => if isFlagLetter c then some (1, .flagLetters) else none
  | .flagLetters =>
    if isFlagLetter c then some (1, .flagLetters)
    else if c = '\u200D' then some (0, .joinedEmoji)
    else none
  | .emoji => if c = '\u200D' then some (0, .joinedEmoji) else none
  | .joinedEmoji =>
    if c = '\u20E3' then some (0, .joinedKeycap)
    else if isFlagLetter c then some (1, .joinedFlagLetter)
    else if isSkinTone c then some (0, .skinTone)
    else if c.toNat = 0xE007F then some (0, .joinedTags 0 0)
    else if isEmoji c then some (0, .emoji)
    else none
  | .joinedFlagLetter => if isFlagLetter c then some (-1, .joinedFlags) else none
  | .joinedFlags =>
    if isFlagLetter c then some (3, .joinedFlagsLetter)
    else if c = '\u200D' then some (0, .joinedEmoji)
    else none
  | .joinedFlagsLetter =>
    if isFlagLetter c then some (-1, .joinedFlags)
    else if c = '\u200D' then some (0, .joinedEmoji)
    else none
  | .joinedTags letters digits =>
    if isTagLetter c && digits == 0 && letters < 6 then some (0, .joinedTags (letters + 1) 0)
    else if isTagDigit c && digits < 3 && letters ≤ 4 then
      some (0, .joinedTags letters (digits + 1))
    else if c.toNat = 0x1F3F4 && isRegion letters digits then some (0, .emoji)
    else none
  | .vowelE =>
    if c.toNat = 0x16D63 || c.toNat = 0x16D69 then some (0, .other)
    else if c.toNat = 0x16D67 then some (0, .vowelAi)
    else if c.toNat = 0x16D68 then some (1, .vowelE)
    else none
  | .vowelAi => if c.toNat = 0x16D63 then some (0, .other) else none
  | .joinedKeycap | .lineFeed | .other => none

end Follower

/-- What a character meets when a text is counted from the right. -/
structure Context where
  follower : Follower := .other
  /-- The selectors between the character and what follows. -/
  selectors : List Selector := []
deriving Repr

namespace Context

/-- What follows, where the emoji selector has nothing to act on. -/
def rest (ctx : Context) : Follower :=
  if ctx.selectors.contains .emoji && !ctx.follower.isScript then .other else ctx.follower

/-- The context before one more selector. Selectors before a ligature pile up; of these the emoji
selector acts only on the character next to it. Elsewhere a selector stands alone. -/
def select (s : Selector) (ctx : Context) : Context :=
  if ctx.rest.isScript then ⟨ctx.rest, s :: ctx.selectors.filter (· != .emoji)⟩
  else if s = .emoji && ctx.rest.isJoined then ⟨ctx.rest, [s]⟩
  else ⟨.other, [s]⟩

/-- What a character adds to the columns of the text after it, and the context before it. -/
def step (c : Char) (ctx : Context) : Int × Context :=
  if ctx.selectors.contains .emoji && hasEmojiStyle c then
    (if ctx.follower.isJoined then 0 else 2, ⟨.emoji, []⟩)
  else if c.toNat ≤ 0xA0 then
    if c = '\n' then (1, ⟨.lineFeed, []⟩)
    else (if c = '\r' && ctx.rest = .lineFeed then 0 else 1, {})
  else
    match Selector.of? c with
    | some s => (0, ctx.select s)
    | none =>
      if ctx.selectors.contains .fullWidth && isCurlyQuote c then (2, {})
      else if ctx.selectors.contains .text && hasNarrowTextStyle c then (1, {})
      else
        match ctx.rest.extend? c with
        | some (width, follower) => (width, ⟨follower, []⟩)
        | none => (charWidth c, ⟨.of c, []⟩)

end Context

def columns (cs : List Char) : Nat :=
  (cs.foldr (fun c (sum, ctx) =>
    let (width, ctx) := ctx.step c
    (sum + width, ctx)) ((0 : Int), ({} : Context))).1.toNat

/-- The columns of a text: its bytes if it is plain, else the columns of its characters. -/
def displayWidth (text : String) : Nat :=
  if text.toList.all (fun c => c.toNat < 0x80) then text.utf8ByteSize else columns text.toList

end Clausal.Text
