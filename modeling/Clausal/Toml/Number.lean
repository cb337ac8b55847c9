import Clausal.Toml.Lexical

/-!
Numbers and moments of a TOML document. A decimal number has no leading zeros, and underscores only
between digits. Whole numbers are those of 64 bits with sign. A moment is a date, a time, or both
with or without an offset.
-/
namespace Clausal.Toml

open Reader

/-- Digits of a class, with single underscores between them. -/
def digits (p : Char → Bool) : Reader (List Char) := do
  let first ← one p
  let others ← many do
    match ← peek? with
    | some '_' =>
      exactly ['_']
      return some (← one p)
    | some c => if p c then return some (← one p) else return none
    | none => return none
  return first :: others

def numeral (base : Nat) (cs : List Char) : Nat :=
  cs.foldl (fun n c => base * n + (hexDigit? c).getD 0) 0

/-- A sign, if there is one; true stands for minus. -/
def sign : Reader Bool := do
  if ← skip? ['-'] then return true
  let _ ← skip? ['+']
  return false

/-- A decimal number without leading zeros. -/
def decimal : Reader (List Char) := do
  match ← peek? with
  | some '0' => return [← one (· == '0')]
  | _ => digits isDigit

/-- The whole numbers of 64 bits with sign. -/
def inWord (n : Int) : Bool :=
  Int64.minValue.toInt ≤ n && n ≤ Int64.maxValue.toInt

def word (n : Int) : Reader Int :=
  if inWord n then return n else failure

/-- A whole number: decimal with an optional sign, or of base sixteen, eight or two without. -/
def integer : Reader Int := do
  if ← skip? ['0', 'x'] then
    word (numeral 16 (← digits fun c => (hexDigit? c).isSome))
  else if ← skip? ['0', 'o'] then
    word (numeral 8 (← digits fun c => '0' ≤ c && c ≤ '7'))
  else if ← skip? ['0', 'b'] then
    word (numeral 2 (← digits fun c => c == '0' || c == '1'))
  else
    let negative ← sign
    let n : Int := numeral 10 (← decimal)
    word (if negative then -n else n)

/-- The decimal number `significand * 10 ^ exponent` is too large for a floating-point number: it is
no less than the middle between the largest one and the next power of two. -/
def tooLarge (significand : Nat) (exponent : Int) : Bool :=
  let bound := (1 <<< 1024) - (1 <<< 970)
  let places : Int := (Nat.toDigits 10 significand).length
  if significand = 0 then false
  else if places + exponent > 400 then true
  else if places + exponent < 0 then false
  else if 0 ≤ exponent then bound ≤ significand * Nat.pow 10 exponent.toNat
  else bound * Nat.pow 10 (-exponent).toNat ≤ significand

def exponentPart : Reader Int := do
  let _ ← one fun c => c == 'e' || c == 'E'
  let negative ← sign
  let n : Int := numeral 10 (← digits isDigit)
  return if negative then -n else n

/-- A floating-point number in digits, with a fraction or an exponent or both. -/
def finiteReal : Reader Unit := do
  let negative ← sign
  let whole ← decimal
  let (fraction, exponent) ←
    (do
      exactly ['.']
      let fraction ← digits isDigit
      return (fraction, (← optional exponentPart).getD 0)) <|>
    (do return ([], ← exponentPart))
  if !negative && tooLarge (numeral 10 (whole ++ fraction)) (exponent - fraction.length) then
    failure

def real : Reader Unit :=
  finiteReal <|> do
    let _ ← sign
    exactly "inf".toList <|> exactly "nan".toList

def twoDigits (low high : Nat) : Reader Nat := do
  let n := numeral 10 [← one isDigit, ← one isDigit]
  if low ≤ n && n ≤ high then return n else failure

def daysIn (year month : Nat) : Nat :=
  if month == 2 then
    if year % 4 == 0 && (year % 100 != 0 || year % 400 == 0) then 29 else 28
  else if month == 4 || month == 6 || month == 9 || month == 11 then 30
  else 31

def date : Reader Unit := do
  let year := numeral 10 [← one isDigit, ← one isDigit, ← one isDigit, ← one isDigit]
  exactly ['-']
  let month ← twoDigits 1 12
  exactly ['-']
  let _ ← twoDigits 1 (daysIn year month)

/-- A time of day, with an optional fraction of a second. -/
def time : Reader Unit := do
  let _ ← twoDigits 0 23
  exactly [':']
  let _ ← twoDigits 0 59
  exactly [':']
  let _ ← twoDigits 0 60
  let _ ← optional do
    exactly ['.']
    let _ ← one isDigit
    span isDigit

def offset : Reader Unit := do
  if ← skip? ['Z'] then return
  if ← skip? ['z'] then return
  let _ ← one fun c => c == '+' || c == '-'
  let _ ← twoDigits 0 23
  exactly [':']
  let _ ← twoDigits 0 59

def moment : Reader Unit :=
  (do
    date
    let _ ← optional do
      let _ ← one fun c => c == 'T' || c == 't' || c == ' '
      time
      optional offset) <|>
  time

end Clausal.Toml
