/-!
Floating-point numbers of 64 bits, as far as a program can hold, compare and show them. A number is
kept as its bits, so every one of the many NaNs is told apart, but comparison follows the numbers:
a NaN equals nothing and both zeros are equal.

The text of a number has the fewest digits that read back as the same number, and of those the
nearest; it is written without an exponent.
-/
namespace Clausal

structure Binary64 where
  bits : UInt64
deriving DecidableEq, Inhabited, Repr

namespace Binary64

def isNegative (x : Binary64) : Bool :=
  x.bits >>> 63 == 1

/-- The eleven bits of the exponent. -/
def exponentBits (x : Binary64) : Nat :=
  ((x.bits >>> 52) &&& 0x7FF).toNat

/-- The fifty-two bits behind the exponent. -/
def fractionBits (x : Binary64) : Nat :=
  (x.bits &&& 0xFFFFFFFFFFFFF).toNat

def isNaN (x : Binary64) : Bool :=
  x.exponentBits == 2047 && x.fractionBits != 0

def isInfinite (x : Binary64) : Bool :=
  x.exponentBits == 2047 && x.fractionBits == 0

def isZero (x : Binary64) : Bool :=
  x.exponentBits == 0 && x.fractionBits == 0

/-- Equality of numbers. -/
def equal (x y : Binary64) : Bool :=
  !x.isNaN && !y.isNaN && (x.bits == y.bits || (x.isZero && y.isZero))

/-- The significand of a finite number. -/
def significand (x : Binary64) : Nat :=
  if x.exponentBits = 0 then x.fractionBits else x.fractionBits + 0x10000000000000

/-- The power of two that a finite number counts in, moved up by 1074 so that it is never negative. -/
def scale (x : Binary64) : Nat :=
  x.exponentBits - 1

/-- The number below is closer than the one above, as at a power of two. -/
def narrowBelow (x : Binary64) : Bool :=
  x.fractionBits == 0 && x.exponentBits > 1

/-- The magnitudes that round to a number: all between the two ends, which count where the
significand is even. They and the number itself are given over one denominator. -/
structure Interval where
  low : Nat
  value : Nat
  high : Nat
  denominator : Nat
  closed : Bool

/-- The magnitudes that round to a finite number. -/
def interval (x : Binary64) : Interval where
  low := (4 * x.significand - if x.narrowBelow then 1 else 2) <<< x.scale
  value := (4 * x.significand) <<< x.scale
  high := (4 * x.significand + 2) <<< x.scale
  denominator := 1 <<< 1076
  closed := x.significand % 2 == 0

/-- A multiple of a power of ten, `digits * 10 ^ exponent`. -/
structure Decimal where
  digits : Nat
  exponent : Int
deriving DecidableEq, Repr

namespace Interval

/-- The multiple of the given step, a fraction, rounds to the number. -/
def contains (i : Interval) (multiple stepNum stepDen : Nat) : Bool :=
  let here := multiple * stepNum * i.denominator
  if i.closed then i.low * stepDen ≤ here && here ≤ i.high * stepDen
  else i.low * stepDen < here && here < i.high * stepDen

/-- The multiple of a power of ten that rounds to the number and is nearest to it. Of two at equal
distance it is the greater one. -/
def nearest? (i : Interval) (exponent : Int) : Option Decimal :=
  let stepNum := Nat.pow 10 exponent.toNat
  let stepDen := Nat.pow 10 (-exponent).toNat
  let below := i.value * stepDen / (i.denominator * stepNum)
  let remainder := i.value * stepDen % (i.denominator * stepNum)
  let above := below + 1
  let belowFits := i.contains below stepNum stepDen
  let aboveFits := i.contains above stepNum stepDen
  if belowFits && (!aboveFits || 2 * remainder < i.denominator * stepNum) then
    some ⟨below, exponent⟩
  else if aboveFits then some ⟨above, exponent⟩
  else none

/-- The powers of ten a number can be a multiple of, the largest first. -/
def exponents : List Int :=
  (List.range 660).map fun (k : Nat) => 310 - (k : Int)

/-- The decimal with the fewest digits that rounds to the number. -/
def shortest (i : Interval) : Decimal :=
  (exponents.findSome? i.nearest?).getD ⟨0, 0⟩

end Interval

/-- A decimal written without an exponent. -/
def Decimal.text (d : Decimal) : String :=
  let digits := (toString d.digits).toList
  if 0 ≤ d.exponent then
    String.ofList (digits ++ List.replicate d.exponent.toNat '0')
  else
    let places := (-d.exponent).toNat
    let padded := List.replicate (places + 1 - digits.length) '0' ++ digits
    let whole := padded.length - places
    String.ofList (padded.take whole ++ '.' :: padded.drop whole)

def magnitudeText (x : Binary64) : String :=
  if x.isInfinite then "inf"
  else if x.isZero then "0"
  else x.interval.shortest.text

def text (x : Binary64) : String :=
  if x.isNaN then "NaN"
  else (if x.isNegative then "-" else "") ++ x.magnitudeText

end Binary64
end Clausal
