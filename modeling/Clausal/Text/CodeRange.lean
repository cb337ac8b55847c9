/-!
Sets of characters given as ranges of code points, lowest first. The character classes of this
library are such tables, taken from the character database, version 17.
-/
namespace Clausal.Text

/-- Inclusive ranges of code points. -/
abbrev CodeRanges := List (Nat × Nat)

def CodeRanges.contains (ranges : CodeRanges) (c : Char) : Bool :=
  ranges.any fun (low, high) => low ≤ c.toNat && c.toNat ≤ high

end Clausal.Text
