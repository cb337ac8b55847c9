import Clausal.Text.CharWidth

/-!
Ligatures that take other columns than their letters do one by one. A ligature is read from its end:
a piece on the right, and the letter on the left that completes it or makes a longer piece.
Ignorable marks between the two change nothing.
-/
namespace Clausal.Text

inductive Piece where
  | lamed
  | coengLetter
  | ya
  | vowelYa
  | consonant
  | joinerConsonant
  | lowTone
  | orkhonI
deriving DecidableEq, Repr

/-- The Khmer letters with a form below the line. -/
def coengLetterRanges : CodeRanges :=
  [(0x1780, 0x1782), (0x1784, 0x1787), (0x1789, 0x178C), (0x178E, 0x1793), (0x1795, 0x1798),
   (0x179B, 0x179D), (0x17A0, 0x17A0), (0x17A2, 0x17A2), (0x17A7, 0x17A7), (0x17AB, 0x17AC),
   (0x17AF, 0x17AF)]

def tifinaghRanges : CodeRanges :=
  [(0x2D31, 0x2D65), (0x2D6F, 0x2D6F)]

def Piece.of? (c : Char) : Option Piece :=
  if c = '\u05DC' then some .lamed
  else if coengLetterRanges.contains c then some .coengLetter
  else if c = '\u1A10' then some .ya
  else if tifinaghRanges.contains c then some .consonant
  else if c = '\uA4FC' || c = '\uA4FD' then some .lowTone
  else if c.toNat = 0x10C03 then some .orkhonI
  else none

/-- A letter and the piece to its right. -/
structure Ligature where
  left : CodeRanges
  right : Piece
  joined : Bool
  /-- What the letter adds to the columns of the piece. -/
  width : Int
  /-- The longer piece, if the two are one. -/
  longer : Option Piece

/-- The ligatures of Hebrew, Khmer, Buginese, Tifinagh, Lisu and Old Turkic. -/
def ligatures : List Ligature :=
  [⟨[(0x5D0, 0x5D0)], .lamed, true, 0, none⟩,
   ⟨[(0x17D2, 0x17D2)], .coengLetter, false, -1, none⟩,
   ⟨[(0x1A17, 0x1A17)], .ya, true, 0, some .vowelYa⟩,
   ⟨[(0x1A15, 0x1A15)], .vowelYa, false, 0, none⟩,
   ⟨[(0x2D7F, 0x2D7F)], .consonant, false, 1, some .joinerConsonant⟩,
   ⟨tifinaghRanges, .consonant, true, 0, none⟩,
   ⟨tifinaghRanges, .joinerConsonant, false, -1, none⟩,
   ⟨[(0xA4F8, 0xA4FB)], .lowTone, false, 0, none⟩,
   ⟨[(0x10C32, 0x10C32)], .orkhonI, true, 0, none⟩]

/-- The ligature of a letter and a piece; a joiner may stand where none is needed. -/
def Ligature.find? (c : Char) (piece : Piece) (joined : Bool) : Option Ligature :=
  ligatures.find? fun l => l.left.contains c && l.right == piece && (joined || !l.joined)

/-- The marks that are ignored in display. -/
def ignorableMarkRanges : CodeRanges :=
  [(0x34F, 0x34F), (0x17B4, 0x17B5), (0x180B, 0x180D), (0x180F, 0x180F), (0xFE00, 0xFE0F),
   (0xE0100, 0xE01EF)]

/-- The Arabic letters of the form of alef. -/
def alefRanges : CodeRanges :=
  [(0x622, 0x623), (0x625, 0x625), (0x627, 0x627), (0x671, 0x673), (0x675, 0x675),
   (0x773, 0x774), (0x870, 0x882)]

/-- The Arabic letters of the form of lam. -/
def lamRanges : CodeRanges :=
  [(0x644, 0x644), (0x6B5, 0x6B8), (0x76A, 0x76A), (0x8A6, 0x8A6), (0x8C7, 0x8C7)]

/-- The characters without columns that part two Arabic letters all the same. -/
def partingRanges : CodeRanges :=
  [(0x605, 0x605), (0x890, 0x891), (0x8E2, 0x8E2), (0x9BE, 0x9BE), (0x9D7, 0x9D7), (0xB3E, 0xB3E),
   (0xB57, 0xB57), (0xBBE, 0xBBE), (0xBD7, 0xBD7), (0xCC0, 0xCC0), (0xCC2, 0xCC2), (0xCC7, 0xCC8),
   (0xCCA, 0xCCB), (0xCD5, 0xCD6), (0xD3E, 0xD3E), (0xD4E, 0xD4E), (0xD57, 0xD57), (0xDCF, 0xDCF),
   (0xDDF, 0xDDF), (0x1160, 0x11FF), (0x1715, 0x1715), (0x1734, 0x1734), (0x180E, 0x180E),
   (0x1B35, 0x1B35), (0x1B3B, 0x1B3B), (0x1B3D, 0x1B3D), (0x1B43, 0x1B44), (0x1BAA, 0x1BAA),
   (0x1BF2, 0x1BF3), (0x200C, 0x200D), (0x2065, 0x2069), (0x302E, 0x302F), (0x3164, 0x3164),
   (0xA8FA, 0xA8FA), (0xA953, 0xA953), (0xA9C0, 0xA9C0), (0xD7B0, 0xD7C6), (0xD7CB, 0xD7FB),
   (0xFFA0, 0xFFA0), (0xFFF0, 0xFFF8), (0x111C0, 0x111C0), (0x111C2, 0x111C3), (0x11235, 0x11235),
   (0x1133E, 0x1133E), (0x1134D, 0x1134D), (0x11357, 0x11357), (0x113B8, 0x113B8),
   (0x113C2, 0x113C2), (0x113C5, 0x113C5), (0x113C7, 0x113C9), (0x113CF, 0x113CF),
   (0x113D1, 0x113D1), (0x114B0, 0x114B0), (0x114BD, 0x114BD), (0x115AF, 0x115AF),
   (0x116B6, 0x116B6), (0x11930, 0x11930), (0x1193D, 0x1193D), (0x1193F, 0x1193F),
   (0x11941, 0x11941), (0x11A84, 0x11A89), (0x11D46, 0x11D46), (0x11F02, 0x11F02),
   (0x11F41, 0x11F41), (0x16FF0, 0x16FF1), (0x1D165, 0x1D166), (0x1D16D, 0x1D172),
   (0x1D250, 0x1D251), (0x1D25F, 0x1D25F), (0x1D280, 0x1D281), (0xE0000, 0xE0000),
   (0xE0002, 0xE001F), (0xE0080, 0xE00FF), (0xE01F0, 0xE0FFF)]

/-- The character stands between two Arabic letters without parting them. -/
def isJoiningTransparent (c : Char) : Bool :=
  charWidth c == 0 && !partingRanges.contains c

end Clausal.Text
