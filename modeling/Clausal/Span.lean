import Clausal.Violation

/-!
Source positions. A span is a half-open range of byte offsets; the default one, at offset zero, is
for what has no source text of its own.
-/
namespace Clausal

/-- A half-open range of byte offsets. -/
structure Span where
  start : UInt32 := 0
  stop : UInt32 := 0
deriving DecidableEq, Inhabited, Repr

namespace Span

/-- The number of bytes covered; a span that ends before it starts has none. -/
def length (s : Span) : Except Violation UInt32 :=
  if s.start ≤ s.stop then .ok (s.stop - s.start) else .error .subtractionOverflow

/-- The least span that covers both. -/
def join (s t : Span) : Span :=
  ⟨min s.start t.start, max s.stop t.stop⟩

/-- Both offsets, parted by a colon. -/
def text (s : Span) : String :=
  toString s.start ++ ":" ++ toString s.stop

end Span
end Clausal
