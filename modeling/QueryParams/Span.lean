import QueryParams.Text.Width

/-!
# Spans

A span is a half-open range of byte offsets into a text. It can be cut out of a text only when it
lies within the text and both ends are at character boundaries.
-/

namespace QueryParams

/-- The byte offsets from `start` up to, but without, `stop`. -/
structure Span where
  start : Nat
  stop : Nat
  start_le_stop : start ≤ stop := by omega
  deriving DecidableEq, Repr

namespace Span

def ofText (start : Nat) (text : List Char) : Span where
  start := start
  stop := start + Text.width text

def inclusive (first last : Nat) (h : first ≤ last := by omega) : Span where
  start := first
  stop := last + 1

def length (s : Span) : Nat := s.stop - s.start

def isEmpty (s : Span) : Bool := s.start == s.stop

def contains (s : Span) (offset : Nat) : Bool := s.start ≤ offset && offset < s.stop

/-- The part of the text that the span covers, if the text can be cut at both ends. -/
def slice? (s : Span) (text : List Char) : Option (List Char) := do
  let (_, behind) ← Text.splitAt? s.start text
  let (covered, _) ← Text.splitAt? s.length behind
  return covered

@[simp] theorem contains_iff {s : Span} {offset : Nat} :
    s.contains offset = true ↔ s.start ≤ offset ∧ offset < s.stop := by
  simp [contains]

end Span

end QueryParams
