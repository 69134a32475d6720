import QueryParams.Placeholder.Reader
import QueryParams.Span

/-!
# The placeholders of a text

`Piece.ofText` divides a text from left to right into placeholders and single characters that belong
to none. Wherever a placeholder can be read it is taken, so the pieces give back the text, and
`Placeholder.occurrences` lists the placeholders with their places.

Main statement: `Piece.flatMap_text_ofText`, the pieces in order make up the text.
-/

namespace QueryParams

/-- A part of a text: a character outside of every placeholder, or a placeholder. -/
inductive Piece where
  | plain (c : Char)
  | placeholder (p : Placeholder)
  deriving DecidableEq, Repr

namespace Piece

def text : Piece → List Char
  | plain c => [c]
  | placeholder p => p.text

def split (before : Option Char) : List Char → List Piece
  | [] => []
  | c :: cs =>
    match _h : Placeholder.readUnescaped? before (c :: cs) with
    | some (p, rest) => placeholder p :: split p.text.getLast? rest
    | none => plain c :: split (some c) cs
termination_by cs => cs.length
decreasing_by
  · exact Placeholder.length_lt_of_readUnescaped? (by assumption)
  · simp

def ofText (text : List Char) : List Piece := split none text

def locate (offset : Nat) : List Piece → List (Nat × Piece)
  | [] => []
  | piece :: pieces => (offset, piece) :: locate (offset + Text.width piece.text) pieces

theorem flatMap_text_split (before : Option Char) (cs : List Char) :
    (split before cs).flatMap text = cs := by
  fun_induction split before cs with
  | case1 => rfl
  | case2 before c cs p rest h ih =>
    rw [List.flatMap_cons, ih]
    exact (Placeholder.eq_text_append_of_read? (Option.filter_eq_some_iff.1 h).1).symm
  | case3 before c cs h ih => rw [List.flatMap_cons, ih]; rfl

theorem flatMap_text_ofText (cs : List Char) : (ofText cs).flatMap text = cs :=
  flatMap_text_split none cs

end Piece

structure Occurrence where
  start : Nat
  placeholder : Placeholder
  deriving DecidableEq, Repr

namespace Occurrence

def span (o : Occurrence) : Span := Span.ofText o.start o.placeholder.text

def decoratedSpan (o : Occurrence) : Span :=
  Span.ofText (o.start + Text.width o.placeholder.front) o.placeholder.decorated

end Occurrence

/-- All placeholders of a text from left to right, inside literals too. -/
def Placeholder.occurrences (text : List Char) : List Occurrence :=
  (Piece.locate 0 (Piece.ofText text)).filterMap fun
    | (start, .placeholder p) => some ⟨start, p⟩
    | (_, .plain _) => none

end QueryParams
