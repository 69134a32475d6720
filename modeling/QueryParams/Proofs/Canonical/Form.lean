import QueryParams.Proofs.Canonical.Survey
import QueryParams.Proofs.Extraction.Stream

/-!
# The canonical form

What becomes of a parameter that is no expression: a LIKE placeholder is bare, and its binding has
lost its wildcard. All other pieces of a text stay as they are, so the pieces and the segments of
the cleaned text are known from those of the text.

Main statements: `Piece.stripped_canonicals` and `Piece.ofPieces_canonicals`.
-/

namespace QueryParams

def Kind.exact : Kind → Kind
  | .like _ => .like .exact
  | .plain => .plain
  | .collection => .collection

def Binding.exact (b : Binding) : Binding := { b with kind := b.kind.exact }

theorem Binding.key_exact (b : Binding) : b.exact.key = b.key := rfl

namespace Placeholder

/-- The placeholder as it stands in the cleaned text, if it is no expression. -/
def canonical (p : Placeholder) : Placeholder := if p.isLike then p.bare else p

variable {p : Placeholder}

theorem keyword_canonical (p : Placeholder) : p.canonical.keyword = p.keyword := by
  unfold canonical
  split <;> rfl

theorem body_canonical (p : Placeholder) : p.canonical.body = p.body := by
  unfold canonical
  split <;> rfl

theorem isLike_canonical (p : Placeholder) : p.canonical.isLike = p.isLike := by
  rw [isLike, keyword_canonical, isLike]

theorem isIn_canonical (p : Placeholder) : p.canonical.isIn = p.isIn := by
  rw [isIn, keyword_canonical, isIn]

theorem isExpression_canonical (p : Placeholder) : p.canonical.isExpression = p.isExpression := by
  rw [isExpression, body_canonical, isExpression]

theorem canonical_canonical (p : Placeholder) : p.canonical.canonical = p.canonical := by
  by_cases hlike : p.isLike = true
  · have hbare : p.canonical = p.bare := by rw [canonical, if_pos hlike]
    rw [canonical, isLike_canonical, if_pos hlike, hbare]
    rfl
  · have hsame : p.canonical = p := by rw [canonical, if_neg hlike]
    rw [hsame, hsame]

theorem Admissible.canonical (h : p.Admissible) : p.canonical.Admissible where
  classified k hk := h.classified k (by rwa [keyword_canonical] at hk)
  positive hlike digits hbody :=
    h.positive (by rwa [isLike_canonical] at hlike) digits (by rwa [body_canonical] at hbody)

theorem cleaned_eq_text_canonical {numbering : Numbering} {number : Nat}
    (h : p.isExpression = false) : p.cleaned numbering number = p.canonical.text := by
  unfold cleaned replacement? canonical
  by_cases hlike : p.isLike = true
  · simp [h, hlike, text_bare]
  · simp [h, hlike, text]

theorem ofDecorated_decorated (hformed : p.body.WellFormed) :
    Wildcard.ofDecorated p.decorated = Wildcard.ofSides p.leading p.trailing := by
  have hne := p.body.text_ne_nil
  have hfirst : (p.decorated.head? == some '%') = p.leading := by
    rw [decorated, p.body.text_eq_sign_cons]
    cases p.leading <;> cases p.body.sign <;> simp [Text.optional, Sign.char]
  have hlast : (1 < p.decorated.length && p.decorated.getLast? == some '%') = p.trailing := by
    have hbody := Body.getLast?_text_ne_percent hformed
    have hpos := List.length_pos_iff.2 hne
    cases htrailing : p.trailing with
    | true =>
      simp [decorated, htrailing, Text.optional]
      omega
    | false =>
      have hsame : p.decorated.getLast? = p.body.text.getLast? := by
        have hright : Text.optional p.trailing '%' = [] := by rw [htrailing]; rfl
        rw [decorated, hright, List.append_nil, List.getLast?_append,
          List.getLast?_eq_some_getLast hne, Option.some_or]
      simp [hsame, hbody]
  rw [Wildcard.ofDecorated, hfirst, hlast]

theorem binding_canonical {numbering numbering' : Numbering} {number number' : Nat}
    (hformed : p.body.WellFormed) (h : p.isExpression = false) :
    p.canonical.binding numbering number = (p.binding numbering' number').exact := by
  have hkind : p.canonical.boundKind = p.boundKind.exact := by
    unfold boundKind
    rw [isLike_canonical, isIn_canonical]
    by_cases hlike : p.isLike = true
    · rw [if_pos hlike, if_pos hlike, canonical, if_pos hlike,
        @ofDecorated_decorated p.bare hformed]
      rfl
    · by_cases hin : p.isIn = true
      · simp [hlike, hin, Kind.exact]
      · simp [hlike, hin, Kind.exact]
  unfold binding Binding.exact
  rw [hkind, body_canonical, key_eq_of_literal h]

theorem openAfter_text_canonical (quote? : Option Char) (p : Placeholder) :
    Quotations.openAfter quote? p.canonical.text = Quotations.openAfter quote? p.text := by
  by_cases hlike : p.isLike = true
  · have hapart : p.trailing = true → SetsApart (p.back ++ []) := by
      intro _ c hc
      cases hclosed : p.closed with
      | true =>
        simp only [back, hclosed, Text.optional, if_true, List.append_nil, List.head?_cons,
          Option.mem_def, Option.some.injEq] at hc
        rw [← hc]
        decide
      | false => simp [back, hclosed, Text.optional] at hc
    have hthinned := (thinned_bare hapart Text.Thinned.nil).openAfter_eq quote?
    rw [canonical, if_pos hlike]
    simpa using hthinned
  · rw [canonical, if_neg hlike]

end Placeholder

/-! ## Segments and pieces -/

def Segment.canonical : Segment → Segment
  | verbatim text => verbatim text
  | parameter p => parameter p.canonical

namespace Piece

open Placeholder Quotations

def canonical (quote? : Option Char) : Piece → Piece
  | plain c => plain c
  | placeholder p => placeholder (if quote?.isSome then p else p.canonical)

def canonicals (quote? : Option Char) : List Piece → List Piece
  | [] => []
  | piece :: pieces => piece.canonical quote? :: canonicals (openAfter quote? piece.text) pieces

/-- Outside of the literals there are no expressions, and a `%` that is left out is followed by
something that can stand behind the body in its place. -/
def Separable (quote? : Option Char) (pieces : List Piece) : Prop :=
  ∀ earlier p later, pieces = earlier ++ placeholder p :: later →
    openAfter quote? (earlier.flatMap text) = none →
      p.isExpression = false ∧ (p.isLike = true → p.trailing = true →
        SetsApart (p.back ++ later.flatMap text))

theorem Separable.tail {quote? : Option Char} {piece : Piece} {pieces : List Piece}
    (h : Separable quote? (piece :: pieces)) :
    Separable (openAfter quote? piece.text) pieces := by
  intro earlier p later hpieces hopen
  apply h (piece :: earlier) p later (by rw [hpieces]; rfl)
  rw [List.flatMap_cons, openAfter_append]
  exact hopen

theorem stripped_canonicals {quote? : Option Char} {pieces : List Piece}
    (h : Separable quote? pieces) : Stripped pieces (canonicals quote? pieces) := by
  induction pieces generalizing quote? with
  | nil => exact Stripped.nil
  | cons piece pieces ih =>
    have hrest := ih h.tail
    rw [canonicals]
    cases piece with
    | plain c => exact hrest.same (plain c)
    | placeholder p =>
      rw [canonical]
      by_cases hquoted : quote?.isSome = true
      · rw [if_pos hquoted]
        exact hrest.same (placeholder p)
      · rw [if_neg hquoted, Placeholder.canonical]
        by_cases hlike : p.isLike = true
        · rw [if_pos hlike]
          have hnone : quote? = none := by simpa using hquoted
          obtain ⟨hliteral, hapart⟩ := h [] p pieces rfl hnone
          exact hrest.bare p hlike hliteral (hapart hlike)
        · rw [if_neg hlike]
          exact hrest.same (placeholder p)

theorem openAfter_text_canonical (quote? : Option Char) (piece : Piece) :
    openAfter quote? (piece.canonical quote?).text = openAfter quote? piece.text := by
  cases piece with
  | plain c => rfl
  | placeholder p =>
    rw [canonical, text, text]
    by_cases hquoted : quote?.isSome = true
    · rw [if_pos hquoted]
    · rw [if_neg hquoted, Placeholder.openAfter_text_canonical]

theorem ofOpen_canonical (quote? : Option Char) (piece : Piece) :
    Segment.ofOpen quote? (piece.canonical quote?) = (Segment.ofOpen quote? piece).canonical := by
  cases piece with
  | plain c => rfl
  | placeholder p => cases quote? <;> rfl

/-- The segments of the cleaned text are those of the text in canonical form. -/
theorem ofPieces_canonicals (quote? : Option Char) (pieces : List Piece) :
    Segment.ofPieces quote? (canonicals quote? pieces) =
      (Segment.ofPieces quote? pieces).map Segment.canonical := by
  induction pieces generalizing quote? with
  | nil => rfl
  | cons piece pieces ih =>
    rw [canonicals, Segment.ofPieces, Segment.ofPieces, List.map_cons, ofOpen_canonical,
      openAfter_text_canonical, ih]

end Piece

end QueryParams
