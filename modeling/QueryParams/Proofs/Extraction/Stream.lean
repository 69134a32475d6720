import QueryParams.Proofs.Extraction.Parameters
import QueryParams.Proofs.Placeholder.Quotes

/-!
# Segments from left to right

Which placeholders are parameters can be decided while the pieces of a text go by, from the quote
that is open in front of each of them. No offsets are needed for it.

Main statement: `Segment.ofText_eq_ofPieces`.
-/

namespace QueryParams

open Quotations

namespace Segment

def ofOpen (quote? : Option Char) : Piece → Segment
  | .plain c => verbatim [c]
  | .placeholder p => if quote?.isSome then verbatim p.text else parameter p

def ofPieces (quote? : Option Char) : List Piece → List Segment
  | [] => []
  | piece :: pieces => ofOpen quote? piece :: ofPieces (openAfter quote? piece.text) pieces

theorem text_ofOpen (quote? : Option Char) (piece : Piece) :
    (ofOpen quote? piece).text = piece.text := by
  cases piece with
  | plain c => rfl
  | placeholder p => cases quote? <;> rfl

theorem flatMap_text_ofPieces (quote? : Option Char) (pieces : List Piece) :
    (ofPieces quote? pieces).flatMap text = pieces.flatMap Piece.text := by
  induction pieces generalizing quote? with
  | nil => rfl
  | cons piece pieces ih =>
    rw [ofPieces, List.flatMap_cons, List.flatMap_cons, text_ofOpen, ih]

theorem ofPieces_append (quote? : Option Char) (as bs : List Piece) :
    ofPieces quote? (as ++ bs) =
      ofPieces quote? as ++ ofPieces (openAfter quote? (as.flatMap Piece.text)) bs := by
  induction as generalizing quote? with
  | nil => rfl
  | cons a as ih =>
    rw [List.cons_append, ofPieces, ofPieces, ih, List.flatMap_cons, openAfter_append,
      List.cons_append]

/-- One step: the offset of a piece and the quote in front of it decide alike. -/
theorem ofPiece_width_eq_ofOpen {quotations : Quotations} {before behind : List Char}
    {piece : Piece} (h : Quotations.ofText (before ++ (piece.text ++ behind)) = .ok quotations)
    (hk : ∀ p, piece = .placeholder p → ∀ k ∈ p.keyword, k.WellFormed) :
    ofPiece quotations (Text.width before, piece) = ofOpen (openAfter none before) piece := by
  cases piece with
  | plain c => rfl
  | placeholder p =>
    obtain ⟨c, cs, htext, hc⟩ := Placeholder.exists_text_eq_cons (hk p rfl)
    rw [Piece.text, htext, List.cons_append] at h
    have hquoted := isQuoted_width_iff h hc
    rw [ofPiece, ofOpen]
    cases hopen : openAfter none before with
    | none =>
      rw [hopen] at hquoted
      simp only [ne_eq, not_true_eq_false, iff_false] at hquoted
      rw [if_neg hquoted]
      rfl
    | some quote =>
      rw [hopen] at hquoted
      rw [if_pos (hquoted.2 (Option.some_ne_none quote))]
      rfl

theorem map_ofPiece_locate {quotations : Quotations} {before : List Char} {pieces : List Piece}
    (h : Quotations.ofText (before ++ pieces.flatMap Piece.text) = .ok quotations)
    (hk : ∀ p, .placeholder p ∈ pieces → ∀ k ∈ p.keyword, k.WellFormed) :
    (Piece.locate (Text.width before) pieces).map (ofPiece quotations) =
      ofPieces (openAfter none before) pieces := by
  induction pieces generalizing before with
  | nil => rfl
  | cons piece pieces ih =>
    rw [List.flatMap_cons] at h
    rw [Piece.locate, List.map_cons, ofPieces, ← openAfter_append, ← Text.width_append]
    rw [ofPiece_width_eq_ofOpen h, ih]
    · rw [List.append_assoc]
      exact h
    · intro p hp
      exact hk p (List.mem_cons_of_mem _ hp)
    · intro p hp
      exact hk p (by rw [hp]; exact List.mem_cons_self)

theorem ofText_eq_ofPieces {quotations : Quotations} {text : List Char}
    (h : Quotations.ofText text = .ok quotations) :
    ofText quotations text = ofPieces none (Piece.ofText text) := by
  have hrun := @map_ofPiece_locate quotations [] (Piece.ofText text)
  rw [Piece.flatMap_text_ofText] at hrun
  apply hrun h
  intro p hp
  obtain ⟨earlier, later, hpieces⟩ := List.append_of_mem hp
  have hread := Piece.isReadAt_of_ofText_eq hpieces
  obtain ⟨-, hfits, -⟩ := Placeholder.readUnescaped?_eq_some_iff.1 hread
  exact hfits.wellFormed_keyword

end Segment

theorem Placeholder.mem_parameters_of_openAfter {quotations : Quotations} {text : List Char}
    {earlier later : List Piece} {p : Placeholder}
    (h : Quotations.ofText text = .ok quotations)
    (hpieces : Piece.ofText text = earlier ++ .placeholder p :: later)
    (hopen : openAfter none (earlier.flatMap Piece.text) = none) :
    (⟨Text.width (earlier.flatMap Piece.text), p⟩ : Occurrence) ∈ parameters quotations text := by
  have hoccurs : (⟨Text.width (earlier.flatMap Piece.text), p⟩ : Occurrence) ∈ occurrences text :=
    mem_occurrences_iff.2 ⟨earlier, later, hpieces, rfl⟩
  have hread := Piece.isReadAt_of_ofText_eq hpieces
  obtain ⟨-, hfits, -⟩ := readUnescaped?_eq_some_iff.1 hread
  obtain ⟨c, cs, htext, hc⟩ := exists_text_eq_cons hfits.wellFormed_keyword
  rw [Piece.eq_append_of_ofText_eq hpieces, Piece.text, htext, List.cons_append] at h
  have hquoted := isQuoted_width_iff h hc
  rw [hopen] at hquoted
  refine mem_parameters_iff.2 ⟨hoccurs, ?_⟩
  simpa using hquoted

end QueryParams
