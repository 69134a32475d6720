import QueryParams.Proofs.Extraction.Alike
import QueryParams.Proofs.Extraction.Bindings
import QueryParams.Proofs.Extraction.Frame
import QueryParams.Proofs.Literal.Division
import QueryParams.Proofs.Text.Search

/-!
# The contents of a literal

What stands inside of a literal has no effect on a parse, apart from being copied. Two queries that
differ inside of one literal only are both refused in the same way, or both parsed to the same
bindings and to texts that differ inside of this literal only.

Main statement: `ParsedQuery.parse_with_literal`.
-/

namespace QueryParams

open Quotations Extraction

namespace Text

def withLiteral (quote : Char) (before contents behind : List Char) : List Char :=
  before ++ quote :: (contents ++ quote :: behind)

/-- The contents do not close the literal, and hold neither an index nor an expression. -/
structure Inert (quote : Char) (contents : List Char) : Prop where
  closes : quote ∉ contents
  index : '?' ∉ contents
  expression : ¬expressionMark <:+: contents

end Text

open Text

variable {quote : Char} {before contents contents' behind : List Char}

/-! ## The survey -/

theorem Text.isBlankText_withLiteral (hquote : isQuote quote = true) :
    isBlankText (withLiteral quote before contents behind) = false := by
  have hblank : isBlank quote = false := by
    rcases (by simpa [isQuote] using hquote : quote = '"' ∨ quote = '\'') with rfl | rfl <;> decide
  simp [withLiteral, isBlankText, hblank]

theorem Quotations.openAfter_withLiteral (hquote : isQuote quote = true)
    (hbefore : openAfter none before = none) (hclosed : quote ∉ contents) :
    openAfter none (withLiteral quote before contents behind) = openAfter none behind := by
  have hinside : openAfter (some quote) contents = some quote :=
    openAfter_of_not_mem fun c hc heq => hclosed (heq ▸ hc)
  rw [withLiteral, openAfter_append, hbefore, openAfter_cons, advance_none hquote, openAfter_append,
    hinside, openAfter_cons, advance_self hquote]

theorem indexRuns_withLiteral (hquote : isQuote quote = true) (hindex : '?' ∉ contents) :
    indexRuns (withLiteral quote before contents behind) =
      indexRuns before ++ indexRuns behind := by
  have hdigit : quote.isDigit = false :=
    isDigit_eq_false_of_isNameChar_eq_false (isNameChar_eq_false_of_isQuote hquote)
  have hsign : quote ≠ '?' := ne_of_isQuote hquote (by decide)
  rw [withLiteral, indexRuns_append_cons hdigit hsign, indexRuns_append_cons hdigit hsign,
    indexRuns_eq_nil hindex, List.nil_append]

theorem Text.occursIn_withLiteral (hquote : isQuote quote = true) (hindex : '?' ∉ contents) :
    occursIn Survey.positionalMark (withLiteral quote before contents behind) =
      (occursIn Survey.positionalMark before || occursIn Survey.positionalMark behind) := by
  have hnot : quote ∉ Survey.positionalMark := by
    intro hmem
    simp only [Survey.positionalMark, List.mem_cons, List.not_mem_nil, or_false] at hmem
    rcases hmem with rfl | rfl | rfl <;> exact absurd hquote (by decide)
  have hne : Survey.positionalMark ≠ [] := by simp [Survey.positionalMark]
  have hnone : occursIn Survey.positionalMark contents = false := occursIn_eq_false_of_not_mem hindex
  rw [withLiteral, occursIn_append_cons hne hnot, occursIn_append_cons hne hnot, hnone,
    Bool.false_or]

/-- The survey of a text depends on the contents of a literal only in the places of the literals. -/
theorem Survey.ofText_withLiteral (behind : List Char) (hquote : isQuote quote = true)
    (hbefore : openAfter none before = none) (hcontents : Inert quote contents)
    (hcontents' : Inert quote contents') :
    (∃ e e', ofText (withLiteral quote before contents behind) = .error e ∧
        ofText (withLiteral quote before contents' behind) = .error e' ∧ e.SameKind e') ∨
      ∃ survey survey', ofText (withLiteral quote before contents behind) = .ok survey ∧
        ofText (withLiteral quote before contents' behind) = .ok survey' ∧
        survey'.numbering = survey.numbering ∧ survey'.greatest = survey.greatest := by
  apply ofText_alike (isBlankText_withLiteral hquote) (isBlankText_withLiteral hquote)
  · rw [indexRuns_withLiteral hquote hcontents.index, indexRuns_withLiteral hquote hcontents'.index]
  · rw [occursIn_withLiteral hquote hcontents.index, occursIn_withLiteral hquote hcontents'.index]
  · rw [openAfter_withLiteral hquote hbefore hcontents.closes,
      openAfter_withLiteral hquote hbefore hcontents'.closes]

/-! ## The walk -/

namespace Segment

theorem parameter?_ofPieces_some {pieces : List Piece} (h : quote ∉ pieces.flatMap Piece.text) :
    ∀ s ∈ ofPieces (some quote) pieces, s.parameter? = none := by
  induction pieces with
  | nil => simp [ofPieces]
  | cons piece pieces ih =>
    rw [List.flatMap_cons, List.mem_append, not_or] at h
    have hopen : openAfter (some quote) piece.text = some quote :=
      openAfter_of_not_mem fun c hc heq => h.1 (heq ▸ hc)
    rw [ofPieces, hopen]
    refine List.forall_mem_cons.2 ⟨?_, ih h.2⟩
    cases piece <;> rfl

/-- The segments in front of a literal and behind it do not depend on its contents. -/
theorem exists_ofText_withLiteral (hquote : isQuote quote = true)
    (hbefore : openAfter none before = none) (hmark : ¬expressionMark <:+: before)
    (hcontents : Inert quote contents) {quotations : Quotations}
    (hquotations : Quotations.ofText (withLiteral quote before contents behind) = .ok quotations) :
    ∃ stretch, (∀ s ∈ stretch, s.parameter? = none) ∧
      stretch.flatMap text = quote :: (contents ++ [quote]) ∧
      ofText quotations (withLiteral quote before contents behind) =
        ofPieces none (Piece.ofText before) ++ stretch ++
          ofPieces none (Piece.split (some quote) behind) := by
  have hinside : openAfter (some quote) contents = some quote :=
    openAfter_of_not_mem fun c hc heq => hcontents.closes (heq ▸ hc)
  have hplain (quote? : Option Char) (pieces : List Piece) :
      ofPieces quote? (.plain quote :: pieces) =
        verbatim [quote] :: ofPieces (advance quote? quote) pieces := rfl
  refine ⟨verbatim [quote] :: (ofPieces (some quote) (Piece.split (some quote) contents) ++
    [verbatim [quote]]), ?_, ?_, ?_⟩
  · have hverbatim : ∀ s ∈ ofPieces (some quote) (Piece.split (some quote) contents),
        s.parameter? = none :=
      parameter?_ofPieces_some (by rw [Piece.flatMap_text_split]; exact hcontents.closes)
    intro s hs
    simp only [List.mem_cons, List.mem_append, List.not_mem_nil, or_false] at hs
    rcases hs with rfl | hs | rfl
    · rfl
    · exact hverbatim s hs
    · rfl
  · rw [List.flatMap_cons, List.flatMap_append, flatMap_text_ofPieces, Piece.flatMap_text_split]
    rfl
  · rw [ofText_eq_ofPieces hquotations, Piece.ofText, withLiteral,
      Piece.split_append_quote hquote hmark, Piece.split_append_quote hquote hcontents.expression,
      ofPieces_append, Piece.flatMap_text_split, hbefore, hplain, advance_none hquote,
      ofPieces_append, Piece.flatMap_text_split, hinside, hplain, advance_self hquote]
    simp [Piece.ofText]

end Segment

theorem Extraction.ofSurvey_around {survey : Survey} {text : List Char}
    {earlier stretch later : List Segment}
    (hsegments : Segment.ofText survey.quotations text = earlier ++ stretch ++ later)
    (hstretch : ∀ s ∈ stretch, s.parameter? = none) :
    ofSurvey survey text = do
      let next ← earlier.foldlM (step survey.numbering) { last := survey.greatest }
      let result ← later.foldlM (step survey.numbering) next.unwritten
      return ⟨next.text ++ String.ofList (stretch.flatMap Segment.text) ++ result.text,
        result.registry, survey.numbering⟩ := by
  rw [ofSurvey, hsegments, foldlM_step_around hstretch, bind_assoc]
  congr 1
  funext next
  rw [bind_assoc]
  congr 1

/-- Two queries that differ inside of one literal only are both refused in the same way, or they
have the same bindings and their cleaned texts differ inside of this literal only. -/
theorem ParsedQuery.parse_with_literal {a s s' b : String}
    (hclosed : ∃ quotations, Quotations.ofText a.toList = .ok quotations)
    (hmark : ¬expressionMark <:+: a.toList) (hs : Inert '\'' s.toList) (hs' : Inert '\'' s'.toList) :
    (∃ e e', parse (a ++ "'" ++ s ++ "'" ++ b) = .error e ∧
        parse (a ++ "'" ++ s' ++ "'" ++ b) = .error e' ∧ e.SameKind e') ∨
      ∃ q q' u v, parse (a ++ "'" ++ s ++ "'" ++ b) = .ok q ∧
        parse (a ++ "'" ++ s' ++ "'" ++ b) = .ok q' ∧ q'.bindings = q.bindings ∧
        q.text = u ++ "'" ++ s ++ "'" ++ v ∧ q'.text = u ++ "'" ++ s' ++ "'" ++ v := by
  have hquote : isQuote '\'' = true := rfl
  have hbefore : openAfter none a.toList = none := exists_ofText_eq_ok_iff.1 hclosed
  have htoList (t : String) : (a ++ "'" ++ t ++ "'" ++ b).toList =
      withLiteral '\'' a.toList t.toList b.toList := by
    simp [withLiteral]
  rcases Survey.ofText_withLiteral b.toList hquote hbefore hs hs' with
    ⟨e, e', hsurvey, hsurvey', hkind⟩ | ⟨survey, survey', hsurvey, hsurvey', hnumbering, hgreatest⟩
  · rw [← htoList] at hsurvey hsurvey'
    exact Or.inl ⟨e, e', parse_eq_error_of_survey hsurvey, parse_eq_error_of_survey hsurvey', hkind⟩
  · obtain ⟨-, hquotations, -⟩ := Survey.ofText_eq_ok_iff.1 hsurvey
    obtain ⟨-, hquotations', -⟩ := Survey.ofText_eq_ok_iff.1 hsurvey'
    obtain ⟨stretch, hstretch, htext, hsegments⟩ :=
      Segment.exists_ofText_withLiteral hquote hbefore hmark hs hquotations
    obtain ⟨stretch', hstretch', htext', hsegments'⟩ :=
      Segment.exists_ofText_withLiteral hquote hbefore hmark hs' hquotations'
    have hwritten (t : String) : String.ofList ('\'' :: (t.toList ++ ['\''])) = "'" ++ t ++ "'" := by
      rw [← String.toList_inj]
      simp
    rw [← htoList] at hsurvey hsurvey' hsegments hsegments'
    simp only [parse_eq_of_survey hsurvey, parse_eq_of_survey hsurvey',
      Extraction.ofSurvey_around hsegments hstretch,
      Extraction.ofSurvey_around hsegments' hstretch', htext, htext', hwritten, hnumbering,
      hgreatest]
    -- the walk is the same up to the literal, and the same again behind it
    cases (Segment.ofPieces none (Piece.ofText a.toList)).foldlM (step survey.numbering)
        { last := survey.greatest } with
    | error e => exact Or.inl ⟨e, e, rfl, rfl, Or.inl rfl⟩
    | ok next =>
      simp only [bind, Except.bind]
      cases (Segment.ofPieces none (Piece.split (some '\'') b.toList)).foldlM
          (step survey.numbering) next.unwritten with
      | error e => exact Or.inl ⟨e, e, rfl, rfl, Or.inl rfl⟩
      | ok result =>
        refine Or.inr ⟨_, _, next.text, result.text, rfl, rfl, rfl, ?_, ?_⟩
        all_goals simp [String.append_assoc]

theorem ParsedQuery.parse_with_literal_like_and_in :
    ∃ q q' u v, parse "é = 'like %:name%' and y like %:y% or z = ?#{z}" = .ok q ∧
      parse "é = 'in (:ids)' and y like %:y% or z = ?#{z}" = .ok q' ∧
      q'.bindings = [{ key := .name "y", kind := .like .containing },
        { key := .position 1, expression := some "z" }] ∧
      q.text = u ++ "'" ++ "like %:name%" ++ "'" ++ v ∧
      q'.text = u ++ "'" ++ "in (:ids)" ++ "'" ++ v := by
  have hparse : parse "é = 'like %:name%' and y like %:y% or z = ?#{z}" = .ok
      { text := "é = 'like %:name%' and y like :y or z = ?1"
        registry := ⟨[{ key := .name "y", kind := .like .containing },
          { key := .position 1, expression := some "z" }], by decide⟩
        usesPaging := false } := by
    decide +kernel
  have hclosed : ∃ quotations, Quotations.ofText "é = ".toList = .ok quotations :=
    ⟨⟨[], by simp⟩, by decide +kernel⟩
  rcases @parse_with_literal "é = " "like %:name%" "in (:ids)" " and y like %:y% or z = ?#{z}"
      hclosed (by decide +kernel) ⟨by decide +kernel, by decide +kernel, by decide +kernel⟩
      ⟨by decide +kernel, by decide +kernel, by decide +kernel⟩ with
    ⟨e, e', herror, -⟩ | ⟨q, q', u, v, hq, hq', hbindings, htext, htext'⟩
  · cases hparse.symm.trans herror
  · refine ⟨q, q', u, v, hq, hq', ?_, htext, htext'⟩
    cases hparse.symm.trans hq
    exact hbindings

end QueryParams
