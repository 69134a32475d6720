import QueryParams.Proofs.Extraction.Bindings
import QueryParams.Proofs.Text.Rewrite

/-!
# The cleaned text

The cleaned text is the text of the query with the decorated bodies of some parameters replaced in
place, all at once: those of expressions by their tokens, and those of LIKE parameters by their bare
bodies. Everything else is copied.

Main statement: `ParsedQuery.parse_text`.
-/

namespace QueryParams

def Occurrence.edit? (numbering : Numbering) (m : Nat × Occurrence) : Option Text.Edit :=
  (m.2.placeholder.replacement? numbering m.1).map fun written => ⟨m.2.decoratedSpan, written⟩

def Survey.edits (survey : Survey) (text : List Char) : List Text.Edit :=
  (survey.numbered text).filterMap (Occurrence.edit? survey.numbering)

def Piece.edit? (numbering : Numbering) (quotations : Quotations) (m : Nat × Nat × Piece) :
    Option Text.Edit :=
  (Occurrence.ofPiece? quotations m.2).bind fun o => Occurrence.edit? numbering (m.1, o)

namespace Piece

open Text

variable {numbering : Numbering} {quotations : Quotations} {number start : Nat} {piece : Piece}

theorem cleaned_of_edit?_eq_none (h : edit? numbering quotations (number, start, piece) = none) :
    Segment.cleaned numbering (number, Segment.ofPiece quotations (start, piece)) = piece.text := by
  cases piece with
  | plain c => rfl
  | placeholder p =>
    by_cases hquoted : quotations.isQuoted start = true
    · rw [Segment.ofPiece, if_pos hquoted]
      rfl
    · have hnone : p.replacement? numbering number = none := by
        simpa [edit?, Occurrence.ofPiece?, Occurrence.edit?, hquoted] using h
      rw [Segment.ofPiece, if_neg hquoted, Segment.cleaned, Placeholder.cleaned, hnone]
      rfl

theorem exists_placeholder_of_edit?_eq_some {e : Edit}
    (h : edit? numbering quotations (number, start, piece) = some e) :
    ∃ p, piece = placeholder p ∧ e.span = Span.ofText (start + width p.front) p.decorated ∧
      Segment.cleaned numbering (number, Segment.ofPiece quotations (start, piece)) =
        p.front ++ e.written ++ p.back := by
  cases piece with
  | plain c => simp [edit?, Occurrence.ofPiece?] at h
  | placeholder p =>
    by_cases hquoted : quotations.isQuoted start = true
    · simp [edit?, Occurrence.ofPiece?, hquoted] at h
    · obtain ⟨written, hwritten, rfl⟩ : ∃ written, p.replacement? numbering number = some written ∧
          Edit.mk (Occurrence.decoratedSpan ⟨start, p⟩) written = e := by
        simpa [edit?, Occurrence.ofPiece?, Occurrence.edit?, hquoted] using h
      refine ⟨p, rfl, rfl, ?_⟩
      rw [Segment.ofPiece, if_neg hquoted, Segment.cleaned, Placeholder.cleaned, hwritten]
      rfl

theorem bounds_of_edit?_eq_some {e : Edit}
    (h : edit? numbering quotations (number, start, piece) = some e) :
    start ≤ e.span.start ∧ e.span.start < e.span.stop ∧
      e.span.stop ≤ start + width piece.text := by
  obtain ⟨p, rfl, hspan, -⟩ := exists_placeholder_of_edit?_eq_some h
  have hpos := width_pos_of_ne_nil p.decorated_ne_nil
  have hwidth := p.width_text
  rw [hspan, Span.start_ofText, Span.stop_ofText, text]
  omega

/-- One step: a piece is rewritten to what the walk writes for it. -/
theorem rewrite_text {earlier later : List Edit}
    (hearlier : ∀ e ∈ earlier, e.Avoids start (start + width piece.text))
    (hlater : ∀ e ∈ later, e.Avoids start (start + width piece.text)) :
    rewrite (earlier ++ (edit? numbering quotations (number, start, piece)).toList ++ later) start
        piece.text =
      Segment.cleaned numbering (number, Segment.ofPiece quotations (start, piece)) := by
  cases hedit : edit? numbering quotations (number, start, piece) with
  | none =>
    rw [cleaned_of_edit?_eq_none hedit]
    apply rewrite_eq_self
    intro e he
    rcases List.mem_append.1 he with he | he
    · exact hearlier e (by simpa using he)
    · exact hlater e he
  | some e =>
    obtain ⟨p, rfl, hspan, hcleaned⟩ := exists_placeholder_of_edit?_eq_some hedit
    have hbounds := bounds_of_edit?_eq_some hedit
    have hwidth := p.width_text
    have hedits : earlier ++ (some e).toList ++ later = earlier ++ e :: later := by simp
    rw [text] at *
    -- the edit of the piece avoids its front and its back, the others avoid all of it
    have havoids {first last : Nat} (hfirst : start ≤ first)
        (hlast : last ≤ start + width p.text) (haway : e.Avoids first last) :
        ∀ e' ∈ earlier ++ e :: later, e'.Avoids first last := by
      intro e' he'
      rcases List.mem_append.1 he' with he' | he'
      · exact (hearlier e' he').mono hfirst hlast
      · rcases List.mem_cons.1 he' with rfl | he'
        · exact haway
        · exact (hlater e' he').mono hfirst hlast
    have hstart : e.span.start = start + width p.front := by rw [hspan, Span.start_ofText]
    have hstop : e.span.stop = start + width p.front + width p.decorated := by
      rw [hspan, Span.stop_ofText]
    have hfront : rewrite (earlier ++ e :: later) start p.front = p.front := by
      apply rewrite_eq_self
      exact havoids (by omega) (by omega) ⟨by omega, by omega⟩
    have hdecorated : rewrite (earlier ++ e :: later) (start + width p.front) p.decorated =
        e.written := by
      apply rewrite_eq_written p.decorated_ne_nil hspan
      · intro e' he'
        exact (hearlier e' he').mono (by omega) (by omega)
      · intro e' he'
        exact (hlater e' he').mono (by omega) (by omega)
    have hback : rewrite (earlier ++ e :: later) (start + width p.front + width p.decorated)
        p.back = p.back := by
      apply rewrite_eq_self
      exact havoids (by omega) (by omega) ⟨by omega, by omega⟩
    rw [hedits, hcleaned, Placeholder.text, rewrite_append, rewrite_append, width_append,
      ← Nat.add_assoc, hfront, hdecorated, hback]

theorem bounds_of_mem_edits {takes : Nat × Piece → Bool} {last : Nat} {pieces : List Piece}
    {e : Edit} (h : e ∈ (Numbering.assign takes last (locate start pieces)).filterMap
      (edit? numbering quotations)) :
    start ≤ e.span.start ∧ e.span.start < e.span.stop ∧
      e.span.stop ≤ start + width (pieces.flatMap text) := by
  obtain ⟨⟨number, offset, piece⟩, hmem, hedit⟩ := List.mem_filterMap.1 h
  have hlocated : (offset, piece) ∈ locate start pieces := Numbering.mem_of_mem_assign hmem
  have hbounds := bounds_of_edit?_eq_some hedit
  obtain ⟨earlier, later, rfl, hoffset⟩ := mem_locate_iff.1 hlocated
  rw [List.flatMap_append, List.flatMap_cons, width_append, width_append]
  omega

/-- A run: the pieces one after another are rewritten to what the walk writes for them. -/
theorem rewrite_flatMap_text {takes : Nat × Piece → Bool} {last : Nat} {pieces : List Piece}
    {earlier later : List Edit}
    (hearlier : ∀ e ∈ earlier, e.span.start < e.span.stop ∧ e.span.stop ≤ start)
    (hlater : ∀ e ∈ later, e.span.start < e.span.stop ∧
      start + width (pieces.flatMap text) ≤ e.span.start) :
    rewrite (earlier ++ (Numbering.assign takes last (locate start pieces)).filterMap
        (edit? numbering quotations) ++ later) start (pieces.flatMap text) =
      (Numbering.assign takes last (locate start pieces)).flatMap fun m =>
        Segment.cleaned numbering (m.1, Segment.ofPiece quotations m.2) := by
  induction pieces generalizing last start earlier with
  | nil => rfl
  | cons piece pieces ih =>
    rw [List.flatMap_cons, width_append, ← Nat.add_assoc] at hlater
    rw [locate, Numbering.assign, List.flatMap_cons, List.flatMap_cons, filterMap_cons_eq_append,
      rewrite_append, ← List.append_assoc, List.append_assoc _ _ later, rewrite_text]
    -- for the pieces behind, the edit of this piece is one of the earlier ones
    · rw [← List.append_assoc, ih _ hlater]
      intro e he
      rcases List.mem_append.1 he with he | he
      · have hbefore := hearlier e he
        omega
      · have hbounds := bounds_of_edit?_eq_some (by simpa using he)
        omega
    · intro e he
      have hbefore := hearlier e he
      exact ⟨hbefore.1, Or.inl hbefore.2⟩
    · intro e he
      rcases List.mem_append.1 he with he | he
      · have hbehind := bounds_of_mem_edits he
        exact ⟨hbehind.2.1, Or.inr hbehind.1⟩
      · have hbehind := hlater e he
        exact ⟨hbehind.1, Or.inr (by omega)⟩

end Piece

namespace Survey

variable {survey : Survey} {text : List Char}

/-- The pieces of a text with their offsets, and the last number given when each is reached. -/
def numberedPieces (survey : Survey) (text : List Char) : List (Nat × Nat × Piece) :=
  Numbering.assign (fun located => (Segment.ofPiece survey.quotations located).takesNumber)
    survey.greatest.toNat (Piece.locate 0 (Piece.ofText text))

theorem cleaned_eq_flatMap :
    survey.cleaned text = (survey.numberedPieces text).flatMap fun m =>
      Segment.cleaned survey.numbering (m.1, Segment.ofPiece survey.quotations m.2) := by
  rw [cleaned, Segment.ofText, Numbering.assign_map (fun _ => rfl), List.flatMap_map]
  rfl

theorem numbered_eq_filterMap :
    survey.numbered text = (survey.numberedPieces text).filterMap fun m =>
      (Occurrence.ofPiece? survey.quotations m.2).map fun o => (m.1, o) := by
  rw [numbered, Placeholder.parameters_eq_filterMap]
  apply Numbering.assign_filterMap
  · intro located hnone
    obtain ⟨start, piece⟩ := located
    cases piece with
    | plain c => rfl
    | placeholder p =>
      cases hquoted : survey.quotations.isQuoted start <;>
        simp [Occurrence.ofPiece?, hquoted] at hnone
      simp [Segment.ofPiece, hquoted, Segment.takesNumber, Segment.parameter?]
  · intro located o hsome
    obtain ⟨start, piece⟩ := located
    cases piece with
    | plain c => cases hsome
    | placeholder p =>
      cases hquoted : survey.quotations.isQuoted start <;>
        simp [Occurrence.ofPiece?, hquoted] at hsome
      simp [Segment.ofPiece, hquoted, Segment.takesNumber, Segment.parameter?, ← hsome]

theorem edits_eq_filterMap :
    survey.edits text = (survey.numberedPieces text).filterMap
      (Piece.edit? survey.numbering survey.quotations) := by
  rw [edits, numbered_eq_filterMap, List.filterMap_filterMap]
  apply List.filterMap_congr
  intro m _
  rw [Piece.edit?, Option.bind_map]
  rfl

theorem pairwise_edits (survey : Survey) (text : List Char) :
    (survey.edits text).Pairwise fun e later => e.span.stop ≤ later.span.start := by
  have hpieces : (survey.numberedPieces text).Pairwise fun m later =>
      m.2.1 + Text.width m.2.2.text ≤ later.2.1 := by
    have hlocated := Piece.pairwise_locate 0 (Piece.ofText text)
    have hsnd := Numbering.map_snd_assign (fun located =>
      (Segment.ofPiece survey.quotations located).takesNumber) survey.greatest.toNat
      (Piece.locate 0 (Piece.ofText text))
    rw [← hsnd, List.pairwise_map] at hlocated
    exact hlocated
  rw [edits_eq_filterMap]
  refine List.Pairwise.filterMap _ ?_ hpieces
  intro m later hle e he e' he'
  obtain ⟨number, start, piece⟩ := m
  obtain ⟨number', start', piece'⟩ := later
  change start + Text.width piece.text ≤ start' at hle
  have hbounds := Piece.bounds_of_edit?_eq_some he
  have hbounds' := Piece.bounds_of_edit?_eq_some he'
  omega

theorem cleaned_eq_rewrite (survey : Survey) (text : List Char) :
    survey.cleaned text = Text.rewrite (survey.edits text) 0 text := by
  have hrun : Text.rewrite ([] ++ survey.edits text ++ []) 0
      ((Piece.ofText text).flatMap Piece.text) = survey.cleaned text := by
    rw [cleaned_eq_flatMap, edits_eq_filterMap]
    exact Piece.rewrite_flatMap_text (by simp) (by simp)
  rw [Piece.flatMap_text_ofText, List.nil_append, List.append_nil] at hrun
  exact hrun.symm

theorem start_lt_stop_of_mem_edits {e : Text.Edit} (he : e ∈ survey.edits text) :
    e.span.start < e.span.stop := by
  rw [edits_eq_filterMap] at he
  obtain ⟨m, -, he⟩ := List.mem_filterMap.1 he
  exact (Piece.bounds_of_edit?_eq_some he).2.1

/-- In the cleaned text, this is written in place of the decorated body of the occurrence, between
what becomes of the text on both sides. -/
def Writes (survey : Survey) (text cleaned : List Char) (o : Occurrence) (written : List Char) :
    Prop :=
  ∃ before behind, text = before ++ o.placeholder.decorated ++ behind ∧
    o.decoratedSpan.start = Text.width before ∧
      cleaned = Text.rewrite (survey.edits text) 0 before ++ written ++
        Text.rewrite (survey.edits text) o.decoratedSpan.stop behind

theorem writes_of_mem_numbered {number : Nat} {o : Occurrence} {written : List Char}
    (hm : (number, o) ∈ survey.numbered text)
    (hwritten : o.placeholder.replacement? survey.numbering number = some written) :
    survey.Writes text (survey.cleaned text) o written := by
  obtain ⟨before, later, htext, hstart, -⟩ := Placeholder.standsAt_of_mem_occurrences
    (Placeholder.mem_occurrences_of_mem_parameters (Numbering.mem_of_mem_assign hm))
  have hedit : (⟨o.decoratedSpan, written⟩ : Text.Edit) ∈ survey.edits text :=
    List.mem_filterMap.2 ⟨_, hm, by simp [Occurrence.edit?, hwritten]⟩
  have hspan : o.decoratedSpan =
      Span.ofText (Text.width (before ++ o.placeholder.front)) o.placeholder.decorated := by
    rw [Occurrence.decoratedSpan, hstart, Text.width_append]
  obtain ⟨earlier, behind, hedits⟩ := List.append_of_mem hedit
  have hpairwise := survey.pairwise_edits text
  rw [hedits, List.pairwise_append, List.pairwise_cons] at hpairwise
  obtain ⟨-, ⟨hbehind, -⟩, hearlier⟩ := hpairwise
  have hnonempty {e : Text.Edit} (he : e ∈ earlier ++ ⟨o.decoratedSpan, written⟩ :: behind) :
      e.span.start < e.span.stop := start_lt_stop_of_mem_edits (hedits ▸ he)
  have hbody : Text.rewrite (survey.edits text) (Text.width (before ++ o.placeholder.front))
      o.placeholder.decorated = written := by
    rw [hedits]
    apply Text.rewrite_eq_written o.placeholder.decorated_ne_nil hspan
    · intro e he
      have hle := hearlier e he _ List.mem_cons_self
      rw [hspan, Span.start_ofText] at hle
      exact ⟨hnonempty (List.mem_append_left _ he), Or.inl hle⟩
    · intro e he
      have hle := hbehind e he
      rw [hspan, Span.stop_ofText] at hle
      exact ⟨hnonempty (List.mem_append_right _ (List.mem_cons_of_mem _ he)), Or.inr hle⟩
  have hsplit : text = before ++ o.placeholder.front ++ o.placeholder.decorated ++
      (o.placeholder.back ++ later) := by
    rw [htext, Placeholder.text]
    simp only [List.append_assoc]
  refine ⟨before ++ o.placeholder.front, o.placeholder.back ++ later, hsplit,
    by rw [hspan, Span.start_ofText], ?_⟩
  have hstop : o.decoratedSpan.stop =
      Text.width (before ++ o.placeholder.front ++ o.placeholder.decorated) := by
    rw [hspan, Span.stop_ofText, ← Text.width_append]
  have hrewrite := congrArg (Text.rewrite (survey.edits text) 0) hsplit
  rw [Text.rewrite_append, Text.rewrite_append, Nat.zero_add, Nat.zero_add, hbody, ← hstop]
    at hrewrite
  rw [cleaned_eq_rewrite, hrewrite]

end Survey

/-- The cleaned text of a query is its text with the replacements made in place. They do not
overlap, so each of them is made exactly once. -/
theorem ParsedQuery.parse_text {query : String} {survey : Survey} {q : ParsedQuery}
    (hsurvey : Survey.ofText query.toList = .ok survey) (hparse : parse query = .ok q) :
    q.text.toList = Text.rewrite (survey.edits query.toList) 0 query.toList ∧
      (survey.edits query.toList).Pairwise fun e later => e.span.stop ≤ later.span.start := by
  obtain ⟨-, htext, -⟩ := (parse_eq_ok_iff hsurvey).1 hparse
  refine ⟨?_, survey.pairwise_edits query.toList⟩
  rw [htext, String.toList_ofList, Survey.cleaned_eq_rewrite]

theorem ParsedQuery.parse_text_like_and_expression :
    ∃ survey q, Survey.ofText "é like %:x% or b = '%:x% ?1' or c = :#{e}".toList = .ok survey ∧
      parse "é like %:x% or b = '%:x% ?1' or c = :#{e}" = .ok q ∧
      Text.rewrite (survey.edits "é like %:x% or b = '%:x% ?1' or c = :#{e}".toList) 0
        "é like %:x% or b = '%:x% ?1' or c = :#{e}".toList =
          "é like :x or b = '%:x% ?1' or c = ?2".toList := by
  have hsurvey : Survey.ofText "é like %:x% or b = '%:x% ?1' or c = :#{e}".toList =
      .ok ⟨.positional, 1, { ranges := [⟨20, 29, by decide⟩], ascending := by simp }⟩ := by
    decide +kernel
  have hparse : parse "é like %:x% or b = '%:x% ?1' or c = :#{e}" = .ok
      { text := "é like :x or b = '%:x% ?1' or c = ?2"
        registry := ⟨[{ key := .name "x", kind := .like .containing },
          { key := .position 2, expression := some "e" }], by decide⟩
        usesPaging := false } := by
    decide +kernel
  exact ⟨_, _, hsurvey, hparse, (parse_text hsurvey hparse).1.symm⟩

end QueryParams
