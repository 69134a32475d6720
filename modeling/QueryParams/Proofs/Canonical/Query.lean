import QueryParams.Proofs.Canonical.Form
import QueryParams.Proofs.Extraction.Bindings

/-!
# Parsing the cleaned text again

The cleaned text of a query without expressions is a query itself. It has the same parameters in
canonical form, so parsing it changes nothing any more, and only the wildcards of the LIKE bindings
are lost.

Main statement: `ParsedQuery.parse_text_again`.
-/

namespace QueryParams

namespace Survey

variable {survey : Survey} {text : List Char}

def Literal (survey : Survey) (text : List Char) : Prop :=
  ∀ o ∈ Placeholder.parameters survey.quotations text, o.placeholder.isExpression = false

instance (survey : Survey) (text : List Char) : Decidable (survey.Literal text) :=
  inferInstanceAs (Decidable (∀ o ∈ _, _ = false))

theorem cleaned_eq_of_literal (h : survey.Literal text) :
    survey.cleaned text =
      (Segment.ofText survey.quotations text).flatMap fun s => s.canonical.text := by
  have hliteral : ∀ s ∈ Segment.ofText survey.quotations text, ∀ p ∈ s.parameter?,
      p.isExpression = false :=
    (Segment.forall_parameter?_ofText_iff (P := fun p => p.isExpression = false)).2 h
  have hcleaned : ∀ m ∈ Numbering.assign Segment.takesNumber survey.greatest.toNat
      (Segment.ofText survey.quotations text),
      Segment.cleaned survey.numbering m = m.2.canonical.text := by
    intro m hm
    obtain ⟨number, s⟩ := m
    cases s with
    | verbatim written => rfl
    | parameter p =>
      exact Placeholder.cleaned_eq_text_canonical
        (hliteral _ (Numbering.mem_of_mem_assign hm) p rfl)
  have hsnd := Numbering.map_snd_assign Segment.takesNumber survey.greatest.toNat
    (Segment.ofText survey.quotations text)
  rw [cleaned, List.flatMap_congr hcleaned, ← hsnd, List.flatMap_map, hsnd]

theorem bindings_eq_of_literal (h : survey.Literal text) :
    survey.bindings text = ((Segment.ofText survey.quotations text).filterMap
      Segment.parameter?).map (Placeholder.binding .positional 0) := by
  have hbinding : ∀ m ∈ survey.numbered text,
      m.2.placeholder.binding survey.numbering m.1 =
        m.2.placeholder.binding .positional 0 := by
    intro m hm
    exact Placeholder.binding_eq_of_literal (h m.2 (Numbering.mem_of_mem_assign hm))
  have hsnd : (survey.numbered text).map Prod.snd =
      Placeholder.parameters survey.quotations text :=
    Numbering.map_snd_assign _ _ _
  rw [bindings, List.map_congr_left hbinding, Segment.filterMap_parameter?_ofText, ← hsnd,
    List.map_map, List.map_map]
  rfl

/-- The segments of a second text are those of a first one in canonical form. -/
def Recasts (survey survey' : Survey) (text text' : List Char) : Prop :=
  Segment.ofText survey'.quotations text' =
    (Segment.ofText survey.quotations text).map Segment.canonical

namespace Recasts

variable {survey' : Survey} {text' : List Char}

theorem map_placeholder_parameters (h : survey.Recasts survey' text text') :
    (Placeholder.parameters survey'.quotations text').map Occurrence.placeholder =
      (Placeholder.parameters survey.quotations text).map (·.placeholder.canonical) := by
  have hsegment (s : Segment) :
      s.canonical.parameter? = s.parameter?.map Placeholder.canonical := by
    cases s <;> rfl
  have hcomp : (fun o : Occurrence => o.placeholder.canonical) =
      Placeholder.canonical ∘ Occurrence.placeholder := rfl
  rw [hcomp, ← List.map_map, ← Segment.filterMap_parameter?_ofText,
    ← Segment.filterMap_parameter?_ofText, h, List.filterMap_map, List.map_filterMap]
  exact List.filterMap_congr fun s _ => hsegment s

theorem forall_parameters_iff (h : survey.Recasts survey' text text') {P : Placeholder → Prop} :
    (∀ o ∈ Placeholder.parameters survey'.quotations text', P o.placeholder) ↔
      ∀ o ∈ Placeholder.parameters survey.quotations text, P o.placeholder.canonical := by
  have hmem : ∀ p, p ∈ (Placeholder.parameters survey'.quotations text').map
      Occurrence.placeholder ↔
        p ∈ (Placeholder.parameters survey.quotations text).map (·.placeholder.canonical) := by
    intro p
    rw [h.map_placeholder_parameters]
  constructor
  · intro hall o ho
    obtain ⟨o', ho', heq⟩ := List.mem_map.1 ((hmem _).2 (List.mem_map_of_mem ho))
    rw [← heq]
    exact hall o' ho'
  · intro hall o ho
    obtain ⟨o', ho', heq⟩ := List.mem_map.1 ((hmem _).1 (List.mem_map_of_mem ho))
    rw [← heq]
    exact hall o' ho'

theorem literal (h : survey.Recasts survey' text text') (hliteral : survey.Literal text) :
    survey'.Literal text' := by
  refine (h.forall_parameters_iff (P := fun p => p.isExpression = false)).2 ?_
  intro o ho
  rw [Placeholder.isExpression_canonical]
  exact hliteral o ho

theorem bindings_eq (h : survey.Recasts survey' text text') (hliteral : survey.Literal text) :
    survey'.bindings text' = (survey.bindings text).map Binding.exact := by
  rw [bindings_eq_of_literal (h.literal hliteral), bindings_eq_of_literal hliteral,
    Segment.filterMap_parameter?_ofText, Segment.filterMap_parameter?_ofText,
    h.map_placeholder_parameters, List.map_map, List.map_map, List.map_map]
  apply List.map_congr_left
  intro o ho
  exact Placeholder.binding_canonical (Placeholder.wellFormed_of_mem_parameters ho)
    (hliteral o ho)

theorem cleaned_eq (h : survey.Recasts survey' text text') (hliteral : survey.Literal text) :
    survey'.cleaned text' = survey.cleaned text := by
  have hsegment (s : Segment) : s.canonical.canonical = s.canonical := by
    cases s with
    | verbatim written => rfl
    | parameter p => rw [Segment.canonical, Segment.canonical, Placeholder.canonical_canonical]
  rw [cleaned_eq_of_literal (h.literal hliteral), cleaned_eq_of_literal hliteral, h,
    List.flatMap_map]
  simp only [hsegment]

theorem extractable (h : survey.Recasts survey' text text') (hliteral : survey.Literal text)
    (hextractable : survey.Extractable text) : survey'.Extractable text' where
  admissible :=
    (h.forall_parameters_iff (P := Placeholder.Admissible)).2 fun o ho =>
      (hextractable.admissible o ho).canonical
  numbers := by
    have hnone : (Placeholder.parameters survey'.quotations text').countP
        (·.placeholder.isExpression) = 0 := by
      rw [List.countP_eq_zero]
      intro o ho
      simp [h.literal hliteral o ho]
    rw [hnone]
    exact survey'.greatest.toNat_lt
  agree := by
    rw [h.bindings_eq hliteral]
    exact hextractable.agree.map Binding.key_exact

end Recasts

end Survey

/-! ## The second parse -/

/-- Behind the `%` that a LIKE parameter loses there is neither another one nor a name character. -/
def Survey.Separated (survey : Survey) (text : List Char) : Prop :=
  ∀ o ∈ Placeholder.parameters survey.quotations text, o.placeholder.isLike = true →
    o.placeholder.trailing = true →
      ∀ c ∈ Text.charAt? text o.decoratedSpan.stop, c ≠ '%' ∧ isNameChar c = false

instance (survey : Survey) (text : List Char) : Decidable (survey.Separated text) :=
  decidable_of_iff ((Placeholder.parameters survey.quotations text).all fun o =>
    !o.placeholder.isLike || !o.placeholder.trailing ||
      (Text.charAt? text o.decoratedSpan.stop).all fun c => c != '%' && !isNameChar c) (by
    simp [Survey.Separated, or_iff_not_imp_left, Option.all_eq_true])

theorem Survey.separable_of_separated {survey : Survey} {text : List Char}
    (hquotations : Quotations.ofText text = .ok survey.quotations)
    (hliteral : survey.Literal text) (hseparated : survey.Separated text) :
    Piece.Separable none (Piece.ofText text) := by
  intro earlier p later hpieces hopen
  have hlive := Placeholder.mem_parameters_of_openAfter hquotations hpieces hopen
  refine ⟨hliteral _ hlive, ?_⟩
  intro hlike htrailing
  have hapart := hseparated _ hlive hlike htrailing
  have hsplit : text = (earlier.flatMap Piece.text ++ p.front ++ p.decorated) ++
      (p.back ++ later.flatMap Piece.text) := by
    rw [Piece.eq_append_of_ofText_eq hpieces, Piece.text, Placeholder.text]
    simp
  have hstop : Text.charAt? text
      (Occurrence.decoratedSpan ⟨Text.width (earlier.flatMap Piece.text), p⟩).stop =
        (p.back ++ later.flatMap Piece.text).head? := by
    rw [Occurrence.decoratedSpan, Span.stop_ofText, ← Text.width_append, ← Text.width_append]
    rw [hsplit]
    exact Text.charAt?_width _ _
  rw [hstop] at hapart
  exact hapart

theorem Survey.exists_recasts {survey : Survey} {text : List Char}
    (hsurvey : Survey.ofText text = .ok survey) (hliteral : survey.Literal text)
    (hseparated : survey.Separated text) :
    ∃ survey', Survey.ofText (survey.cleaned text) = .ok survey' ∧
      survey.Recasts survey' text (survey.cleaned text) := by
  obtain ⟨-, hquotations, -⟩ := Survey.ofText_eq_ok_iff.1 hsurvey
  have hstripped := Piece.stripped_canonicals
    (Survey.separable_of_separated hquotations hliteral hseparated)
  have hsegments := Piece.ofPieces_canonicals none (Piece.ofText text)
  have hcleaned : (Piece.canonicals none (Piece.ofText text)).flatMap Piece.text =
      survey.cleaned text := by
    rw [cleaned_eq_of_literal hliteral, Segment.ofText_eq_ofPieces hquotations,
      ← Segment.flatMap_text_ofPieces none, hsegments, List.flatMap_map]
  have hflat := Piece.flatMap_text_ofText text
  have hdivision : Piece.ofText (survey.cleaned text) =
      Piece.canonicals none (Piece.ofText text) := by
    rw [← hcleaned]
    apply hstripped.split_eq (Or.inl rfl)
    rw [hflat]
    rfl
  obtain ⟨survey', hsurvey'⟩ := hstripped.exists_survey (by rw [hflat]; exact hsurvey)
  rw [hcleaned] at hsurvey'
  obtain ⟨-, hquotations', -⟩ := Survey.ofText_eq_ok_iff.1 hsurvey'
  refine ⟨survey', hsurvey', ?_⟩
  rw [Recasts, Segment.ofText_eq_ofPieces hquotations', hdivision, hsegments,
    Segment.ofText_eq_ofPieces hquotations]

/-- A cleaned text with the segments of a query in canonical form is parsed to itself. -/
theorem ParsedQuery.exists_parse_of_recasts {query : String} {survey survey' : Survey}
    {q : ParsedQuery} (hsurvey : Survey.ofText query.toList = .ok survey)
    (hparse : parse query = .ok q) (hliteral : survey.Literal query.toList)
    (hsurvey' : Survey.ofText q.text.toList = .ok survey')
    (hrecasts : survey.Recasts survey' query.toList q.text.toList) :
    ∃ q', parse q.text = .ok q' ∧ q'.text = q.text ∧
      q'.bindings = q.bindings.map Binding.exact := by
  obtain ⟨hextractable, htext, hbindings, -⟩ := (parse_eq_ok_iff hsurvey).1 hparse
  obtain ⟨again, hagain⟩ := exists_parse_of_extractable hsurvey'
    (hrecasts.extractable hliteral hextractable)
  obtain ⟨-, htext', hbindings', -⟩ := (parse_eq_ok_iff hsurvey').1 hagain
  refine ⟨again, hagain, ?_, ?_⟩
  · rw [htext', hrecasts.cleaned_eq hliteral]
    exact htext.symm
  · rw [hbindings', hrecasts.bindings_eq hliteral, Binding.firstOfEachKey_map Binding.key_exact,
      hbindings]

theorem ParsedQuery.toList_text_of_parse {query : String} {survey : Survey} {q : ParsedQuery}
    (hsurvey : Survey.ofText query.toList = .ok survey) (hparse : parse query = .ok q) :
    q.text.toList = survey.cleaned query.toList := by
  obtain ⟨-, htext, -⟩ := (parse_eq_ok_iff hsurvey).1 hparse
  rw [htext, String.toList_ofList]

/-- The cleaned text of a query without expressions is parsed to itself. The bindings are the same
in the same order, but for the wildcards. -/
theorem ParsedQuery.parse_text_again {query : String} {survey : Survey} {q : ParsedQuery}
    (hsurvey : Survey.ofText query.toList = .ok survey) (hparse : parse query = .ok q)
    (hliteral : survey.Literal query.toList) (hseparated : survey.Separated query.toList) :
    ∃ q', parse q.text = .ok q' ∧ q'.text = q.text ∧
      q'.bindings = q.bindings.map Binding.exact := by
  obtain ⟨survey', hsurvey', hrecasts⟩ := Survey.exists_recasts hsurvey hliteral hseparated
  rw [← toList_text_of_parse hsurvey hparse] at hsurvey' hrecasts
  exact exists_parse_of_recasts hsurvey hparse hliteral hsurvey' hrecasts

theorem ParsedQuery.parse_text_again_like_and_in :
    ∃ q q', parse "é like %:x% or b in (?1) or c = '%:x%'" = .ok q ∧ parse q.text = .ok q' ∧
      q'.text = "é like :x or b in (?1) or c = '%:x%'" ∧
      q'.bindings = [{ key := .name "x", kind := .like .exact },
        { key := .position 1, kind := .collection }] := by
  have hsurvey : Survey.ofText "é like %:x% or b in (?1) or c = '%:x%'".toList =
      .ok ⟨.positional, 1, { ranges := [⟨33, 39, by decide⟩], ascending := by simp }⟩ := by
    decide +kernel
  have hparse : parse "é like %:x% or b in (?1) or c = '%:x%'" = .ok
      { text := "é like :x or b in (?1) or c = '%:x%'"
        registry := ⟨[{ key := .name "x", kind := .like .containing },
          { key := .position 1, kind := .collection }], by decide⟩
        usesPaging := false } := by
    decide +kernel
  obtain ⟨q', hparse', htext, hbindings⟩ := parse_text_again hsurvey hparse
    (by decide +kernel) (by decide +kernel)
  exact ⟨_, q', hparse, hparse', htext, hbindings⟩

end QueryParams
