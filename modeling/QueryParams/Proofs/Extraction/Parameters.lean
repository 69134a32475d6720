import QueryParams.Proofs.Extraction.Run
import QueryParams.Proofs.Placeholder.Index

/-!
# The parameters of a text

The parameters of a text are its placeholders that do not begin inside a literal. They are what the
walk resolves, in the order of the text, and the survey has made sure that their indices are words
of 32 bits.
-/

namespace QueryParams

theorem Survey.ofText_eq_ok_iff {text : List Char} {survey : Survey} :
    Survey.ofText text = .ok survey ↔
      Text.isBlankText text = false ∧ Quotations.ofText text = .ok survey.quotations ∧
        ∃ greatest, greatestIndex text = .ok greatest ∧ survey.greatest = greatest.getD 0 ∧
          survey.numbering = Survey.numberingOf greatest text := by
  obtain ⟨numbering, last, quotations⟩ := survey
  unfold Survey.ofText
  by_cases hblank : Text.isBlankText text = true
  · simp [hblank]
  · rw [if_neg hblank, bind_eq_ok_iff]
    constructor
    · intro h
      obtain ⟨greatest, hgreatest, h⟩ := h
      obtain ⟨quotations', hquotations, h⟩ := bind_eq_ok_iff.1 h
      cases hq : Quotations.ofText text with
      | error start => simp [hq, Except.mapError] at hquotations
      | ok found =>
        rw [hq] at hquotations
        cases hquotations
        cases h
        exact ⟨by simpa using hblank, rfl, greatest, hgreatest, rfl, rfl⟩
    · intro h
      obtain ⟨-, hquotations, greatest, hgreatest, rfl, rfl⟩ := h
      refine ⟨greatest, hgreatest, bind_eq_ok_iff.2 ⟨quotations, ?_, rfl⟩⟩
      rw [hquotations]
      rfl

def Occurrence.ofPiece? (quotations : Quotations) : Nat × Piece → Option Occurrence
  | (_, .plain _) => none
  | (start, .placeholder p) => if quotations.isQuoted start then none else some ⟨start, p⟩

namespace Placeholder

/-- The placeholders that do not begin inside a literal. -/
def parameters (quotations : Quotations) (text : List Char) : List Occurrence :=
  (occurrences text).filter fun o => !quotations.isQuoted o.start

variable {quotations : Quotations} {text : List Char}

theorem parameters_eq_filterMap :
    parameters quotations text =
      (Piece.locate 0 (Piece.ofText text)).filterMap (Occurrence.ofPiece? quotations) := by
  rw [parameters, occurrences, List.filter_filterMap]
  apply List.filterMap_congr
  intro located _
  obtain ⟨start, piece⟩ := located
  cases piece with
  | plain c => rfl
  | placeholder p =>
    cases hquoted : quotations.isQuoted start <;>
      simp [Occurrence.ofPiece?, hquoted, Option.filter]

theorem mem_parameters_iff {o : Occurrence} :
    o ∈ parameters quotations text ↔ o ∈ occurrences text ∧ quotations.isQuoted o.start = false := by
  rw [parameters, List.mem_filter, Bool.not_eq_true']

theorem mem_occurrences_of_mem_parameters {o : Occurrence} (h : o ∈ parameters quotations text) :
    o ∈ occurrences text :=
  (mem_parameters_iff.1 h).1

theorem wellFormed_of_mem_parameters {o : Occurrence} (h : o ∈ parameters quotations text) :
    o.placeholder.body.WellFormed :=
  wellFormed_body_of_mem_occurrences (mem_occurrences_of_mem_parameters h)

theorem fitsWord_of_mem_parameters {survey : Survey} (h : Survey.ofText text = .ok survey)
    {o : Occurrence} (ho : o ∈ parameters quotations text) : o.placeholder.body.FitsWord := by
  obtain ⟨-, -, greatest, hgreatest, -⟩ := Survey.ofText_eq_ok_iff.1 h
  intro digits hbody
  have hmem := digits_mem_indexRuns (mem_occurrences_of_mem_parameters ho) hbody
  exact numeralValue_lt_of_mem_indexRuns hgreatest hmem

end Placeholder

namespace Segment

variable {quotations : Quotations} {text : List Char}

theorem filterMap_parameter?_ofText :
    (ofText quotations text).filterMap parameter? =
      (Placeholder.parameters quotations text).map Occurrence.placeholder := by
  rw [ofText, Placeholder.parameters_eq_filterMap, List.filterMap_map, List.map_filterMap]
  apply List.filterMap_congr
  intro located _
  obtain ⟨start, piece⟩ := located
  cases piece with
  | plain c => rfl
  | placeholder p =>
    cases hquoted : quotations.isQuoted start <;>
      simp [ofPiece, parameter?, Occurrence.ofPiece?, hquoted]

theorem forall_parameter?_ofText_iff {P : Placeholder → Prop} :
    (∀ s ∈ ofText quotations text, ∀ p ∈ s.parameter?, P p) ↔
      ∀ o ∈ Placeholder.parameters quotations text, P o.placeholder := by
  have hmem : ∀ p, p ∈ (ofText quotations text).filterMap parameter? ↔
      p ∈ (Placeholder.parameters quotations text).map Occurrence.placeholder := by
    intro p
    rw [filterMap_parameter?_ofText]
  simp only [List.mem_filterMap, List.mem_map] at hmem
  constructor
  · intro h o ho
    obtain ⟨s, hs, hp⟩ := (hmem o.placeholder).2 ⟨o, ho, rfl⟩
    exact h s hs _ hp
  · intro h s hs p hp
    obtain ⟨o, ho, rfl⟩ := (hmem p).1 ⟨s, hs, hp⟩
    exact h o ho

theorem countP_takesNumber_ofText :
    (ofText quotations text).countP takesNumber =
      (Placeholder.parameters quotations text).countP (·.placeholder.isExpression) := by
  have hcount : ((Placeholder.parameters quotations text).map Occurrence.placeholder).countP
      Placeholder.isExpression = (ofText quotations text).countP takesNumber := by
    rw [← filterMap_parameter?_ofText, List.countP_filterMap]
    apply List.countP_congr
    intro s _
    cases s <;> simp [takesNumber, parameter?]
  rw [← hcount, List.countP_map]
  rfl

def numbered? (m : Nat × Segment) : Option (Nat × Placeholder) :=
  m.2.parameter?.map fun p => (m.1, p)

theorem filterMap_numbered?_assign_ofText (last : Nat) :
    (Numbering.assign takesNumber last (ofText quotations text)).filterMap numbered? =
      (Numbering.assign (·.placeholder.isExpression) last
        (Placeholder.parameters quotations text)).map fun m => (m.1, m.2.placeholder) := by
  have hsegments : Numbering.assign Placeholder.isExpression last
      ((ofText quotations text).filterMap parameter?) =
        (Numbering.assign takesNumber last (ofText quotations text)).filterMap numbered? := by
    apply Numbering.assign_filterMap
    · intro s hs
      simp [takesNumber, hs]
    · intro s p hs
      simp [takesNumber, hs]
  rw [← hsegments, filterMap_parameter?_ofText]
  exact Numbering.assign_map (fun _ => rfl) last _

theorem filterMap_binding?_assign_ofText (numbering : Numbering) (last : Nat) :
    (Numbering.assign takesNumber last (ofText quotations text)).filterMap (binding? numbering) =
      (Numbering.assign (·.placeholder.isExpression) last
        (Placeholder.parameters quotations text)).map
          fun m => m.2.placeholder.binding numbering m.1 := by
  calc
    _ = ((Numbering.assign takesNumber last (ofText quotations text)).filterMap numbered?).map
          fun m => m.2.binding numbering m.1 := by
      rw [List.map_filterMap]
      apply List.filterMap_congr
      intro m _
      rw [numbered?, Option.map_map]
      rfl
    _ = _ := by
      rw [filterMap_numbered?_assign_ofText, List.map_map]
      rfl

theorem sound_of_mem_ofText {survey : Survey} (h : Survey.ofText text = .ok survey) :
    ∀ s ∈ ofText quotations text, s.Sound :=
  forall_parameter?_ofText_iff.2 fun _ ho =>
    ⟨Placeholder.wellFormed_of_mem_parameters ho, Placeholder.fitsWord_of_mem_parameters h ho⟩

end Segment

end QueryParams
