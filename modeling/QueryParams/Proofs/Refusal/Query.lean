import QueryParams.Proofs.Extraction.Bindings
import QueryParams.Proofs.Placeholder.Greatest
import QueryParams.Proofs.Quotation
import QueryParams.Proofs.Refusal.Walk

/-!
# Why a query is refused

Everything that can be wrong with a query, in the order in which it counts: a blank text, an index
that is no word of 32 bits, a literal that is not closed, and the first parameter that is refused.

Main statement: `ParsedQuery.parse_eq_error_iff`.
-/

namespace QueryParams

/-! ## The survey -/

theorem Text.isBlankText_iff {text : List Char} :
    isBlankText text = true ↔ ∀ c ∈ text, isBlank c = true := by
  rw [isBlankText, List.all_eq_true]

theorem Text.isBlankText_eq_false_iff {text : List Char} :
    isBlankText text = false ↔ ∃ c ∈ text, isBlank c = false := by
  rw [isBlankText, List.all_eq_false]
  simp

namespace Survey

variable {text : List Char} {e : BindingError}

theorem ofText_eq_error_iff :
    ofText text = .error e ↔
      (Text.isBlankText text = true ∧ e = .emptyQuery) ∨
        Text.isBlankText text = false ∧
          ((∃ offset digits, FirstExceeding text offset digits ∧
              e = .indexOutOfRange (String.ofList digits)) ∨
            IndicesFit text ∧ ∃ start, Quotations.UnclosedAt text start ∧
              e = .malformedQuotation (String.ofList text) start) := by
  have hquotations : (Quotations.ofText text).mapError
      (BindingError.malformedQuotation (String.ofList text)) = .error e ↔
        ∃ start, Quotations.UnclosedAt text start ∧
          e = .malformedQuotation (String.ofList text) start := by
    simp only [← Quotations.ofText_eq_error_iff]
    cases Quotations.ofText text <;> simp [Except.mapError, @eq_comm _ e]
  unfold ofText
  by_cases hblank : Text.isBlankText text = true
  · simp [hblank, @eq_comm _ e]
  · rw [if_neg hblank, ← exists_greatestIndex_eq_ok_iff]
    simp only [bind_eq_error_iff, greatestIndex_eq_error_iff, hquotations, pure, Except.pure,
      reduceCtorEq, and_false, exists_false, or_false, exists_and_right]
    simp [hblank]

theorem exists_ofText_eq_ok_iff :
    (∃ survey, ofText text = .ok survey) ↔
      (∃ c ∈ text, Text.isBlank c = false) ∧ IndicesFit text ∧
        Quotations.openAfter none text = none := by
  rw [← Text.isBlankText_eq_false_iff, ← exists_greatestIndex_eq_ok_iff,
    ← Quotations.exists_ofText_eq_ok_iff]
  simp only [ofText_eq_ok_iff]
  constructor
  · intro h
    obtain ⟨survey, hblank, hquotations, greatest, hgreatest, -⟩ := h
    exact ⟨hblank, ⟨greatest, hgreatest⟩, _, hquotations⟩
  · intro h
    obtain ⟨hblank, ⟨greatest, hgreatest⟩, quotations, hquotations⟩ := h
    exact ⟨⟨numberingOf greatest text, greatest.getD 0, quotations⟩, hblank, hquotations, greatest,
      hgreatest, rfl, rfl⟩

def refusal? (survey : Survey) (earlier : List (Nat × Occurrence)) (m : Nat × Occurrence) :
    Option BindingError :=
  (m.2.placeholder.defect? m.1).or
    (Binding.conflict? (earlier.map fun m => m.2.placeholder.binding survey.numbering m.1)
      (m.2.placeholder.binding survey.numbering m.1))

theorem refusal?_cases {survey : Survey} {earlier : List (Nat × Occurrence)} {m : Nat × Occurrence}
    (h : survey.refusal? earlier m = some e) :
    m.2.placeholder.defect? m.1 = some e ∨
      ∃ existing found, e = .conflictingBinding existing found := by
  rcases Option.or_eq_some_iff.1 h with hdefect | ⟨-, hconflict⟩
  · exact Or.inl hdefect
  · obtain ⟨existing, -, -, rfl⟩ := Binding.conflict?_eq_some_iff.1 hconflict
    exact Or.inr ⟨_, _, rfl⟩

end Survey

/-! ## The walk -/

theorem Extraction.ofSurvey_eq_error_iff {survey : Survey} {text : List Char} {e : BindingError}
    (hsurvey : Survey.ofText text = .ok survey) :
    ofSurvey survey text = .error e ↔
      firstRefusal? survey.refusal? [] (survey.numbered text) = some e := by
  have hstart : Progress.Registers survey.numbering { last := survey.greatest } [] := rfl
  have hrefusal : (fun earlier m => Placeholder.refusal? survey.numbering
      (earlier.map fun m => (m.1, m.2.placeholder)) (m.1, m.2.placeholder)) = survey.refusal? := by
    funext earlier m
    rw [Placeholder.refusal?, List.map_map]
    rfl
  have hmap := firstRefusal?_map (fun m : Nat × Occurrence => (m.1, m.2.placeholder))
    (Placeholder.refusal? survey.numbering) [] (survey.numbered text)
  rw [hrefusal, List.map_nil] at hmap
  simp only [ofSurvey, bind_eq_error_iff, pure, Except.pure, reduceCtorEq, and_false, exists_false,
    or_false]
  rw [foldlM_step_eq_error_iff (Segment.sound_of_mem_ofText hsurvey) hstart,
    Segment.filterMap_numbered?_assign_ofText, ← hmap]
  rfl

namespace ParsedQuery

/-- What is wrong with a query. Each case presupposes that the ones in front of it do not hold. -/
inductive Refused (query : String) : BindingError → Prop
  | empty (hblank : ∀ c ∈ query.toList, Text.isBlank c = true) : Refused query .emptyQuery
  | index {offset : Nat} {digits : List Char}
    (hinhabited : ∃ c ∈ query.toList, Text.isBlank c = false)
    (hfirst : FirstExceeding query.toList offset digits) :
    Refused query (.indexOutOfRange (String.ofList digits))
  | quotation {start : Nat} (hinhabited : ∃ c ∈ query.toList, Text.isBlank c = false)
    (hfit : IndicesFit query.toList) (hunclosed : Quotations.UnclosedAt query.toList start) :
    Refused query (.malformedQuotation query start)
  /-- A parameter is refused, and none in front of it. -/
  | parameter {survey : Survey} {earlier later : List (Nat × Occurrence)} {m : Nat × Occurrence}
    {e : BindingError} (hsurvey : Survey.ofText query.toList = .ok survey)
    (hnumbered : survey.numbered query.toList = earlier ++ m :: later)
    (hpassed : ∀ front m' between, earlier = front ++ m' :: between →
      survey.refusal? front m' = none)
    (hrefused : survey.refusal? earlier m = some e) : Refused query e

variable {query : String} {e : BindingError}

theorem parse_eq_error_iff_survey :
    parse query = .error e ↔
      Survey.ofText query.toList = .error e ∨
        ∃ survey, Survey.ofText query.toList = .ok survey ∧
          Extraction.ofSurvey survey query.toList = .error e := by
  simp [parse, Extraction.ofQuery, bind_eq_error_iff, pure, Except.pure]

theorem refused_iff_survey :
    Refused query e ↔
      Survey.ofText query.toList = .error e ∨
        ∃ survey, Survey.ofText query.toList = .ok survey ∧
          firstRefusal? survey.refusal? [] (survey.numbered query.toList) = some e := by
  rw [Survey.ofText_eq_error_iff, Text.isBlankText_iff, Text.isBlankText_eq_false_iff,
    String.ofList_toList]
  constructor
  · intro h
    cases h with
    | empty hblank => exact Or.inl (Or.inl ⟨hblank, rfl⟩)
    | index hinhabited hfirst =>
      exact Or.inl (Or.inr ⟨hinhabited, Or.inl ⟨_, _, hfirst, rfl⟩⟩)
    | quotation hinhabited hfit hunclosed =>
      exact Or.inl (Or.inr ⟨hinhabited, Or.inr ⟨hfit, _, hunclosed, rfl⟩⟩)
    | parameter hsurvey hnumbered hpassed hrefused =>
      refine Or.inr ⟨_, hsurvey, firstRefusal?_eq_some_iff.2 ⟨_, _, _, hnumbered, ?_, ?_⟩⟩
      · simpa using hrefused
      · simpa using hpassed
  · intro h
    rcases h with (⟨hblank, rfl⟩ | ⟨hinhabited, hindex | ⟨hfit, start, hunclosed, rfl⟩⟩) |
      ⟨survey, hsurvey, hfirst⟩
    · exact .empty hblank
    · obtain ⟨offset, digits, hfirst, rfl⟩ := hindex
      exact .index hinhabited hfirst
    · exact .quotation hinhabited hfit hunclosed
    · obtain ⟨earlier, m, later, hnumbered, hrefused, hpassed⟩ :=
        firstRefusal?_eq_some_iff.1 hfirst
      exact .parameter hsurvey hnumbered (by simpa using hpassed) (by simpa using hrefused)

theorem refused_iff_parse : parse query = .error e ↔ Refused query e := by
  rw [parse_eq_error_iff_survey, refused_iff_survey]
  refine or_congr_right (exists_congr fun survey => and_congr_right fun hsurvey => ?_)
  exact Extraction.ofSurvey_eq_error_iff hsurvey

/-- A query is refused with one error, that of the first thing that is wrong with it. A parameter
makes no binding only if it is a LIKE parameter with the index zero, and no query is refused for a
name or a position that is asked of a binding. -/
theorem parse_eq_error_iff (query : String) :
    (∀ e, parse query = .error e ↔ Refused query e) ∧
      ((∃ survey, Survey.ofText query.toList = .ok survey) ↔
        (∃ c ∈ query.toList, Text.isBlank c = false) ∧ IndicesFit query.toList ∧
          Quotations.openAfter none query.toList = none) ∧
      (∀ defect, parse query = .error (.invalidConstruction defect) →
        defect = .positionZero ∧ ∃ survey, Survey.ofText query.toList = .ok survey ∧
          ∃ o ∈ Placeholder.parameters survey.quotations query.toList,
            o.placeholder.isLike = true ∧
              ∃ digits, o.placeholder.body = .index digits ∧ Text.numeralValue digits = 0) ∧
      ∀ b, parse query ≠ .error (.missingName b) ∧ parse query ≠ .error (.missingPosition b) := by
  refine ⟨fun _ => refused_iff_parse, Survey.exists_ofText_eq_ok_iff, ?_, ?_⟩
  · intro defect h
    cases refused_iff_parse.1 h with
    | @parameter survey earlier later m _ hsurvey hnumbered _ hrefused =>
      have hmem : m ∈ survey.numbered query.toList := by
        rw [hnumbered]
        simp
      rcases Survey.refusal?_cases hrefused with hdefect | ⟨existing, found, he⟩
      · rcases Placeholder.defect?_cases hdefect with
          ⟨-, -, he⟩ | ⟨k, -, -, he⟩ | ⟨hlike, hzero, he⟩
        · cases he
        · cases he
        · cases he
          exact ⟨rfl, survey, hsurvey, m.2, Numbering.mem_of_mem_assign hmem, hlike,
            Body.isIndexZero_iff.1 hzero⟩
      · cases he
  · have hnever {e : BindingError} (h : Refused query e) (b : Binding) :
        e ≠ .missingName b ∧ e ≠ .missingPosition b := by
      cases h with
      | empty | index | quotation => exact ⟨BindingError.noConfusion, BindingError.noConfusion⟩
      | parameter _ _ _ hrefused =>
        rcases Survey.refusal?_cases hrefused with hdefect | ⟨existing, found, rfl⟩
        · rcases Placeholder.defect?_cases hdefect with
            ⟨-, -, rfl⟩ | ⟨k, -, -, rfl⟩ | ⟨-, -, rfl⟩ <;> simp
        · simp
    intro b
    constructor
    · intro h
      exact (hnever (refused_iff_parse.1 h) b).1 rfl
    · intro h
      exact (hnever (refused_iff_parse.1 h) b).2 rfl

end ParsedQuery

end QueryParams
