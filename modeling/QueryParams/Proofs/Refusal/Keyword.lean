import QueryParams.Proofs.Placeholder.Surrounding
import QueryParams.Proofs.Refusal.Query

/-!
# Which keywords are classified

Keywords are read up to simple case folding, but classified up to the case of ASCII letters. The two
differ in one character, the Kelvin sign, which folds to `k`. So the keywords with a Kelvin sign are
all that is read as a keyword and then refused.

Main statement: `ParsedQuery.keyword_classified`.
-/

namespace QueryParams

/-- The kind that a keyword asks for as it is written, blanks around it included. What is nothing
but blanks asks for no kind. -/
def Kind.ofWritten (wildcard : Wildcard) (written : Option (List Char)) :
    Except BindingError Kind :=
  match (written.map Text.trim).filter fun word => !word.isEmpty with
  | none => .ok .plain
  | some word =>
    if Text.equalIgnoringCase word ['l', 'i', 'k', 'e'] then .ok (.like wildcard)
    else if Text.equalIgnoringCase word ['i', 'n'] then .ok .collection
    else .error (.unsupportedKeyword (String.ofList word))

namespace Keyword

/-! ## Letters -/

/-- The character beside `k` and `K` that folds to `k`. -/
def kelvinSign : Char := '\u212a'

variable {letter c : Char} {word written : List Char} {k : Keyword}

/-- The Kelvin sign is the only folding of a letter that is not among its ASCII variants. -/
theorem toLower_eq_iff_of_mem_foldings (h : c ∈ foldings letter) :
    c.toLower = letter ↔ c ≠ kelvinSign := by
  unfold foldings at h
  split at h <;> simp only [List.mem_cons, List.not_mem_nil, or_false] at h
  · rcases h with rfl | rfl <;> decide
  · rcases h with rfl | rfl <;> decide
  · rcases h with rfl | rfl | rfl <;> decide
  · rcases h with rfl | rfl <;> decide
  · rcases h with rfl | rfl <;> decide

theorem map_toLower_eq_iff_of_spells (h : Spells word written) :
    written.map Char.toLower = word ↔ kelvinSign ∉ written := by
  induction h with
  | nil => simp
  | cons hc _ ih =>
    rw [List.map_cons, List.cons.injEq, toLower_eq_iff_of_mem_foldings hc, ih, List.mem_cons,
      not_or, ne_comm]

theorem equalIgnoringCase_iff (hlower : word.map Char.toLower = word) (h : Spells word written) :
    Text.equalIgnoringCase written word = true ↔ kelvinSign ∉ written := by
  rw [Text.equalIgnoringCase, beq_iff_eq, hlower, map_toLower_eq_iff_of_spells h]

theorem equalIgnoringCase_eq_false {other : List Char} (hlength : word.length ≠ other.length)
    (h : Spells word written) : Text.equalIgnoringCase written other = false := by
  rw [Bool.eq_false_iff]
  intro hequal
  rw [Text.equalIgnoringCase, beq_iff_eq] at hequal
  have hlengths := congrArg List.length hequal
  rw [List.length_map, List.length_map, ← h.length_eq] at hlengths
  exact hlength hlengths

theorem kelvinSign_not_mem_of_spells_in (h : Spells ['i', 'n'] written) : kelvinSign ∉ written := by
  obtain ⟨i, rest, hi, hrest, rfl⟩ := List.forall₂_cons_left_iff.1 h
  obtain ⟨n, rest, hn, hnil, rfl⟩ := List.forall₂_cons_left_iff.1 hrest
  obtain rfl := List.forall₂_nil_left_iff.1 hnil
  simp only [foldings, List.mem_cons, List.not_mem_nil, or_false] at hi hn
  rcases hi with rfl | rfl <;> rcases hn with rfl | rfl <;> decide

/-! ## Keywords -/

theorem WellFormed.cases (h : k.WellFormed) :
    kelvinSign ∉ k.word ∧ Spells ['l', 'i', 'k', 'e'] k.word ∧ k.isLike = true ∨
      kelvinSign ∉ k.word ∧ Spells ['i', 'n'] k.word ∧ k.isLike = false ∧ k.isIn = true ∨
      kelvinSign ∈ k.word ∧ k.isLike = false ∧ k.isIn = false := by
  obtain ⟨word, hword, hspells⟩ := h.word
  simp only [words, List.mem_cons, List.not_mem_nil, or_false] at hword
  rcases hword with rfl | rfl
  · have hlike : k.isLike = true ↔ kelvinSign ∉ k.word := equalIgnoringCase_iff rfl hspells
    have hin : k.isIn = false := equalIgnoringCase_eq_false (by decide) hspells
    by_cases hkelvin : kelvinSign ∈ k.word
    · exact Or.inr (Or.inr ⟨hkelvin, by simpa [hkelvin] using hlike, hin⟩)
    · exact Or.inl ⟨hkelvin, hspells, hlike.2 hkelvin⟩
  · have hkelvin := kelvinSign_not_mem_of_spells_in hspells
    have hin : k.isIn = true := (equalIgnoringCase_iff rfl hspells).2 hkelvin
    have hlike : k.isLike = false := equalIgnoringCase_eq_false (by decide) hspells
    exact Or.inr (Or.inl ⟨hkelvin, hspells, hlike, hin⟩)

theorem WellFormed.isUnclassified_iff (h : k.WellFormed) :
    k.isUnclassified = true ↔ kelvinSign ∈ k.word := by
  unfold isUnclassified
  rcases h.cases with ⟨hkelvin, -, hlike⟩ | ⟨hkelvin, -, hlike, hin⟩ | ⟨hkelvin, hlike, hin⟩
  · simp [hkelvin, hlike]
  · simp [hkelvin, hlike, hin]
  · simp [hkelvin, hlike, hin]

theorem WellFormed.trim_text (h : k.WellFormed) : Text.trim k.text = k.word := by
  obtain ⟨c, cs, hword, -⟩ := exists_word_eq_cons h
  apply Text.trim_concat (by rw [hword]; exact List.cons_ne_nil c cs) _ h.blank
  intro c hc
  exact isBlank_eq_false_of_mem_letters (mem_letters_of_mem_word h hc)

theorem WellFormed.ofWritten_text (h : k.WellFormed) (wildcard : Wildcard) :
    Kind.ofWritten wildcard (some k.text) = k.kind wildcard := by
  obtain ⟨c, cs, hword, -⟩ := exists_word_eq_cons h
  have hsome : ((some k.text).map Text.trim).filter (fun word => !word.isEmpty) = some k.word := by
    simp [h.trim_text, hword]
  rw [Kind.ofWritten, hsome]
  rfl

theorem WellFormed.ofWritten_cases (h : k.WellFormed) (wildcard : Wildcard) :
    (kelvinSign ∉ k.word →
      Spells ['l', 'i', 'k', 'e'] k.word ∧
          Kind.ofWritten wildcard (some k.text) = .ok (.like wildcard) ∨
        Spells ['i', 'n'] k.word ∧ Kind.ofWritten wildcard (some k.text) = .ok .collection) ∧
      (kelvinSign ∈ k.word → Kind.ofWritten wildcard (some k.text) =
        .error (.unsupportedKeyword (String.ofList k.word))) := by
  have hkind : k.kind wildcard =
      if k.isLike then .ok (.like wildcard)
      else if k.isIn then .ok .collection
      else .error (.unsupportedKeyword (String.ofList k.word)) := rfl
  rw [h.ofWritten_text, hkind]
  rcases h.cases with ⟨hkelvin, hspells, hlike⟩ | ⟨hkelvin, hspells, hlike, hin⟩ |
    ⟨hkelvin, hlike, hin⟩
  · simp [hkelvin, hspells, hlike]
  · simp [hkelvin, hspells, hlike, hin]
  · simp [hkelvin, hlike, hin]

end Keyword

theorem Placeholder.kind_eq_ofWritten {p : Placeholder} (h : ∀ k ∈ p.keyword, k.WellFormed) :
    p.kind = Kind.ofWritten (Wildcard.ofDecorated p.decorated) (p.keyword.map Keyword.text) := by
  unfold kind
  cases hkeyword : p.keyword with
  | none => rfl
  | some k =>
    rw [Option.map_some, (h k hkeyword).ofWritten_text]

namespace ParsedQuery

variable {query : String} {survey : Survey}

theorem exists_kelvinSign_of_parse_eq_error {word : String}
    (hsurvey : Survey.ofText query.toList = .ok survey)
    (h : parse query = .error (.unsupportedKeyword word)) :
    ∃ o ∈ Placeholder.parameters survey.quotations query.toList, ∃ k ∈ o.placeholder.keyword,
      Keyword.kelvinSign ∈ k.word ∧ word = String.ofList k.word := by
  cases refused_iff_parse.1 h with
  | @parameter survey' earlier later m _ hsurvey' hnumbered _ hrefused =>
    cases hsurvey.symm.trans hsurvey'
    have hmem : m ∈ survey.numbered query.toList := by
      rw [hnumbered]
      simp
    have ho : m.2 ∈ Placeholder.parameters survey.quotations query.toList :=
      Numbering.mem_of_mem_assign hmem
    rcases Survey.refusal?_cases hrefused with hdefect | ⟨existing, found, he⟩
    · rcases Placeholder.defect?_cases hdefect with ⟨-, -, he⟩ | ⟨k, hk, hunclassified, he⟩ |
        ⟨-, -, he⟩
      · cases he
      · cases he
        have hformed := Placeholder.wellFormed_keyword_of_mem_occurrences
          (Placeholder.mem_occurrences_of_mem_parameters ho) hk
        exact ⟨m.2, ho, k, hk, hformed.isUnclassified_iff.1 hunclassified, rfl⟩
      · cases he
    · cases he

theorem kelvinSign_not_mem_of_parse {q : ParsedQuery}
    (hsurvey : Survey.ofText query.toList = .ok survey) (hparse : parse query = .ok q)
    {o : Occurrence} (ho : o ∈ Placeholder.parameters survey.quotations query.toList) {k : Keyword}
    (hk : k ∈ o.placeholder.keyword) : Keyword.kelvinSign ∉ k.word := by
  obtain ⟨hextractable, -⟩ := (parse_eq_ok_iff hsurvey).1 hparse
  have hclassified := (hextractable.admissible o ho).classified k hk
  have hformed := Placeholder.wellFormed_keyword_of_mem_occurrences
    (Placeholder.mem_occurrences_of_mem_parameters ho) hk
  rw [← hformed.isUnclassified_iff, Keyword.isUnclassified]
  simpa [or_iff_not_imp_left] using hclassified

/-- Every keyword that is read is classified by its letters, as LIKE or as IN, if the Kelvin sign is
not among them. Those with a Kelvin sign are refused, and a query is refused for a keyword for no
other reason. -/
theorem keyword_classified (query : String) :
    (∀ o ∈ Placeholder.occurrences query.toList,
      o.placeholder.kind = Kind.ofWritten (Wildcard.ofDecorated o.placeholder.decorated)
          (o.placeholder.keyword.map Keyword.text) ∧
        ∀ k ∈ o.placeholder.keyword, ∀ wildcard,
          (Keyword.kelvinSign ∉ k.word →
            Keyword.Spells ['l', 'i', 'k', 'e'] k.word ∧
                Kind.ofWritten wildcard (some k.text) = .ok (.like wildcard) ∨
              Keyword.Spells ['i', 'n'] k.word ∧
                Kind.ofWritten wildcard (some k.text) = .ok .collection) ∧
            (Keyword.kelvinSign ∈ k.word → Kind.ofWritten wildcard (some k.text) =
              .error (.unsupportedKeyword (String.ofList k.word)))) ∧
      ∀ survey, Survey.ofText query.toList = .ok survey →
        (∀ word, parse query = .error (.unsupportedKeyword word) →
          ∃ o ∈ Placeholder.parameters survey.quotations query.toList,
            ∃ k ∈ o.placeholder.keyword,
              Keyword.kelvinSign ∈ k.word ∧ word = String.ofList k.word) ∧
          ∀ q, parse query = .ok q →
            ∀ o ∈ Placeholder.parameters survey.quotations query.toList,
              ∀ k ∈ o.placeholder.keyword, Keyword.kelvinSign ∉ k.word := by
  constructor
  · intro o ho
    have hformed : ∀ k ∈ o.placeholder.keyword, k.WellFormed := fun k hk =>
      Placeholder.wellFormed_keyword_of_mem_occurrences ho hk
    refine ⟨Placeholder.kind_eq_ofWritten hformed, ?_⟩
    intro k hk wildcard
    exact (hformed k hk).ofWritten_cases wildcard
  · intro survey hsurvey
    constructor
    · intro word h
      exact exists_kelvinSign_of_parse_eq_error hsurvey h
    · intro q hparse o ho k hk
      exact kelvinSign_not_mem_of_parse hsurvey hparse ho hk

theorem keyword_classified_capitals_and_tab :
    ∃ o ∈ Placeholder.occurrences "a LiKE\t%:x%".toList, ∃ k ∈ o.placeholder.keyword,
      Keyword.kelvinSign ∉ k.word ∧
        Kind.ofWritten .containing (some k.text) = .ok (.like .containing) := by
  have ho : (⟨2, ⟨some ⟨['L', 'i', 'K', 'E'], '\t'⟩, false, false, true, .name ['x'], true, false⟩⟩ :
      Occurrence) ∈ Placeholder.occurrences "a LiKE\t%:x%".toList := by
    decide +kernel
  have hkelvin : Keyword.kelvinSign ∉ ['L', 'i', 'K', 'E'] := by decide
  refine ⟨_, ho, _, rfl, hkelvin, ?_⟩
  rcases (((keyword_classified "a LiKE\t%:x%").1 _ ho).2 _ rfl .containing).1 hkelvin with
    ⟨-, hlike⟩ | ⟨hin, -⟩
  · exact hlike
  · exact absurd hin.length_eq (by decide)

/-- The Kelvin sign is read as a letter of the keyword, which is refused then. -/
theorem kelvin_keyword_refused :
    (∃ o ∈ Placeholder.occurrences "a li\u212ae :x".toList, ∃ k ∈ o.placeholder.keyword,
      Keyword.Spells ['l', 'i', 'k', 'e'] k.word ∧
        Kind.ofWritten .exact (some k.text) = .error (.unsupportedKeyword "li\u212ae")) ∧
      parse "a li\u212ae :x" = .error (.unsupportedKeyword "li\u212ae") := by
  have ho : (⟨2, ⟨some ⟨['l', 'i', '\u212a', 'e'], ' '⟩, false, false, false, .name ['x'], false,
      false⟩⟩ : Occurrence) ∈ Placeholder.occurrences "a li\u212ae :x".toList := by
    decide +kernel
  refine ⟨⟨_, ho, _, rfl, ?_, by decide +kernel⟩, by decide +kernel⟩
  simp [Keyword.Spells, Keyword.foldings]

end ParsedQuery

end QueryParams
