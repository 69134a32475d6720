import QueryParams.Proofs.Numbering.Expressions
import QueryParams.Proofs.Text.Search

/-!
# Where the page is mentioned

A query is said to use paging as soon as its text mentions the page, be it inside a literal or in
plain text. The bindings show a mention exactly if it lies in the source of an expression parameter.

Main statements: `ParsedQuery.usesPaging_iff` and `ParsedQuery.paging_without_expression`.
-/

namespace QueryParams

namespace Text

def OccursAt (pattern text : List Char) (offset : Nat) : Prop :=
  ∃ before behind, text = before ++ (pattern ++ behind) ∧ offset = width before

theorem exists_occursAt_iff {pattern text : List Char} :
    (∃ offset, OccursAt pattern text offset) ↔ occursIn pattern text = true := by
  rw [occursIn_iff]
  constructor
  · intro h
    obtain ⟨offset, before, behind, htext, -⟩ := h
    exact ⟨before, behind, by rw [htext, List.append_assoc]⟩
  · intro h
    obtain ⟨before, behind, htext⟩ := h
    exact ⟨width before, before, behind, by rw [← htext, List.append_assoc], rfl⟩

end Text

theorem Occurrence.occursIn_source_iff {text source pattern : List Char} {o : Occurrence} {s : Sign}
    (ho : o ∈ Placeholder.occurrences text) (hbody : o.placeholder.body = .expression s source)
    (hne : pattern ≠ []) (hbrace : '}' ∉ pattern) :
    Text.occursIn pattern source = true ↔
      ∃ offset, Text.OccursAt pattern text offset ∧
        (Span.ofText (o.bodyStart + 3) source).contains offset = true := by
  obtain ⟨earlier, later, htext, hopen, -⟩ := exists_text_eq_of_expression ho hbody
  constructor
  · intro h
    obtain ⟨offset, before, behind, rfl, rfl⟩ := Text.exists_occursAt_iff.2 h
    obtain ⟨c, pattern, rfl⟩ := List.exists_cons_of_ne_nil hne
    refine ⟨o.bodyStart + 3 + Text.width before, ⟨earlier ++ [s.char, '#', '{'] ++ before,
      behind ++ '}' :: later, ?_, ?_⟩, Span.contains_ofText_of_eq rfl⟩
    · rw [htext]
      simp
    · rw [Text.width_append _ before, hopen]
  · intro h
    obtain ⟨offset, ⟨before, behind, hoccurs, rfl⟩, hcontains⟩ := h
    rw [Span.contains_iff, Span.start_ofText, Span.stop_ofText, ← hopen] at hcontains
    obtain ⟨inside, rfl, hinside⟩ :=
      Text.exists_append_of_width_le (htext.symm.trans hoccurs) hcontains.1
    rw [Text.width_append _ inside] at hcontains
    obtain ⟨between, rfl, hbetween⟩ := Text.exists_append_of_width_le hinside.symm (by omega)
    -- the pattern ends in front of the closing brace, because it has none
    obtain ⟨last, rfl, -⟩ := Text.exists_append_of_not_mem_front hbetween hbrace
    rw [Text.occursIn_iff]
    exact ⟨inside, last, by rw [List.append_assoc]⟩

def Survey.InExpression (survey : Survey) (text : List Char) (offset : Nat) : Prop :=
  ∃ o ∈ survey.expressions text, ∃ source ∈ o.sourceSpan?, source.contains offset = true

def Binding.MentionsPage (b : Binding) : Prop :=
  ∃ source ∈ b.expression, Text.occursIn ParsedQuery.pagingMark source.toList = true

namespace ParsedQuery

variable {query : String} {survey : Survey} {q : ParsedQuery}

theorem exists_expression_eq_iff (hsurvey : Survey.ofText query.toList = .ok survey)
    (hparse : parse query = .ok q) {source : String} :
    (∃ b ∈ q.bindings, b.expression = some source) ↔
      ∃ o ∈ survey.expressions query.toList, ∃ s,
        o.placeholder.body = .expression s source.toList := by
  obtain ⟨-, -, hbindings, -⟩ := (parse_eq_ok_iff hsurvey).1 hparse
  constructor
  · intro h
    obtain ⟨b, hb, hsource⟩ := h
    rw [hbindings] at hb
    obtain ⟨m, hm, rfl⟩ := List.mem_map.1 (Binding.mem_of_mem_firstOfEachKey hb)
    obtain ⟨written, hwritten, rfl⟩ := Option.map_eq_some_iff.1 hsource
    have hexpression : m.2.placeholder.isExpression = true := by
      simp [Placeholder.isExpression, hwritten]
    obtain ⟨s, source, hbody⟩ := Placeholder.exists_body_of_isExpression hexpression
    rw [hbody] at hwritten
    cases hwritten
    refine ⟨m.2, List.mem_filter.2 ⟨Numbering.mem_of_mem_assign hm, hexpression⟩, s, ?_⟩
    rw [String.toList_ofList]
    exact hbody
  · intro h
    obtain ⟨o, ho, s, hbody⟩ := h
    obtain ⟨number, hbinding⟩ :=
      Survey.mem_bindings_of_mem_parameters (List.mem_filter.1 ho).1
    refine ⟨_, mem_bindings_of_parse hsurvey hparse hbinding, ?_⟩
    simp [Placeholder.binding, hbody, Body.expression?]

theorem exists_mentionsPage_iff (hsurvey : Survey.ofText query.toList = .ok survey)
    (hparse : parse query = .ok q) :
    (∃ b ∈ q.bindings, b.MentionsPage) ↔
      ∃ offset, Text.OccursAt pagingMark query.toList offset ∧
        survey.InExpression query.toList offset := by
  have hoccurs {o : Occurrence} {s : Sign} {source : List Char}
      (ho : o ∈ survey.expressions query.toList)
      (hbody : o.placeholder.body = .expression s source) :=
    Occurrence.occursIn_source_iff
      (Placeholder.mem_occurrences_of_mem_parameters (List.mem_filter.1 ho).1) hbody
      (show pagingMark ≠ [] by decide) (by decide)
  constructor
  · intro h
    obtain ⟨b, hb, source, hsource, hmark⟩ := h
    obtain ⟨o, ho, s, hbody⟩ := (exists_expression_eq_iff hsurvey hparse).1 ⟨b, hb, hsource⟩
    obtain ⟨offset, hat, hcontains⟩ := (hoccurs ho hbody).1 hmark
    refine ⟨offset, hat, o, ho, _, ?_, hcontains⟩
    simp [Occurrence.sourceSpan?, hbody, Body.expression?]
  · intro h
    obtain ⟨offset, hat, o, ho, span, hspan, hcontains⟩ := h
    obtain ⟨s, source, hbody, rfl⟩ := Occurrence.exists_body_of_sourceSpan? hspan
    have hsource : o.placeholder.body = .expression s (String.ofList source).toList := by
      rw [String.toList_ofList]
      exact hbody
    obtain ⟨b, hb, hexpression⟩ :=
      (exists_expression_eq_iff hsurvey hparse).2 ⟨o, ho, s, hsource⟩
    refine ⟨b, hb, _, hexpression, ?_⟩
    rw [String.toList_ofList]
    exact (hoccurs ho hbody).2 ⟨offset, hat, hcontains⟩

/-- A query uses paging if the expression of a binding mentions the page, or if the page is
mentioned outside of the expressions among the parameters. The bindings show the former mentions and
no others. -/
theorem usesPaging_iff (hsurvey : Survey.ofText query.toList = .ok survey)
    (hparse : parse query = .ok q) :
    ((∃ b ∈ q.bindings, b.MentionsPage) ↔
        ∃ offset, Text.OccursAt pagingMark query.toList offset ∧
          survey.InExpression query.toList offset) ∧
      (q.usesPaging = true ↔
        (∃ b ∈ q.bindings, b.MentionsPage) ∨
          ∃ offset, Text.OccursAt pagingMark query.toList offset ∧
            ¬ survey.InExpression query.toList offset) := by
  have hmentions := exists_mentionsPage_iff hsurvey hparse
  obtain ⟨-, -, -, hpaging⟩ := (parse_eq_ok_iff hsurvey).1 hparse
  refine ⟨hmentions, ?_⟩
  rw [hpaging, ← Text.exists_occursAt_iff, hmentions]
  constructor
  · intro h
    obtain ⟨offset, hat⟩ := h
    by_cases hinside : survey.InExpression query.toList offset
    · exact Or.inl ⟨offset, hat, hinside⟩
    · exact Or.inr ⟨offset, hat, hinside⟩
  · intro h
    rcases h with ⟨offset, hat, -⟩ | ⟨offset, hat, -⟩ <;> exact ⟨offset, hat⟩

theorem usesPaging_iff_in_expression :
    ∃ q, parse "a = ?#\x7b#pageable.offset\x7d and b = '#page'" = .ok q ∧ q.usesPaging = true := by
  have hsurvey : Survey.ofText "a = ?#\x7b#pageable.offset\x7d and b = '#page'".toList =
      .ok ⟨.positional, 0, { ranges := [⟨33, 40, by decide⟩], ascending := by simp }⟩ := by
    decide +kernel
  have hparse : parse "a = ?#\x7b#pageable.offset\x7d and b = '#page'" = .ok
      { text := "a = ?1 and b = '#page'"
        registry := ⟨[{ key := .position 1, expression := some "#pageable.offset" }], by decide⟩
        usesPaging := true } := by
    decide +kernel
  have hmentions : Binding.MentionsPage
      { key := .position 1, expression := some "#pageable.offset" } :=
    ⟨"#pageable.offset", rfl, by decide +kernel⟩
  exact ⟨_, hparse, (usesPaging_iff hsurvey hparse).2.2
    (Or.inl ⟨_, List.mem_cons_self, hmentions⟩)⟩

theorem paging_without_expression :
    ∃ q, parse "a = '#pageable'" = .ok q ∧ q.usesPaging = true ∧
      ¬ ∃ b ∈ q.bindings, b.MentionsPage := by
  have hparse : parse "a = '#pageable'" = .ok
      { text := "a = '#pageable'", registry := .empty, usesPaging := true } := by
    decide +kernel
  refine ⟨_, hparse, rfl, ?_⟩
  rintro ⟨b, hb, -⟩
  cases hb

end ParsedQuery

end QueryParams
