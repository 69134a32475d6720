import QueryParams.Proofs.Extraction.Bindings
import QueryParams.Proofs.Placeholder.Quotes

/-!
# Placeholders that are not lost

A literal index or name that stands outside of every literal has a binding, unless it lies inside
the span of an expression. An expression inside of a literal takes part in this as well: the scan
does not know of quotes, so such an expression may reach beyond the end of its literal and hide
what stands there.

Main statements: `ParsedQuery.exists_binding_of_standsAt` and
`ParsedQuery.index_hidden_by_quoted_expression`.
-/

namespace QueryParams

open Placeholder

/-- The occurrence that accounts for a literal body is no expression that covers the body, so it
begins with this very body. -/
theorem Placeholder.exists_occurrence_of_literal {text : List Char} {offset : Nat} {b : Body}
    (h : b.StandsAt text offset)
    (hfree : ∀ o ∈ occurrences text, o.placeholder.isExpression = true →
      o.span.contains offset = false) :
    ∃ o ∈ occurrences text, o.bodyStart = offset ∧ o.placeholder.body = b := by
  obtain ⟨o, ho, haccounts⟩ := exists_accounts_of_body h
  have hcontains := contains_of_accounts haccounts
  rcases haccounts with hbody | ⟨source, hsource, -⟩
  · exact ⟨o, ho, hbody⟩
  · obtain ⟨written, hwritten, -⟩ := Option.map_eq_some_iff.1 hsource
    have hexpression : o.placeholder.isExpression = true := by simp [isExpression, hwritten]
    rw [hfree o ho hexpression] at hcontains
    cases hcontains

namespace ParsedQuery

/-- A literal index or name outside of the literals has a binding, unless it lies inside the span
of an expression. -/
theorem exists_binding_of_standsAt {query : String} {survey : Survey} {q : ParsedQuery}
    {offset : Nat} {b : Body} (hsurvey : Survey.ofText query.toList = .ok survey)
    (hparse : parse query = .ok q) (hstands : b.StandsAt query.toList offset)
    (hliteral : b.expression? = none) (hlive : survey.quotations.isQuoted offset = false)
    (hfree : ∀ o ∈ occurrences query.toList, o.placeholder.isExpression = true →
      o.span.contains offset = false) :
    ∃ found ∈ q.bindings, found.key = b.key survey.numbering 0 := by
  obtain ⟨o, ho, hstart, rfl⟩ := exists_occurrence_of_literal hstands hfree
  obtain ⟨-, hquotations, -⟩ := Survey.ofText_eq_ok_iff.1 hsurvey
  have hunquoted : survey.quotations.isQuoted o.start = false := by
    rw [← isQuoted_bodyStart hquotations ho, hstart, hlive]
  have hparameter : o ∈ parameters survey.quotations query.toList :=
    List.mem_filter.2 ⟨ho, by simp [hunquoted]⟩
  obtain ⟨number, hbinding⟩ := Survey.mem_bindings_of_mem_parameters hparameter
  refine ⟨_, mem_bindings_of_parse hsurvey hparse hbinding, ?_⟩
  show o.placeholder.body.key survey.numbering number = _
  cases hbody : o.placeholder.body with
  | index digits => rfl
  | name identifier => rfl
  | expression sign source => simp [hbody, Body.expression?] at hliteral

theorem exists_binding_of_standsAt_behind_literal :
    ∃ q, parse "a = '?2' and b = :#{e} and c in (?1)" = .ok q ∧
      ∃ found ∈ q.bindings, found.key = .position 1 := by
  have hsurvey : Survey.ofText "a = '?2' and b = :#{e} and c in (?1)".toList =
      .ok ⟨.positional, 2, { ranges := [⟨4, 8, by decide⟩], ascending := by simp }⟩ := by
    decide +kernel
  have hparse : parse "a = '?2' and b = :#{e} and c in (?1)" = .ok
      { text := "a = '?2' and b = ?3 and c in (?1)"
        registry := ⟨[{ key := .position 3, expression := some "e" },
          { key := .position 1, kind := .collection }], by decide⟩
        usesPaging := false } := by
    decide +kernel
  have hstands : (Body.index ['1']).StandsAt "a = '?2' and b = :#{e} and c in (?1)".toList 33 :=
    ⟨"a = '?2' and b = :#{e} and c in (".toList, [')'], by decide +kernel, by decide +kernel,
      by decide +kernel, by decide +kernel, by decide +kernel⟩
  exact ⟨_, hparse, exists_binding_of_standsAt hsurvey hparse hstands rfl (by decide +kernel)
    (by decide +kernel)⟩

/-- An expression that begins inside a literal and ends inside another one hides the index between
them, which stands outside of every literal and of every expression parameter. -/
theorem index_hidden_by_quoted_expression :
    ∃ survey q, Survey.ofText "a = '?#\x7b' and b = ?1 and c = '\x7d'".toList = .ok survey ∧
      parse "a = '?#\x7b' and b = ?1 and c = '\x7d'" = .ok q ∧
      (Body.index ['1']).StandsAt "a = '?#\x7b' and b = ?1 and c = '\x7d'".toList 18 ∧
      survey.quotations.isQuoted 18 = false ∧
      parameters survey.quotations "a = '?#\x7b' and b = ?1 and c = '\x7d'".toList = [] ∧
      q.bindings = [] := by
  have hsurvey : Survey.ofText "a = '?#\x7b' and b = ?1 and c = '\x7d'".toList =
      .ok ⟨.positional, 1,
        { ranges := [⟨4, 9, by decide⟩, ⟨29, 32, by decide⟩], ascending := by simp }⟩ := by
    decide +kernel
  have hparse : parse "a = '?#\x7b' and b = ?1 and c = '\x7d'" = .ok
      { text := "a = '?#\x7b' and b = ?1 and c = '\x7d'", registry := .empty, usesPaging := false } := by
    decide +kernel
  have hstands : (Body.index ['1']).StandsAt "a = '?#\x7b' and b = ?1 and c = '\x7d'".toList 18 :=
    ⟨"a = '?#\x7b' and b = ".toList, " and c = '\x7d'".toList, by decide +kernel, by decide +kernel,
      by decide +kernel, by decide +kernel, by decide +kernel⟩
  exact ⟨_, _, hsurvey, hparse, hstands, by decide +kernel, by decide +kernel, rfl⟩

end ParsedQuery

end QueryParams
