import QueryParams.Proofs.Extraction.Cleaning
import QueryParams.Proofs.Placeholder.Quotes

/-!
# Literals that stay untouched

Whether a placeholder is a parameter is decided by its first byte alone. This is enough: up to the
body all of a placeholder lies where its first byte does, and with a literal index or name it does
as a whole. So a LIKE parameter that loses its decoration has no byte in common with a literal.

Main statement: `Placeholder.isQuoted_throughout`.
-/

namespace QueryParams

namespace Survey

variable {survey : Survey} {text : List Char} {m : Nat × Occurrence}

theorem edit_mem_of_isLike (hm : m ∈ survey.numbered text) (hlike : m.2.placeholder.isLike = true)
    (hliteral : m.2.placeholder.isExpression = false) :
    (⟨m.2.decoratedSpan, m.2.placeholder.body.text⟩ : Text.Edit) ∈ survey.edits text := by
  refine List.mem_filterMap.2 ⟨m, hm, ?_⟩
  simp [Occurrence.edit?, Placeholder.replacement?, hlike, hliteral]

end Survey

theorem Occurrence.avoids_of_apart {o : Occurrence} {range : Span} (written : List Char)
    (h : o.span.stop ≤ range.start ∨ range.stop ≤ o.span.start) :
    (⟨o.decoratedSpan, written⟩ : Text.Edit).Avoids range.start range.stop := by
  have hpos := Text.width_pos_of_ne_nil o.placeholder.decorated_ne_nil
  have hwidth := o.placeholder.width_text
  rw [span, Span.start_ofText, Span.stop_ofText] at h
  rw [Text.Edit.Avoids, decoratedSpan, Span.start_ofText, Span.stop_ofText]
  omega

namespace Placeholder

/-- The bytes of an occurrence up to the first one of its body are quoted alike, and so are all of
its bytes if it has a literal index or name. Such a LIKE parameter is replaced by its bare body; the
replacement changes nothing in any literal, and no other part of the parameter, be it the keyword or
a parenthesis, belongs to a literal either. -/
theorem isQuoted_throughout {text : List Char} {quotations : Quotations}
    (h : Quotations.ofText text = .ok quotations) :
    (∀ o ∈ occurrences text,
      (∀ offset, o.start ≤ offset → offset ≤ o.bodyStart →
        quotations.isQuoted offset = quotations.isQuoted o.start) ∧
      (o.placeholder.isExpression = false → ∀ offset, o.span.contains offset = true →
        quotations.isQuoted offset = quotations.isQuoted o.start)) ∧
    ∀ survey, Survey.ofText text = .ok survey → ∀ m ∈ survey.numbered text,
      m.2.placeholder.isLike = true → m.2.placeholder.isExpression = false →
        ∃ e ∈ survey.edits text, e.span = m.2.decoratedSpan ∧
          e.written = m.2.placeholder.body.text ∧
          ∀ range ∈ quotations.ranges, e.Avoids range.start range.stop ∧
            (m.2.span.stop ≤ range.start ∨ range.stop ≤ m.2.span.start) := by
  constructor
  · intro o ho
    refine ⟨fun offset hstart hbody => isQuoted_eq_start_of_le_bodyStart h ho hstart hbody, ?_⟩
    intro hliteral offset hoffset
    exact isQuoted_eq_start_of_literal h ho (expression?_eq_none hliteral) hoffset
  · intro survey hsurvey m hm hlike hliteral
    obtain ⟨-, hquotations, -⟩ := Survey.ofText_eq_ok_iff.1 hsurvey
    obtain rfl : quotations = survey.quotations := Except.ok.inj (h.symm.trans hquotations)
    obtain ⟨ho, hunquoted⟩ := mem_parameters_iff.1 (Numbering.mem_of_mem_assign hm)
    refine ⟨_, Survey.edit_mem_of_isLike hm hlike hliteral, rfl, rfl, ?_⟩
    intro range hrange
    have hapart := apart_of_literal h ho (expression?_eq_none hliteral) hunquoted hrange
    exact ⟨m.2.avoids_of_apart _ hapart, hapart⟩

theorem isQuoted_throughout_between_literals :
    ∃ quotations survey o, Quotations.ofText "'é' like (%:ñ%)'x'".toList = .ok quotations ∧
      Survey.ofText "'é' like (%:ñ%)'x'".toList = .ok survey ∧
      (0, o) ∈ survey.numbered "'é' like (%:ñ%)'x'".toList ∧ o.span = ⟨5, 17, by decide⟩ ∧
      quotations.isQuoted 14 = quotations.isQuoted 5 ∧
      ∃ e ∈ survey.edits "'é' like (%:ñ%)'x'".toList, e.span = o.decoratedSpan ∧
        e.Avoids 0 4 ∧ e.Avoids 17 20 := by
  have hquotations : Quotations.ofText "'é' like (%:ñ%)'x'".toList =
      .ok { ranges := [⟨0, 4, by decide⟩, ⟨17, 20, by decide⟩], ascending := by simp } := by
    decide +kernel
  have hsurvey : Survey.ofText "'é' like (%:ñ%)'x'".toList = .ok ⟨.named, 0,
      { ranges := [⟨0, 4, by decide⟩, ⟨17, 20, by decide⟩], ascending := by simp }⟩ := by
    decide +kernel
  have hnumbered : Survey.numbered ⟨.named, 0,
      { ranges := [⟨0, 4, by decide⟩, ⟨17, 20, by decide⟩], ascending := by simp }⟩
      "'é' like (%:ñ%)'x'".toList =
        [(0, ⟨5, some ⟨['l', 'i', 'k', 'e'], ' '⟩, false, true, true, .name ['ñ'], true,
          true⟩)] := by
    decide +kernel
  obtain ⟨hbytes, hrewrites⟩ := isQuoted_throughout hquotations
  have hm := List.mem_of_mem_head? (congrArg List.head? hnumbered)
  have ho := mem_occurrences_of_mem_parameters (Numbering.mem_of_mem_assign hm)
  obtain ⟨e, he, hspan, -, havoids⟩ := hrewrites _ hsurvey _ hm rfl rfl
  have halike := (hbytes _ ho).2 rfl 14 (by decide +kernel)
  exact ⟨_, _, _, hquotations, hsurvey, hm, by decide +kernel, halike, e, he, hspan,
    (havoids ⟨0, 4, by decide⟩ (by simp)).1, (havoids ⟨17, 20, by decide⟩ (by simp)).1⟩

end Placeholder

end QueryParams
