import QueryParams.Extraction.Survey
import QueryParams.Proofs.Quotation

/-!
# Texts that are surveyed alike

The survey of a text depends on the runs of digits in it, on whether an expression is numbered by
position and on whether all of its literals are closed. Texts that agree in this are refused in the
same way, or surveyed with the same numbers.

Main statement: `Survey.ofText_alike`.
-/

namespace QueryParams

/-- The errors are the same, but for what is reported of a literal that is never closed. -/
def BindingError.SameKind (e e' : BindingError) : Prop :=
  e = e' ∨ ∃ query start query' start', e = .malformedQuotation query start ∧
    e' = .malformedQuotation query' start'

theorem Survey.ofText_alike {text text' : List Char} (hblank : Text.isBlankText text = false)
    (hblank' : Text.isBlankText text' = false) (hruns : indexRuns text' = indexRuns text)
    (hmark : Text.occursIn positionalMark text' = Text.occursIn positionalMark text)
    (hopen : Quotations.openAfter none text' = Quotations.openAfter none text) :
    (∃ e e', ofText text = .error e ∧ ofText text' = .error e' ∧ e.SameKind e') ∨
      ∃ survey survey', ofText text = .ok survey ∧ ofText text' = .ok survey' ∧
        survey'.numbering = survey.numbering ∧ survey'.greatest = survey.greatest := by
  have hgreatest : greatestIndex text' = greatestIndex text := by
    rw [greatestIndex, greatestIndex, hruns]
  have hnumbering (greatest : Option UInt32) :
      numberingOf greatest text' = numberingOf greatest text := by
    rw [numberingOf, numberingOf, hmark]
  have hclosed : (∃ q, Quotations.ofText text' = .ok q) ↔
      ∃ q, Quotations.ofText text = .ok q := by
    rw [Quotations.exists_ofText_eq_ok_iff, Quotations.exists_ofText_eq_ok_iff, hopen]
  unfold ofText
  rw [hblank, hblank', hgreatest]
  cases greatestIndex text with
  | error e => exact Or.inl ⟨e, e, rfl, rfl, Or.inl rfl⟩
  | ok greatest =>
    cases hq : Quotations.ofText text with
    | ok quotations =>
      obtain ⟨quotations', hq'⟩ := hclosed.2 ⟨_, hq⟩
      rw [hq']
      exact Or.inr ⟨_, _, rfl, rfl, hnumbering greatest, rfl⟩
    | error start =>
      cases hq' : Quotations.ofText text' with
      | ok quotations' =>
        obtain ⟨quotations, hq''⟩ := hclosed.1 ⟨_, hq'⟩
        rw [hq] at hq''
        cases hq''
      | error start' => exact Or.inl ⟨_, _, rfl, rfl, Or.inr ⟨_, _, _, _, rfl, rfl⟩⟩

end QueryParams
