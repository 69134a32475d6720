import QueryParams.Proofs.Canonical.Division
import QueryParams.Proofs.Extraction.Parameters
import QueryParams.Proofs.Quotation

/-!
# The survey of a text without decorations

A `%` is neither a quote nor part of an index, so leaving some of them out changes neither the
literals nor the indices of a text, unless digits come together that were apart.

Main statement: `Piece.Stripped.exists_survey`.
-/

namespace QueryParams

/-- The second text is the first one with some `%` left out, none of them in front of a digit. -/
inductive Text.Thinned : List Char → List Char → Prop where
  | nil : Thinned [] []
  | same (c : Char) {cs cs' : List Char} (h : Thinned cs cs') : Thinned (c :: cs) (c :: cs')
  | percent {cs cs' : List Char} (h : Thinned cs cs')
    (hdigit : ∀ c ∈ cs'.head?, c.isDigit = false) : Thinned ('%' :: cs) cs'

namespace Text.Thinned

variable {cs cs' : List Char}

theorem append_left (h : Thinned cs cs') (as : List Char) : Thinned (as ++ cs) (as ++ cs') := by
  induction as with
  | nil => exact h
  | cons a as ih => exact ih.same a

theorem optional_percent {present : Bool} (h : Thinned cs cs')
    (hdigit : present = true → ∀ c ∈ cs'.head?, c.isDigit = false) :
    Thinned (optional present '%' ++ cs) cs' := by
  cases present with
  | true => exact h.percent (hdigit rfl)
  | false => exact h

theorem takeWhile_isDigit (h : Thinned cs cs') :
    cs'.takeWhile Char.isDigit = cs.takeWhile Char.isDigit := by
  induction h with
  | nil => rfl
  | same c _ ih => rw [List.takeWhile_cons, List.takeWhile_cons, ih]
  | @percent cs cs' _ hdigit _ =>
    have hpercent : Char.isDigit '%' = false := by decide
    rw [List.takeWhile_cons_of_neg (by simp [hpercent])]
    cases cs' with
    | nil => rfl
    | cons c cs' =>
      have hc := hdigit c rfl
      rw [List.takeWhile_cons_of_neg (by simp [hc])]

theorem indexRuns_eq (h : Thinned cs cs') : indexRuns cs' = indexRuns cs := by
  induction h with
  | nil => rfl
  | same c h ih => rw [indexRuns, indexRuns, ih, h.takeWhile_isDigit]
  | percent _ _ ih =>
    rw [ih, indexRuns]
    rfl

theorem openAfter_eq (h : Thinned cs cs') (quote? : Option Char) :
    Quotations.openAfter quote? cs' = Quotations.openAfter quote? cs := by
  induction h generalizing quote? with
  | nil => rfl
  | same c _ ih => rw [Quotations.openAfter_cons, Quotations.openAfter_cons, ih]
  | percent _ _ ih =>
    have hpercent : Quotations.isQuote '%' = false := by decide
    rw [ih, Quotations.openAfter_cons, Quotations.advance_of_not_isQuote hpercent]

end Text.Thinned

theorem Placeholder.thinned_bare {p : Placeholder} {rest rest' : List Char}
    (hapart : p.trailing = true → SetsApart (p.back ++ rest')) (h : Text.Thinned rest rest') :
    Text.Thinned (p.text ++ rest) (p.bare.text ++ rest') := by
  have hback := h.append_left p.back
  have htrailing : Text.Thinned (Text.optional p.trailing '%' ++ (p.back ++ rest))
      (p.back ++ rest') := by
    apply hback.optional_percent
    intro htrue c hc
    exact isDigit_eq_false_of_isNameChar_eq_false (hapart htrue c hc).2
  have hleading : Text.Thinned (Text.optional p.leading '%' ++ (p.body.text ++
      (Text.optional p.trailing '%' ++ (p.back ++ rest)))) (p.body.text ++ (p.back ++ rest')) := by
    apply (htrailing.append_left p.body.text).optional_percent
    intro _ c hc
    rw [p.body.text_eq_sign_cons, List.cons_append, List.head?_cons] at hc
    cases hc
    cases p.body.sign <;> decide
  have hall := hleading.append_left p.front
  rw [text_bare, text_eq_front]
  simpa only [List.append_assoc] using hall

namespace Piece.Stripped

variable {ps ps' : List Piece}

theorem thinned (h : Stripped ps ps') : Text.Thinned (ps.flatMap text) (ps'.flatMap text) := by
  induction h with
  | nil => exact Text.Thinned.nil
  | same piece _ ih => exact ih.append_left piece.text
  | @bare p ps ps' _ _ hapart h ih =>
    apply Placeholder.thinned_bare _ ih
    intro htrailing c hc
    rw [Placeholder.head?_append_congr _ h.head?_flatMap_text] at hc
    exact hapart htrailing c hc

theorem isBlankText_eq_false (h : Stripped ps ps')
    (hblank : Text.isBlankText (ps.flatMap text) = false) :
    Text.isBlankText (ps'.flatMap text) = false := by
  induction h with
  | nil => exact hblank
  | same piece _ ih =>
    unfold Text.isBlankText at *
    rw [List.flatMap_cons, List.all_append, Bool.and_eq_false_iff] at *
    rcases hblank with hblank | hblank
    · exact Or.inl hblank
    · exact Or.inr (ih hblank)
  | bare p _ _ _ _ =>
    have hsign : Text.isBlank p.body.sign.char = false := by cases p.body.sign <;> decide
    rw [Text.isBlankText, List.flatMap_cons, text, Placeholder.text_bare,
      p.body.text_eq_sign_cons]
    simp [hsign]

/-- A text that has been surveyed can be surveyed without the decorations. -/
theorem exists_survey (h : Stripped ps ps') {survey : Survey}
    (hsurvey : Survey.ofText (ps.flatMap text) = .ok survey) :
    ∃ survey', Survey.ofText (ps'.flatMap text) = .ok survey' := by
  obtain ⟨hblank, hquotations, greatest, hgreatest, -, -⟩ := Survey.ofText_eq_ok_iff.1 hsurvey
  have hclosed := Quotations.exists_ofText_eq_ok_iff.1 ⟨_, hquotations⟩
  obtain ⟨quotations, hquotations'⟩ :=
    Quotations.exists_ofText_eq_ok_iff.2 ((h.thinned.openAfter_eq none).trans hclosed)
  have hgreatest' : greatestIndex (ps'.flatMap text) = .ok greatest := by
    rw [greatestIndex, h.thinned.indexRuns_eq]
    exact hgreatest
  exact ⟨⟨_, _, quotations⟩, Survey.ofText_eq_ok_iff.2
    ⟨h.isBlankText_eq_false hblank, hquotations', greatest, hgreatest', rfl, rfl⟩⟩

end Piece.Stripped

end QueryParams
