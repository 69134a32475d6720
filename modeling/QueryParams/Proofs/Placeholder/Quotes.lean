import QueryParams.Proofs.Placeholder.Scan
import QueryParams.Proofs.Quotation.Stretch

/-!
# Quotes and placeholders

A quote is no part of a placeholder, unless it belongs to the source of an expression. So the signs
in front of a body lie in the same literal as the body itself, or outside of every literal as it
does, and a placeholder with a literal index or name lies there as a whole.

Main statements: `Placeholder.isQuoted_eq_start_of_le_bodyStart` and
`Placeholder.isQuoted_eq_start_of_literal`.
-/

namespace QueryParams

open Quotations

theorem Quotations.openAfter_of_forall_not_isQuote {cs : List Char}
    (h : ∀ c ∈ cs, isQuote c = false) (quote? : Option Char) : openAfter quote? cs = quote? := by
  induction cs with
  | nil => rfl
  | cons c cs ih =>
    rw [openAfter_cons, advance_of_not_isQuote (h c List.mem_cons_self)]
    exact ih fun d hd => h d (List.mem_cons_of_mem _ hd)

theorem isQuote_eq_false_of_isNameChar {c : Char} (h : isNameChar c = true) :
    isQuote c = false := by
  have hdouble : c ≠ '"' := ne_of_isNameChar h (by decide)
  have hsingle : c ≠ '\'' := ne_of_isNameChar h (by decide)
  simp [isQuote, hdouble, hsingle]

theorem Sign.isQuote_char (s : Sign) : isQuote s.char = false := by cases s <;> decide

theorem Body.isQuote_eq_false_of_mem_text {b : Body} (hb : b.WellFormed)
    (hliteral : b.expression? = none) {c : Char} (hc : c ∈ b.text) : isQuote c = false := by
  cases b with
  | index digits =>
    rcases List.mem_cons.1 hc with rfl | hc
    · decide
    · exact isQuote_eq_false_of_isNameChar (isNameChar_of_isDigit (hb.2 c hc))
  | name identifier =>
    rcases List.mem_cons.1 hc with rfl | hc
    · decide
    · exact isQuote_eq_false_of_isNameChar (hb.2 c hc)
  | expression sign source => cases hliteral

theorem Occurrence.start_lt_stop (o : Occurrence) : o.span.start < o.span.stop := by
  have hpos := Text.width_pos_of_ne_nil o.placeholder.text_ne_nil
  rw [span, Span.start_ofText, Span.stop_ofText]
  omega

namespace Placeholder

variable {p : Placeholder} {c : Char}

theorem isQuote_eq_false_of_mem_lead (hk : ∀ k ∈ p.keyword, k.WellFormed) (hc : c ∈ p.lead) :
    isQuote c = false := by
  rw [Bool.eq_false_iff]
  intro hquote
  have hcases : c = '"' ∨ c = '\'' := by simpa [isQuote] using hquote
  have hclass := mem_lead hk hc
  rcases hcases with rfl | rfl <;> exact absurd hclass (by decide)

theorem isQuote_eq_false_of_mem_trail (hc : c ∈ p.trail) : isQuote c = false := by
  rcases mem_trail hc with rfl | rfl <;> decide

theorem isQuote_eq_false_of_mem_text (hk : ∀ k ∈ p.keyword, k.WellFormed)
    (hb : p.body.WellFormed) (hliteral : p.body.expression? = none) (hc : c ∈ p.text) :
    isQuote c = false := by
  rw [text_eq, List.append_assoc] at hc
  rcases List.mem_append.1 hc with hc | hc
  · exact isQuote_eq_false_of_mem_lead hk hc
  · rcases List.mem_append.1 hc with hc | hc
    · exact Body.isQuote_eq_false_of_mem_text hb hliteral hc
    · exact isQuote_eq_false_of_mem_trail hc

theorem exists_text_eq_cons (hk : ∀ k ∈ p.keyword, k.WellFormed) :
    ∃ c cs, p.text = c :: cs ∧ isQuote c = false := by
  rw [text_eq, List.append_assoc]
  cases hlead : p.lead with
  | nil =>
    rw [p.body.text_eq_sign_cons]
    exact ⟨_, _, rfl, p.body.sign.isQuote_char⟩
  | cons c cs =>
    refine ⟨c, _, rfl, isQuote_eq_false_of_mem_lead hk ?_⟩
    rw [hlead]
    exact List.mem_cons_self

/-! ## Occurrences in a quoted text -/

variable {quotations : Quotations} {text : List Char} {o : Occurrence} {offset : Nat} {range : Span}

/-- From its beginning to the first byte of its body, an occurrence is quoted or not as a whole. -/
theorem isQuoted_eq_start_of_le_bodyStart (h : Quotations.ofText text = .ok quotations)
    (ho : o ∈ occurrences text) (hstart : o.start ≤ offset) (hbody : offset ≤ o.bodyStart) :
    quotations.isQuoted offset = quotations.isQuoted o.start := by
  obtain ⟨earlier, later, htext, hearlier, hfits, -⟩ := standsAt_of_mem_occurrences ho
  have hk : ∀ k ∈ o.placeholder.keyword, k.WellFormed := hfits.wellFormed_keyword
  have hsign : o.placeholder.body.sign.char.utf8Size = 1 := by
    cases o.placeholder.body.sign <;> decide
  have hsplit : text = earlier ++ (o.placeholder.lead ++ [o.placeholder.body.sign.char]) ++
      (o.placeholder.body.text.tail ++ o.placeholder.trail ++ later) := by
    rw [htext, text_eq]
    nth_rewrite 1 [o.placeholder.body.text_eq_sign_cons]
    simp
  have hwidth : Text.width (earlier ++ (o.placeholder.lead ++ [o.placeholder.body.sign.char])) =
      o.bodyStart + 1 := by
    simp [Occurrence.bodyStart, hearlier, hsign, Nat.add_assoc]
  rw [hsplit] at h
  refine isQuoted_eq_of_forall_not_isQuote h ?_ ⟨by omega, by omega⟩ ⟨by omega, by omega⟩
  intro c hc
  rcases List.mem_append.1 hc with hc | hc
  · exact isQuote_eq_false_of_mem_lead hk hc
  · rw [List.mem_singleton.1 hc]
    exact o.placeholder.body.sign.isQuote_char

theorem isQuoted_bodyStart (h : Quotations.ofText text = .ok quotations)
    (ho : o ∈ occurrences text) : quotations.isQuoted o.bodyStart = quotations.isQuoted o.start :=
  isQuoted_eq_start_of_le_bodyStart h ho (Nat.le_add_right _ _) (Nat.le_refl _)

theorem exists_stretch_of_literal (ho : o ∈ occurrences text)
    (hliteral : o.placeholder.body.expression? = none) :
    ∃ earlier later, text = earlier ++ o.placeholder.text ++ later ∧
      o.span.start = Text.width earlier ∧
      o.span.stop = Text.width (earlier ++ o.placeholder.text) ∧
      ∀ c ∈ o.placeholder.text, isQuote c = false := by
  obtain ⟨earlier, later, htext, hearlier, hfits, -⟩ := standsAt_of_mem_occurrences ho
  refine ⟨earlier, later, htext, hearlier, ?_, ?_⟩
  · rw [Occurrence.span, Span.stop_ofText, Text.width_append, hearlier]
  · intro c hc
    exact isQuote_eq_false_of_mem_text hfits.wellFormed_keyword hfits.body hliteral hc

theorem isQuoted_eq_start_of_literal (h : Quotations.ofText text = .ok quotations)
    (ho : o ∈ occurrences text) (hliteral : o.placeholder.body.expression? = none)
    (hoffset : o.span.contains offset = true) :
    quotations.isQuoted offset = quotations.isQuoted o.start := by
  obtain ⟨earlier, later, htext, hstart, hstop, hstretch⟩ := exists_stretch_of_literal ho hliteral
  have hpos := o.start_lt_stop
  have hfirst : o.span.start = o.start := rfl
  rw [Span.contains_iff] at hoffset
  rw [htext] at h
  exact isQuoted_eq_of_forall_not_isQuote h hstretch ⟨by omega, by omega⟩ ⟨by omega, by omega⟩

/-- An occurrence with a literal index or name that begins outside of every literal lies apart from
all of them. -/
theorem apart_of_literal (h : Quotations.ofText text = .ok quotations) (ho : o ∈ occurrences text)
    (hliteral : o.placeholder.body.expression? = none)
    (hunquoted : quotations.isQuoted o.start = false) (hrange : range ∈ quotations.ranges) :
    o.span.stop ≤ range.start ∨ range.stop ≤ o.span.start := by
  obtain ⟨earlier, later, htext, hstart, hstop, hstretch⟩ := exists_stretch_of_literal ho hliteral
  rw [htext] at h
  rcases (isLiteral_of_mem_ranges h hrange).apart_or_covers hstretch with
    hbefore | hbehind | ⟨hfrom, hto⟩
  · exact Or.inr (by omega)
  · exact Or.inl (by omega)
  · have hpos := o.start_lt_stop
    have hcontains : range.contains o.span.start = true := by
      rw [Span.contains_iff]
      omega
    have hquoted : quotations.isQuoted o.start = true := isQuoted_iff.2 ⟨range, hrange, hcontains⟩
    rw [hunquoted] at hquoted
    cases hquoted

end Placeholder

end QueryParams
