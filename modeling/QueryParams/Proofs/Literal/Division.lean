import QueryParams.Proofs.Extraction.Stream

/-!
# The division of a text at a quote

No placeholder but an expression holds a quote. So where no expression can open in front of a quote,
the text is divided on both sides of it on its own, and the quote is a piece of its own.

Main statement: `Piece.split_append_quote`.
-/

namespace QueryParams

open Quotations

def Text.expressionMark : List Char := ['#', '{']

variable {quote : Char}

theorem ne_of_isQuote {c : Char} (h : isQuote quote = true) (hc : isQuote c = false) :
    quote ≠ c := by
  intro heq
  rw [heq, hc] at h
  cases h

theorem isNameChar_eq_false_of_isQuote (h : isQuote quote = true) : isNameChar quote = false := by
  rw [Bool.eq_false_iff]
  intro hname
  rw [isQuote_eq_false_of_isNameChar hname] at h
  cases h

theorem Body.endsAt_append_quote (hquote : isQuote quote = true) (b : Body)
    (before behind : List Char) : b.EndsAt (before ++ quote :: behind) ↔ b.EndsAt before := by
  cases before with
  | cons c before => exact b.endsAt_congr (by simp)
  | nil =>
    refine iff_of_true (Body.endsAt_of_forall_head? ?_ b) (Body.endsAt_of_forall_head? ?_ b)
    · simp [isNameChar_eq_false_of_isQuote hquote]
    · simp

theorem Text.head?_append_quote_ne {c : Char} (hne : quote ≠ c) (before behind : List Char) :
    (before ++ quote :: behind).head? ≠ some c ↔ before.head? ≠ some c := by
  cases before with
  | nil => simp [hne]
  | cons d before => exact Iff.rfl

namespace Placeholder

variable {before : Option Char} {p : Placeholder} {cs rest behind : List Char}

/-- A placeholder fits in front of a quote just as in front of the end of a text. -/
theorem fits_append_quote_iff (hquote : isQuote quote = true) :
    p.Fits before (rest ++ quote :: behind) ↔ p.Fits before rest := by
  have hpercent : quote ≠ '%' := ne_of_isQuote hquote (by decide)
  have hparen : quote ≠ ')' := ne_of_isQuote hquote (by decide)
  have hends : p.body.EndsAt (Text.optional p.trailing '%' ++ p.back ++ (rest ++ quote :: behind)) ↔
      p.body.EndsAt (Text.optional p.trailing '%' ++ p.back ++ rest) := by
    rw [← List.append_assoc, p.body.endsAt_append_quote hquote]
  have htrailing : (p.back ++ (rest ++ quote :: behind)).head? ≠ some '%' ↔
      (p.back ++ rest).head? ≠ some '%' := by
    rw [← List.append_assoc, Text.head?_append_quote_ne hpercent]
  have hclosed := Text.head?_append_quote_ne hparen rest behind
  constructor
  · intro h
    exact ⟨h.keyword, h.body, hends.1 h.body_ends, fun ht => htrailing.1 (h.trailing ht),
      fun hc => hclosed.1 (h.closed hc)⟩
  · intro h
    exact ⟨h.keyword, h.body, hends.2 h.body_ends, fun ht => htrailing.2 (h.trailing ht),
      fun hc => hclosed.2 (h.closed hc)⟩

theorem literal_of_append_quote_eq (hquote : isQuote quote = true)
    (hopen : ¬Text.expressionMark <:+: cs) (hk : ∀ k ∈ p.keyword, k.WellFormed)
    (h : cs ++ quote :: behind = p.text ++ rest) : p.body.expression? = none := by
  cases hbody : p.body with
  | index digits => rfl
  | name identifier => rfl
  | expression sign source =>
    have hfront : (p.lead ++ sign.char :: Text.expressionMark) ++
        (source ++ ['}'] ++ p.trail ++ rest) = cs ++ quote :: behind := by
      rw [h, text_eq, hbody]
      simp [Body.text, Text.expressionMark]
    have hnot : quote ∉ p.lead ++ sign.char :: Text.expressionMark := by
      intro hmem
      have hinert : isQuote quote = false := by
        rcases List.mem_append.1 hmem with hmem | hmem
        · exact isQuote_eq_false_of_mem_lead hk hmem
        · rcases List.mem_cons.1 hmem with rfl | hmem
          · exact sign.isQuote_char
          · simp only [Text.expressionMark, List.mem_cons, List.not_mem_nil, or_false] at hmem
            rcases hmem with rfl | rfl <;> decide
      rw [hquote] at hinert
      cases hinert
    obtain ⟨between, rfl, -⟩ := Text.exists_append_of_not_mem_front hfront hnot
    exact absurd ⟨p.lead ++ [sign.char], between, by simp⟩ hopen

theorem readUnescaped?_append_quote_eq_some_iff (hquote : isQuote quote = true)
    (hopen : ¬Text.expressionMark <:+: cs) {behind' : List Char} :
    readUnescaped? before (cs ++ quote :: behind) = some (p, behind') ↔
      ∃ rest, behind' = rest ++ quote :: behind ∧ readUnescaped? before cs = some (p, rest) := by
  simp only [readUnescaped?_eq_some_iff]
  constructor
  · intro h
    obtain ⟨htext, hfits, hlive⟩ := h
    have hk : ∀ k ∈ p.keyword, k.WellFormed := hfits.wellFormed_keyword
    have hliteral := literal_of_append_quote_eq hquote hopen hk htext
    have hnot : quote ∉ p.text := by
      intro hmem
      have hinert := isQuote_eq_false_of_mem_text hk hfits.body hliteral hmem
      rw [hquote] at hinert
      cases hinert
    obtain ⟨rest, rfl, rfl⟩ := Text.exists_append_of_not_mem_front htext.symm hnot
    exact ⟨rest, rfl, rfl, (fits_append_quote_iff hquote).1 hfits, hlive⟩
  · intro h
    obtain ⟨rest, rfl, rfl, hfits, hlive⟩ := h
    exact ⟨by rw [List.append_assoc], (fits_append_quote_iff hquote).2 hfits, hlive⟩

theorem readUnescaped?_append_quote_eq_none (hquote : isQuote quote = true)
    (hopen : ¬Text.expressionMark <:+: cs) (h : readUnescaped? before cs = none)
    (behind : List Char) :
    readUnescaped? before (cs ++ quote :: behind) = none := by
  cases hread : readUnescaped? before (cs ++ quote :: behind) with
  | none => rfl
  | some found =>
    obtain ⟨rest, -, hsome⟩ := (readUnescaped?_append_quote_eq_some_iff hquote hopen).1 hread
    rw [h] at hsome
    cases hsome

end Placeholder

open Placeholder

/-- A text is divided on both sides of a quote on its own, if no expression opens in front. -/
theorem Piece.split_append_quote (hquote : isQuote quote = true) {cs : List Char}
    (hopen : ¬Text.expressionMark <:+: cs) (before : Option Char) (behind : List Char) :
    split before (cs ++ quote :: behind) =
      split before cs ++ plain quote :: split (some quote) behind := by
  fun_induction split before cs with
  | case1 before =>
    have hread' := readUnescaped?_append_quote_eq_none hquote hopen (readUnescaped?_nil before)
      behind
    rw [List.nil_append] at hread' ⊢
    rw [split_of_readUnescaped?_eq_none hread', List.nil_append]
  | case2 before c cs p rest hread ih =>
    have hread' := (readUnescaped?_append_quote_eq_some_iff hquote hopen).2
      ⟨rest, @rfl _ (rest ++ quote :: behind), hread⟩
    have hrest : rest <:+: c :: cs := by
      rw [(readUnescaped?_eq_some_iff.1 hread).1]
      exact (List.suffix_append p.text rest).isInfix
    rw [List.cons_append] at hread' ⊢
    rw [split_of_readUnescaped?_eq_some hread', ih fun h => hopen (h.trans hrest), List.cons_append]
  | case3 before c cs hread ih =>
    have hread' := readUnescaped?_append_quote_eq_none hquote hopen hread behind
    have hrest : cs <:+: c :: cs := (List.suffix_cons c cs).isInfix
    rw [List.cons_append] at hread' ⊢
    rw [split_of_readUnescaped?_eq_none hread', ih fun h => hopen (h.trans hrest), List.cons_append]

end QueryParams
