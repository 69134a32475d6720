import QueryParams.Proofs.Extraction.Stream
import QueryParams.Proofs.Placeholder.Division
import QueryParams.Proofs.Placeholder.Surrounding

/-!
# What may stand in front of a query

The text that a count query opens with is divided into single characters. The space that it ends in
is one as well, or it goes to the placeholder that the query begins with. The placeholders behind it
are read as at the beginning of a text.

Main statement: `Piece.split_space`.
-/

namespace QueryParams

open Quotations

/-- Text in front of a query that no placeholder and no literal takes part in, but for the space
that it ends in: it has no sign and no quote, and the space is behind a parenthesis. -/
structure Text.Opening (opening : List Char) : Prop where
  signless : ∀ c ∈ opening, c ≠ ':' ∧ c ≠ '?'
  unquoted : ∀ c ∈ opening, isQuote c = false
  closes : [')', ' '] <:+ opening

instance : DecidablePred Text.Opening := fun opening =>
  decidable_of_iff ((opening.all fun c => c != ':' && c != '?' && !isQuote c) = true ∧
    [')', ' '] <:+ opening) (by
      simp only [List.all_eq_true, Bool.and_eq_true, bne_iff_ne, Bool.not_eq_true']
      constructor
      · intro h
        exact ⟨fun c hc => (h.1 c hc).1, fun c hc => (h.1 c hc).2, h.2⟩
      · intro h
        exact ⟨fun c hc => ⟨h.signless c hc, h.unquoted c hc⟩, h.closes⟩)

theorem Body.liveBehind_space (b : Body) (before : Option Char) :
    b.LiveBehind (before.or (some ' ')) ↔ b.LiveBehind before := by
  cases before with
  | none =>
    exact iff_of_true (b.liveBehind_some (by decide) (by decide))
      (by cases b <;> simp [Body.LiveBehind])
  | some c => exact Iff.rfl

namespace Placeholder

def indented (p : Placeholder) : Placeholder := { p with spaced := true }

variable {before : Option Char} {p : Placeholder} {cs rest : List Char}

/-- Nothing in front of the sign of a placeholder is a closing parenthesis, so no placeholder begins
in front of one, as long as there is no sign between them. -/
theorem readUnescaped?_append_paren {front : List Char} (hfront : ∀ c ∈ front, c ≠ ':' ∧ c ≠ '?')
    (before : Option Char) (cs : List Char) :
    readUnescaped? before (front ++ ')' :: cs) = none := by
  cases hread : readUnescaped? before (front ++ ')' :: cs) with
  | none => rfl
  | some found =>
    obtain ⟨p, rest⟩ := found
    obtain ⟨htext, hfits, -⟩ := readUnescaped?_eq_some_iff.1 hread
    have hk : ∀ k ∈ p.keyword, k.WellFormed := hfits.wellFormed_keyword
    have hlead : ')' ∉ p.lead := fun hmem => absurd (mem_lead hk hmem) (by decide)
    rw [text_eq, p.body.text_eq_sign_cons, List.append_assoc, List.append_assoc] at htext
    obtain ⟨between, rfl, hsign⟩ := Text.exists_append_of_not_mem_front htext.symm hlead
    have hne : p.body.sign.char ≠ ')' := by cases p.body.sign <;> decide
    cases between with
    | nil => exact absurd (List.cons.inj hsign).1 hne
    | cons c between =>
      have hc := hfront c (by simp)
      rw [← (List.cons.inj hsign).1] at hc
      cases hs : p.body.sign <;> simp [hs, Sign.char] at hc

theorem Fits.of_wordMayBegin_eq {before' : Option Char} (h : p.Fits before rest)
    (hword : Text.wordMayBegin before' = Text.wordMayBegin before) : p.Fits before' rest where
  keyword k hk := ⟨(h.keyword k hk).1, hword.trans (h.keyword k hk).2⟩
  body := h.body
  body_ends := h.body_ends
  trailing := h.trailing
  closed := h.closed

theorem readUnescaped?_behind_space (cs : List Char) :
    readUnescaped? (some ' ') cs = readUnescaped? none cs := by
  have hword : Text.wordMayBegin (some ' ') = Text.wordMayBegin none := by decide +kernel
  have hfits (p : Placeholder) (rest : List Char) : p.Fits (some ' ') rest ↔ p.Fits none rest :=
    ⟨fun h => h.of_wordMayBegin_eq hword.symm, fun h => h.of_wordMayBegin_eq hword⟩
  ext ⟨p, rest⟩
  rw [readUnescaped?_eq_some_iff, readUnescaped?_eq_some_iff, hfits, Body.liveBehind_space,
    Option.or_none]

theorem front_indented (hkeyword : p.keyword = none) (hspaced : p.spaced = false) :
    p.indented.front = ' ' :: p.front := by
  simp [indented, front, hkeyword, hspaced, Text.optional]

theorem text_indented (hkeyword : p.keyword = none) (hspaced : p.spaced = false) :
    p.indented.text = ' ' :: p.text := by
  rw [text, front_indented hkeyword hspaced]
  rfl

theorem lead_indented (hkeyword : p.keyword = none) (hspaced : p.spaced = false) :
    p.indented.lead = ' ' :: p.lead := by
  rw [lead, front_indented hkeyword hspaced]
  rfl

theorem eq_indented_of_text_eq (hk : ∀ k ∈ p.keyword, k.WellFormed)
    (h : ' ' :: cs = p.text ++ rest) :
    ∃ p' : Placeholder, p = p'.indented ∧ p'.keyword = none ∧ p'.spaced = false := by
  obtain ⟨keyword, spaced, opened, leading, body, trailing, closed⟩ := p
  cases keyword with
  | some k =>
    obtain ⟨c, word, hword, hc⟩ := Keyword.exists_word_eq_cons (hk k rfl)
    simp only [text, front, Option.elim_some, Keyword.text, hword, List.cons_append,
      List.cons.injEq] at h
    rw [← h.1] at hc
    exact absurd hc (by decide)
  | none =>
    cases spaced with
    | true => exact ⟨⟨none, false, opened, leading, body, trailing, closed⟩, rfl, rfl, rfl⟩
    | false =>
      have hsign : ' ' ≠ body.sign.char := by cases body.sign <;> decide
      rw [text_eq, body.text_eq_sign_cons] at h
      cases opened <;> cases leading <;> simp [lead, front, Text.optional, hsign] at h

/-- A placeholder that begins with a space is one that could begin behind this space as well. -/
theorem readUnescaped?_space_cons_eq_some_iff :
    readUnescaped? before (' ' :: cs) = some (p, rest) ↔
      ∃ p' : Placeholder, p = p'.indented ∧ p'.keyword = none ∧ p'.spaced = false ∧
        readUnescaped? none cs = some (p', rest) := by
  have hspace (lead : List Char) (b : Body) :
      b.LiveBehind ((' ' :: lead).getLast?.or before) ↔ b.LiveBehind (lead.getLast?.or none) := by
    have hlast : (' ' :: lead).getLast?.or before = lead.getLast?.or (some ' ') := by
      cases hlead : lead.getLast? <;> simp [List.getLast?_cons, hlead]
    rw [hlast, Body.liveBehind_space, Option.or_none]
  simp only [readUnescaped?_eq_some_iff]
  constructor
  · intro h
    obtain ⟨htext, hfits, hlive⟩ := h
    obtain ⟨p', rfl, hkeyword, hspaced⟩ :=
      eq_indented_of_text_eq hfits.wellFormed_keyword htext
    rw [text_indented hkeyword hspaced] at htext
    rw [lead_indented hkeyword hspaced, hspace] at hlive
    exact ⟨p', rfl, hkeyword, hspaced, (List.cons.inj htext).2,
      ⟨by simp [hkeyword], hfits.body, hfits.body_ends, hfits.trailing, hfits.closed⟩, hlive⟩
  · intro h
    obtain ⟨p', rfl, hkeyword, hspaced, rfl, hfits, hlive⟩ := h
    rw [text_indented hkeyword hspaced, lead_indented hkeyword hspaced, hspace]
    exact ⟨rfl,
      ⟨by simp [indented, hkeyword], hfits.body, hfits.body_ends, hfits.trailing, hfits.closed⟩,
      hlive⟩

end Placeholder

namespace Piece

open Placeholder

theorem split_append_paren {front : List Char} (hfront : ∀ c ∈ front, c ≠ ':' ∧ c ≠ '?')
    (before : Option Char) (cs : List Char) :
    split before (front ++ ')' :: cs) =
      (front ++ [')']).map plain ++ split (some ')') cs := by
  induction front generalizing before with
  | nil => exact split_of_readUnescaped?_eq_none (readUnescaped?_append_paren hfront before cs)
  | cons c front ih =>
    have hnone := readUnescaped?_append_paren hfront before cs
    rw [List.cons_append] at hnone ⊢
    rw [split_of_readUnescaped?_eq_none hnone, ih (List.forall_mem_cons.1 hfront).2]
    rfl

theorem split_space (before : Option Char) (cs : List Char) :
    split before (' ' :: cs) = plain ' ' :: ofText cs ∨
      ∃ p pieces, p.keyword = none ∧ p.spaced = false ∧ ofText cs = placeholder p :: pieces ∧
        split before (' ' :: cs) = placeholder p.indented :: pieces := by
  cases hread : readUnescaped? before (' ' :: cs) with
  | none =>
    left
    rw [split_of_readUnescaped?_eq_none hread, split_congr (readUnescaped?_behind_space cs), ofText]
  | some found =>
    obtain ⟨p, rest⟩ := found
    obtain ⟨p', rfl, hkeyword, hspaced, hread'⟩ := readUnescaped?_space_cons_eq_some_iff.1 hread
    have hlast : p'.indented.text.getLast? = p'.text.getLast? := by
      rw [text_indented hkeyword hspaced, List.getLast?_cons,
        List.getLast?_eq_some_getLast p'.text_ne_nil, Option.getD_some]
    cases cs with
    | nil => cases (readUnescaped?_nil none).symm.trans hread'
    | cons c cs =>
      refine Or.inr ⟨p', split p'.text.getLast? rest, hkeyword, hspaced,
        split_of_readUnescaped?_eq_some hread', ?_⟩
      rw [split_of_readUnescaped?_eq_some hread, hlast]

end Piece

end QueryParams
