import QueryParams.Proofs.Text.Offset
import QueryParams.Proofs.Text.Run
import QueryParams.Quotation

/-!
# Quotes from left to right

The literals of a text, seen by a reader who goes through the text and only keeps in mind which
quote is open. The text is well quoted if none is open at its end, and a place lies inside a literal
if one is open in front of it.

Main statements: `Quotations.exists_ofText_eq_ok_iff`, `Quotations.isQuoted_width_iff` and
`Quotations.ofText_eq_error_iff`.
-/

namespace QueryParams.Quotations

def advance (quote? : Option Char) (c : Char) : Option Char :=
  if isQuote c then
    match quote? with
    | none => some c
    | some quote => if c = quote then none else some quote
  else quote?

/-- The quote that is open behind a text. -/
def openAfter (quote? : Option Char) (cs : List Char) : Option Char := cs.foldl advance quote?

@[simp] theorem openAfter_nil (quote? : Option Char) : openAfter quote? [] = quote? := rfl

theorem openAfter_cons (quote? : Option Char) (c : Char) (cs : List Char) :
    openAfter quote? (c :: cs) = openAfter (advance quote? c) cs := rfl

theorem openAfter_append (quote? : Option Char) (as bs : List Char) :
    openAfter quote? (as ++ bs) = openAfter (openAfter quote? as) bs :=
  List.foldl_append

theorem advance_of_not_isQuote {c : Char} (h : isQuote c = false) (quote? : Option Char) :
    advance quote? c = quote? := by
  simp [advance, h]

theorem advance_none {quote : Char} (h : isQuote quote = true) :
    advance none quote = some quote := by
  simp [advance, h]

theorem advance_self {quote : Char} (h : isQuote quote = true) :
    advance (some quote) quote = none := by
  simp [advance, h]

theorem openAfter_of_not_mem {quote : Char} {cs : List Char} (h : ∀ c ∈ cs, c ≠ quote) :
    openAfter (some quote) cs = some quote := by
  induction cs with
  | nil => rfl
  | cons c cs ih =>
    have hc : advance (some quote) c = some quote := by
      simp [advance, h c (by simp)]
    rw [openAfter_cons, hc]
    apply ih
    intro d hd
    exact h d (by simp [hd])

theorem eq_literal_append_of_dropWhile {quote closing : Char} {cs behind : List Char}
    (h : cs.dropWhile (· != quote) = closing :: behind) :
    quote :: cs = literal quote cs ++ behind ∧ ∀ c ∈ cs.takeWhile (· != quote), c ≠ quote := by
  obtain ⟨hsplit, hinside, hclosing⟩ := Text.takeWhile_eq_and_dropWhile_eq_iff.1 ⟨rfl, h⟩
  have hsame : closing = quote := by simpa using hclosing closing rfl
  constructor
  · rw [hsame] at hsplit
    rw [literal, List.append_assoc, List.singleton_append, List.cons_append, ← hsplit]
  · intro c hc
    simpa using hinside c hc

theorem openAfter_literal {quote : Char} {cs : List Char} (hquote : isQuote quote = true)
    (hinside : ∀ c ∈ cs.takeWhile (· != quote), c ≠ quote) :
    openAfter none (literal quote cs) = none := by
  rw [literal, List.cons_append, openAfter_cons, advance_none hquote, openAfter_append,
    openAfter_of_not_mem hinside, openAfter_cons, advance_self hquote, openAfter_nil]

theorem exists_rangesFrom_eq_ok_iff {offset : Nat} {cs : List Char} :
    (∃ ranges, rangesFrom offset cs = .ok ranges) ↔ openAfter none cs = none := by
  fun_induction rangesFrom offset cs with
  | case1 => simp
  | case2 offset c cs hquote hdrop =>
    obtain ⟨hrun, hall, -⟩ := Text.takeWhile_eq_and_dropWhile_eq_iff.1 ⟨rfl, hdrop⟩
    have hinside : ∀ d ∈ cs, d ≠ c := by
      intro d hd
      rw [hrun, List.append_nil] at hd
      simpa using hall d hd
    simp [openAfter_cons, advance_none hquote, openAfter_of_not_mem hinside]
  | case3 offset c cs hquote closing behind hdrop ih =>
    obtain ⟨hsplit, hinside⟩ := eq_literal_append_of_dropWhile hdrop
    rw [hsplit, openAfter_append, openAfter_literal hquote hinside, ← ih]
    cases rangesFrom (offset + Text.width (literal c cs)) behind <;> simp [Except.map]
  | case4 offset c cs hquote ih =>
    have hinert : advance none c = none := by
      simpa using advance_of_not_isQuote (by simpa using hquote) none
    rw [openAfter_cons, hinert, ih]

/-- The quotes of a text pair up exactly if none is open at the end. -/
theorem exists_ofText_eq_ok_iff {text : List Char} :
    (∃ q, ofText text = .ok q) ↔ openAfter none text = none := by
  rw [← @exists_rangesFrom_eq_ok_iff 0]
  unfold ofText
  constructor
  · intro h
    obtain ⟨q, hq⟩ := h
    split at hq
    · rename_i ranges hranges
      exact ⟨ranges, hranges⟩
    · cases hq
  · intro h
    obtain ⟨ranges, hranges⟩ := h
    split
    · exact ⟨_, rfl⟩
    · rename_i start herror
      rw [hranges] at herror
      cases herror

theorem openAfter_of_literal_eq_cons {quote first c : Char} {cs before between : List Char}
    (hquote : isQuote quote = true) (hinside : ∀ c ∈ cs.takeWhile (· != quote), c ≠ quote)
    (h : literal quote cs = first :: before ++ c :: between) :
    openAfter none (first :: before) = some quote := by
  rw [literal, List.cons_append, List.cons_append] at h
  obtain ⟨hfirst, htail⟩ := List.cons.inj h
  subst hfirst
  have hrun : ∃ rest, cs.takeWhile (· != quote) = before ++ rest := by
    rcases List.append_eq_append_iff.1 htail with ⟨rest, hbefore, hlast⟩ | ⟨rest, hrun, -⟩
    · cases rest with
      | nil => exact ⟨[], by simpa using hbefore.symm⟩
      | cons => simp at hlast
    · exact ⟨rest, hrun⟩
  obtain ⟨rest, hrun⟩ := hrun
  rw [openAfter_cons, advance_none hquote]
  apply openAfter_of_not_mem
  intro d hd
  apply hinside
  rw [hrun]
  exact List.mem_append_left _ hd

theorem openAfter_of_literal_eq {quote c : Char} {cs before between : List Char}
    (hquote : isQuote quote = true) (hinside : ∀ c ∈ cs.takeWhile (· != quote), c ≠ quote)
    (hc : isQuote c = false) (h : literal quote cs = before ++ c :: between) :
    openAfter none before = some quote := by
  cases before with
  | nil =>
    cases h
    rw [hquote] at hc
    cases hc
  | cons first before => exact openAfter_of_literal_eq_cons hquote hinside h

theorem literal_cases {quote c : Char} {cs before behind later : List Char}
    (h : before ++ c :: behind = literal quote cs ++ later) :
    (∃ between, literal quote cs = before ++ c :: between) ∨
      ∃ beyond, before = literal quote cs ++ beyond ∧ later = beyond ++ c :: behind := by
  rcases List.append_eq_append_iff.1 h with ⟨between, hliteral, hrest⟩ | ⟨beyond, hbefore, hrest⟩
  · cases between with
    | nil => exact Or.inr ⟨[], by simpa using hliteral.symm, by simpa using hrest.symm⟩
    | cons d between =>
      obtain ⟨hd, -⟩ := List.cons.inj hrest
      exact Or.inl ⟨between, by rw [hliteral, hd]⟩
  · exact Or.inr ⟨beyond, hbefore, hrest⟩

theorem exists_contains_iff {offset : Nat} {before behind : List Char} {c : Char}
    {ranges : List Span} (h : rangesFrom offset (before ++ c :: behind) = .ok ranges)
    (hc : isQuote c = false) :
    (∃ range ∈ ranges, range.contains (offset + Text.width before) = true) ↔
      openAfter none before ≠ none := by
  generalize htext : before ++ c :: behind = text at h
  fun_induction rangesFrom offset text generalizing before ranges with
  | case1 => simp at htext
  | case2 => cases h
  | case3 offset quote cs hquote closing later hdrop ih =>
    obtain ⟨hsplit, hinside⟩ := eq_literal_append_of_dropWhile hdrop
    cases hlater : rangesFrom (offset + Text.width (literal quote cs)) later with
    | error start => simp [hlater, Except.map] at h
    | ok laterRanges =>
      simp only [hlater, Except.map, Except.ok.injEq] at h
      subst h
      rw [hsplit] at htext
      simp only [List.mem_cons, exists_eq_or_imp]
      -- the character is in the first literal, or it is behind it, where nothing is open
      rcases literal_cases htext with ⟨between, hliteral⟩ | ⟨beyond, rfl, hrest⟩
      · rw [openAfter_of_literal_eq hquote hinside hc hliteral,
          Span.contains_ofText_of_eq hliteral]
        simp
      · have hopen : openAfter none (literal quote cs ++ beyond) = openAfter none beyond := by
          rw [openAfter_append, openAfter_literal hquote hinside]
        rw [Span.contains_ofText_append, hopen, Text.width_append, ← Nat.add_assoc,
          ← ih hrest.symm hlater]
        simp
  | case4 offset d cs hquote ih =>
    have hinert : advance none d = none := by
      simpa using advance_of_not_isQuote (by simpa using hquote) none
    have hsize := d.utf8Size_pos
    cases before with
    | nil =>
      simp only [Text.width_nil, Nat.add_zero, openAfter_nil, ne_eq, not_true_eq_false, iff_false]
      intro hcontains
      obtain ⟨range, hrange, hcontains⟩ := hcontains
      have hstart := (ascending_of_rangesFrom h).1 range hrange
      rw [Span.contains_iff] at hcontains
      omega
    | cons d' before =>
      cases htext
      rw [Text.width_cons, ← Nat.add_assoc, openAfter_cons, hinert]
      exact ih rfl h

/-- The beginning of a character that is no quote lies in a literal exactly if a quote is open in
front of it. -/
theorem isQuoted_width_iff {q : Quotations} {before behind : List Char} {c : Char}
    (h : ofText (before ++ c :: behind) = .ok q) (hc : isQuote c = false) :
    q.isQuoted (Text.width before) = true ↔ openAfter none before ≠ none := by
  unfold ofText at h
  split at h
  · rename_i ranges hranges
    cases h
    have hcontains := exists_contains_iff hranges hc
    rw [Nat.zero_add] at hcontains
    rw [isQuoted_iff, hcontains]
  · cases h

/-! ## The quote that is never closed -/

def UnclosedAt (text : List Char) (start : Nat) : Prop :=
  ∃ before quote behind, text = before ++ quote :: behind ∧ start = Text.width before ∧
    isQuote quote = true ∧ openAfter none before = none ∧ quote ∉ behind

theorem unclosedAt_of_dropWhile_eq_nil {quote : Char} {cs : List Char} {start : Nat}
    (hquote : isQuote quote = true) (h : cs.dropWhile (· != quote) = []) :
    UnclosedAt (quote :: cs) start ↔ start = 0 := by
  obtain ⟨hrun, hall, -⟩ := Text.takeWhile_eq_and_dropWhile_eq_iff.1 ⟨rfl, h⟩
  have hinside : ∀ d ∈ cs, d ≠ quote := by
    intro d hd
    rw [hrun, List.append_nil] at hd
    simpa using hall d hd
  constructor
  · intro h
    obtain ⟨before, other, behind, htext, rfl, -, hopen, -⟩ := h
    cases before with
    | nil => rfl
    | cons first before =>
      cases htext
      rw [openAfter_cons, advance_none hquote,
        openAfter_of_not_mem fun d hd => hinside d (by simp [hd])] at hopen
      cases hopen
  · rintro rfl
    exact ⟨[], quote, cs, rfl, rfl, hquote, rfl, fun hmem => hinside quote hmem rfl⟩

theorem unclosedAt_literal_append_iff {quote : Char} {cs later : List Char} {start : Nat}
    (hquote : isQuote quote = true) (hinside : ∀ c ∈ cs.takeWhile (· != quote), c ≠ quote) :
    UnclosedAt (literal quote cs ++ later) start ↔
      ∃ rest, start = Text.width (literal quote cs) + rest ∧ UnclosedAt later rest := by
  constructor
  · intro h
    obtain ⟨before, other, behind, htext, rfl, hother, hopen, hbehind⟩ := h
    rcases literal_cases htext.symm with ⟨between, hliteral⟩ | ⟨beyond, rfl, hlater⟩
    · cases before with
      | nil =>
        obtain ⟨rfl, hrest⟩ := List.cons.inj htext
        exact absurd (by rw [← hrest]; simp) hbehind
      | cons first before =>
        rw [openAfter_of_literal_eq_cons hquote hinside hliteral] at hopen
        cases hopen
    · rw [openAfter_append, openAfter_literal hquote hinside] at hopen
      exact ⟨_, Text.width_append .., beyond, other, behind, hlater, rfl, hother, hopen, hbehind⟩
  · intro h
    obtain ⟨-, rfl, before, other, behind, rfl, rfl, hother, hopen, hbehind⟩ := h
    refine ⟨literal quote cs ++ before, other, behind, ?_, (Text.width_append ..).symm, hother, ?_,
      hbehind⟩
    · rw [List.append_assoc]
    · rw [openAfter_append, openAfter_literal hquote hinside, hopen]

theorem unclosedAt_cons_iff {c : Char} {cs : List Char} {start : Nat} (hc : isQuote c = false) :
    UnclosedAt (c :: cs) start ↔ ∃ rest, start = c.utf8Size + rest ∧ UnclosedAt cs rest := by
  have hinert := advance_of_not_isQuote hc none
  constructor
  · intro h
    obtain ⟨before, quote, behind, htext, rfl, hquote, hopen, hbehind⟩ := h
    cases before with
    | nil =>
      cases htext
      rw [hquote] at hc
      cases hc
    | cons first before =>
      cases htext
      rw [openAfter_cons, hinert] at hopen
      exact ⟨_, rfl, before, quote, behind, rfl, rfl, hquote, hopen, hbehind⟩
  · intro h
    obtain ⟨-, rfl, before, quote, behind, rfl, rfl, hquote, hopen, hbehind⟩ := h
    exact ⟨c :: before, quote, behind, rfl, rfl, hquote, by rw [openAfter_cons, hinert, hopen],
      hbehind⟩

theorem exists_offset_add_iff {P : Nat → Prop} {offset width start : Nat} :
    (∃ rest, start = offset + width + rest ∧ P rest) ↔
      ∃ behind, start = offset + behind ∧ ∃ rest, behind = width + rest ∧ P rest := by
  constructor
  · intro h
    obtain ⟨rest, rfl, hrest⟩ := h
    exact ⟨_, Nat.add_assoc .., rest, rfl, hrest⟩
  · intro h
    obtain ⟨-, rfl, rest, rfl, hrest⟩ := h
    exact ⟨rest, (Nat.add_assoc ..).symm, hrest⟩

theorem rangesFrom_eq_error_iff {offset start : Nat} {cs : List Char} :
    rangesFrom offset cs = .error start ↔
      ∃ behind, start = offset + behind ∧ UnclosedAt cs behind := by
  fun_induction rangesFrom offset cs generalizing start with
  | case1 => simp [UnclosedAt]
  | case2 offset c cs hquote hdrop =>
    simp [unclosedAt_of_dropWhile_eq_nil hquote hdrop, eq_comm]
  | case3 offset c cs hquote closing later hdrop ih =>
    obtain ⟨hsplit, hinside⟩ := eq_literal_append_of_dropWhile hdrop
    have hmap : (rangesFrom (offset + Text.width (literal c cs)) later).map
        (Span.ofText offset (literal c cs) :: ·) = .error start ↔
          rangesFrom (offset + Text.width (literal c cs)) later = .error start := by
      cases rangesFrom (offset + Text.width (literal c cs)) later <;> simp [Except.map]
    rw [hsplit, hmap, ih, exists_offset_add_iff]
    simp only [unclosedAt_literal_append_iff hquote hinside]
  | case4 offset c cs hquote ih =>
    rw [ih, exists_offset_add_iff]
    simp only [unclosedAt_cons_iff (by simpa using hquote)]

/-- The offset that is reported is the one of the quote that is never closed. -/
theorem ofText_eq_error_iff {text : List Char} {start : Nat} :
    ofText text = .error start ↔ UnclosedAt text start := by
  have hranges := @rangesFrom_eq_error_iff 0 start text
  simp only [Nat.zero_add, exists_eq_left'] at hranges
  unfold ofText
  split
  · rename_i ranges hok
    rw [hok] at hranges
    simpa using hranges
  · rename_i start' herror
    rw [herror] at hranges
    simpa using hranges

end QueryParams.Quotations
