import Mathlib.Data.List.Basic
import QueryParams.Proofs.Quotation
import QueryParams.Proofs.Quotation.Lookup

/-!
# The ranges of the literals

The literals of a text, seen by a reader who goes through the text with the offset and the open
quote in mind and closes a literal at the next quote of its kind. The reader ends inside a literal
exactly if one is never closed. Otherwise the ranges that have been closed are those of the
literals, they ascend without overlap, and every quote of the text lies in exactly one of them.

Main statements: `Quotations.Scan.foldl_next`, `Quotations.isLiteral_of_mem_rangesFrom` and
`Quotations.ofText_ranges`.
-/

namespace QueryParams.Quotations

/-! ## Going through the text -/

/-- What a reader has seen who looks for quotes: the literals that are closed, the quote that is
open with its offset, and the offset of the character that comes next. -/
structure Scan where
  offset : Nat := 0
  closed : List Span := []
  opened : Option (Char × Nat) := none
  opened_le_offset : ∀ found ∈ opened, found.2 ≤ offset := by simp

namespace Scan

def pass (s : Scan) (c : Char) : Scan where
  offset := s.offset + c.utf8Size
  closed := s.closed
  opened := s.opened
  opened_le_offset found hfound := Nat.le_add_right_of_le (s.opened_le_offset found hfound)

/-- Reads a character. A quote opens a literal if none is open, and closes the one that is open if
it was opened by the same quote. -/
def next (s : Scan) (c : Char) : Scan :=
  if isQuote c then
    match h : s.opened with
    | none =>
      { offset := s.offset + c.utf8Size
        closed := s.closed
        opened := some (c, s.offset)
        opened_le_offset := by simp }
    | some (quote, start) =>
      if quote = c then
        { offset := s.offset + c.utf8Size
          closed := s.closed ++ [Span.inclusive start s.offset (s.opened_le_offset _ h)] }
      else s.pass c
  else s.pass c

def ofText (text : List Char) : Scan := text.foldl next {}

variable {s : Scan} {c quote : Char} {cs : List Char} {start : Nat}

theorem next_of_not_isQuote (hc : isQuote c = false) : s.next c = s.pass c := by
  simp [next, hc]

theorem next_of_ne (hopened : s.opened = some (quote, start)) (hc : c ≠ quote) :
    s.next c = s.pass c := by
  unfold next
  split
  · split
    · rename_i hnone
      rw [hnone] at hopened
      cases hopened
    · rename_i quote' start' hsome
      rw [hsome] at hopened
      cases hopened
      rw [if_neg (Ne.symm hc)]
  · rfl

theorem next_of_opened_eq_none (hc : isQuote c = true) (hopened : s.opened = none) :
    (s.next c).offset = s.offset + c.utf8Size ∧ (s.next c).closed = s.closed ∧
      (s.next c).opened = some (c, s.offset) := by
  unfold next
  rw [if_pos hc]
  split
  · exact ⟨rfl, rfl, rfl⟩
  · rename_i hsome
    rw [hsome] at hopened
    cases hopened

theorem next_quote (hquote : isQuote quote = true) (hopened : s.opened = some (quote, start)) :
    (s.next quote).offset = s.offset + quote.utf8Size ∧ (s.next quote).opened = none ∧
      ∃ h : start ≤ s.offset,
        (s.next quote).closed = s.closed ++ [Span.inclusive start s.offset h] := by
  have hle := s.opened_le_offset _ hopened
  unfold next
  rw [if_pos hquote]
  split
  · rename_i hnone
    rw [hnone] at hopened
    cases hopened
  · rename_i quote' start' hsome
    rw [hsome] at hopened
    cases hopened
    rw [if_pos rfl]
    exact ⟨rfl, rfl, hle, rfl⟩

theorem foldl_next_inside (hopened : s.opened = some (quote, start)) (hcs : ∀ c ∈ cs, c ≠ quote) :
    (cs.foldl next s).offset = s.offset + Text.width cs ∧ (cs.foldl next s).closed = s.closed ∧
      (cs.foldl next s).opened = some (quote, start) := by
  induction cs generalizing s with
  | nil => exact ⟨rfl, rfl, hopened⟩
  | cons c cs ih =>
    rw [List.foldl_cons, next_of_ne hopened (hcs c List.mem_cons_self), Text.width_cons,
      ← Nat.add_assoc]
    exact @ih (s.pass c) hopened fun d hd => hcs d (List.mem_cons_of_mem c hd)

theorem utf8Size_of_isQuote (hquote : isQuote quote = true) : quote.utf8Size = 1 := by
  have hcases : quote = '"' ∨ quote = '\'' := by simpa [isQuote] using hquote
  rcases hcases with rfl | rfl <;> decide

theorem foldl_next_literal (hquote : isQuote quote = true)
    (hinside : ∀ c ∈ cs.takeWhile (· != quote), c ≠ quote) (hopened : s.opened = none) :
    ((literal quote cs).foldl next s).offset = s.offset + Text.width (literal quote cs) ∧
      ((literal quote cs).foldl next s).closed =
        s.closed ++ [Span.ofText s.offset (literal quote cs)] ∧
      ((literal quote cs).foldl next s).opened = none := by
  have hsize := utf8Size_of_isQuote hquote
  obtain ⟨hoffset₁, hclosed₁, hopened₁⟩ := next_of_opened_eq_none hquote hopened
  obtain ⟨hoffset₂, hclosed₂, hopened₂⟩ := foldl_next_inside hopened₁ hinside
  obtain ⟨hoffset₃, hopened₃, hle, hclosed₃⟩ := next_quote hquote hopened₂
  have hwidth : Text.width (literal quote cs) =
      1 + Text.width (cs.takeWhile (· != quote)) + 1 := by
    simp [literal, hsize, Nat.add_assoc]
  have hspan : Span.inclusive s.offset _ hle = Span.ofText s.offset (literal quote cs) := by
    simp only [Span.inclusive, Span.ofText, Span.mk.injEq, true_and]
    omega
  rw [literal, List.cons_append, List.foldl_cons, List.foldl_append, List.foldl_cons,
    List.foldl_nil]
  refine ⟨?_, ?_, hopened₃⟩
  · rw [← List.cons_append, ← literal]
    omega
  · rw [hclosed₃, hclosed₂, hclosed₁, hspan]
    rfl

/-- The reader closes the literals that are there, and stops inside the one that is never closed. -/
theorem foldl_next (hopened : s.opened = none) :
    (∀ ranges, rangesFrom s.offset cs = .ok ranges →
      (cs.foldl next s).closed = s.closed ++ ranges ∧ (cs.foldl next s).opened = none) ∧
    ∀ start, rangesFrom s.offset cs = .error start →
      ∃ quote, (cs.foldl next s).opened = some (quote, start) := by
  generalize hoffset : s.offset = offset
  fun_induction rangesFrom offset cs generalizing s with
  | case1 =>
    constructor
    · intro ranges h
      cases h
      exact ⟨(List.append_nil _).symm, hopened⟩
    · intro start h
      cases h
  | case2 offset c cs hquote hdrop =>
    -- the quote is never closed, so the reader is still inside at the end
    obtain ⟨hrun, hall, -⟩ := Text.takeWhile_eq_and_dropWhile_eq_iff.1 ⟨rfl, hdrop⟩
    have hinside : ∀ d ∈ cs, d ≠ c := by
      intro d hd
      rw [hrun, List.append_nil] at hd
      simpa using hall d hd
    obtain ⟨-, -, hfirst⟩ := next_of_opened_eq_none hquote hopened
    constructor
    · intro ranges h
      cases h
    · intro start h
      cases h
      rw [← hoffset]
      exact ⟨c, (foldl_next_inside hfirst hinside).2.2⟩
  | case3 offset c cs hquote closing behind hdrop ih =>
    obtain ⟨hsplit, hinside⟩ := eq_literal_append_of_dropWhile hdrop
    -- behind the closing quote the reader is outside again, as the induction asks for
    obtain ⟨hoffset', hclosed', hopened'⟩ := foldl_next_literal hquote hinside hopened
    rw [hoffset] at hoffset' hclosed'
    obtain ⟨hok, herror⟩ := ih hopened' hoffset'
    rw [hsplit, List.foldl_append]
    cases hlater : rangesFrom (offset + Text.width (literal c cs)) behind with
    | error start =>
      obtain ⟨quote, hstart⟩ := herror start hlater
      constructor
      · intro ranges h
        cases h
      · intro start' h
        cases h
        exact ⟨quote, hstart⟩
    | ok later =>
      obtain ⟨hclosed, hnone⟩ := hok later hlater
      constructor
      · intro ranges h
        cases h
        rw [hclosed, hclosed', List.append_assoc]
        exact ⟨rfl, hnone⟩
      · intro start h
        cases h
  | case4 offset c cs hquote ih =>
    rw [List.foldl_cons, next_of_not_isQuote (by simpa using hquote)]
    exact @ih (s.pass c) hopened (congrArg (· + c.utf8Size) hoffset)

theorem opened_ofText_eq_some_iff {text : List Char} {start : Nat} :
    (∃ quote, (ofText text).opened = some (quote, start)) ↔
      Quotations.ofText text = .error start := by
  obtain ⟨hok, herror⟩ := @foldl_next {} text rfl
  unfold Quotations.ofText
  split
  · rename_i ranges hranges
    rw [ofText, (hok ranges hranges).2]
    simp
  · rename_i start' hstart
    obtain ⟨quote, hquote⟩ := herror start' hstart
    rw [ofText, hquote]
    simp

theorem closed_ofText {text : List Char} {q : Quotations} (h : Quotations.ofText text = .ok q) :
    (ofText text).closed = q.ranges := by
  obtain ⟨hok, -⟩ := @foldl_next {} text rfl
  unfold Quotations.ofText at h
  split at h
  · rename_i ranges hranges
    cases h
    exact (hok ranges hranges).1
  · cases h

end Scan

/-! ## What the ranges cover -/

/-- The span covers a literal of the text: a quote, something without this quote, and the quote
again. -/
def IsLiteral (text : List Char) (range : Span) : Prop :=
  range.start < range.stop ∧ ∃ quote inside, isQuote quote = true ∧ quote ∉ inside ∧
    range.slice? text = some (quote :: inside ++ [quote])

variable {text before behind cs : List Char} {quote : Char} {ranges : List Span} {range : Span}
  {q : Quotations}

theorem isLiteral_ofText (hquote : isQuote quote = true)
    (hinside : ∀ c ∈ cs.takeWhile (· != quote), c ≠ quote) :
    IsLiteral (before ++ literal quote cs ++ behind)
      (Span.ofText (Text.width before) (literal quote cs)) := by
  constructor
  · have hpos : 0 < Text.width (literal quote cs) := Text.width_pos_of_ne_nil (by simp [literal])
    rw [Span.start_ofText, Span.stop_ofText]
    omega
  · exact ⟨quote, cs.takeWhile (· != quote), hquote, fun hmem => hinside quote hmem rfl,
      Span.slice?_ofText ..⟩

theorem isLiteral_of_mem_rangesFrom (h : rangesFrom (Text.width before) cs = .ok ranges)
    (hrange : range ∈ ranges) : IsLiteral (before ++ cs) range := by
  generalize hoffset : Text.width before = offset at h
  fun_induction rangesFrom offset cs generalizing before ranges with
  | case1 =>
    cases h
    cases hrange
  | case2 => cases h
  | case3 offset c cs hquote closing later hdrop ih =>
    obtain ⟨hsplit, hinside⟩ := eq_literal_append_of_dropWhile hdrop
    cases hlater : rangesFrom (offset + Text.width (literal c cs)) later with
    | error start => simp [hlater, Except.map] at h
    | ok laterRanges =>
      simp only [hlater, Except.map, Except.ok.injEq] at h
      subst h
      rw [hsplit, ← List.append_assoc]
      rcases List.mem_cons.1 hrange with rfl | hrange
      · rw [← hoffset]
        exact isLiteral_ofText hquote hinside
      · exact ih hrange (by rw [Text.width_append, hoffset]) hlater
  | case4 offset c cs hquote ih =>
    have hwidth : Text.width (before ++ [c]) = offset + c.utf8Size := by
      rw [Text.width_append, hoffset]
      rfl
    rw [← List.singleton_append, ← List.append_assoc]
    exact ih hrange hwidth h

theorem exists_contains_of_isQuote {offset : Nat}
    (h : rangesFrom offset (before ++ quote :: behind) = .ok ranges)
    (hquote : isQuote quote = true) :
    ∃ range ∈ ranges, range.contains (offset + Text.width before) = true := by
  generalize htext : before ++ quote :: behind = text at h
  fun_induction rangesFrom offset text generalizing before ranges with
  | case1 => simp at htext
  | case2 => cases h
  | case3 offset c cs hc closing later hdrop ih =>
    obtain ⟨hsplit, hinside⟩ := eq_literal_append_of_dropWhile hdrop
    cases hlater : rangesFrom (offset + Text.width (literal c cs)) later with
    | error start => simp [hlater, Except.map] at h
    | ok laterRanges =>
      simp only [hlater, Except.map, Except.ok.injEq] at h
      subst h
      rw [hsplit] at htext
      rcases literal_cases htext with ⟨between, hliteral⟩ | ⟨beyond, rfl, hrest⟩
      · exact ⟨_, List.mem_cons_self, Span.contains_ofText_of_eq hliteral⟩
      · obtain ⟨range, hrange, hcontains⟩ := ih hrest.symm hlater
        rw [Text.width_append, ← Nat.add_assoc]
        exact ⟨range, List.mem_cons_of_mem _ hrange, hcontains⟩
  | case4 offset c cs hc ih =>
    cases before with
    | nil =>
      cases htext
      exact absurd hquote hc
    | cons first before =>
      cases htext
      rw [Text.width_cons, ← Nat.add_assoc]
      exact ih rfl h

theorem rangesFrom_of_ofText (h : ofText text = .ok q) :
    rangesFrom 0 text = .ok q.ranges := by
  unfold ofText at h
  split at h
  · rename_i ranges hranges
    cases h
    exact hranges
  · cases h

theorem isLiteral_of_mem_ranges (h : ofText text = .ok q) (hrange : range ∈ q.ranges) :
    IsLiteral text range := by
  rw [← List.nil_append text]
  exact isLiteral_of_mem_rangesFrom (rangesFrom_of_ofText h) hrange

theorem existsUnique_contains_of_isQuote (h : ofText (before ++ quote :: behind) = .ok q)
    (hquote : isQuote quote = true) :
    ∃! range, range ∈ q.ranges ∧ range.contains (Text.width before) = true := by
  obtain ⟨range, hrange, hcontains⟩ :=
    exists_contains_of_isQuote (rangesFrom_of_ofText h) hquote
  rw [Nat.zero_add] at hcontains
  refine ⟨range, ⟨hrange, hcontains⟩, ?_⟩
  intro other hother
  exact Span.eq_of_contains q.ascending hother.1 hrange hother.2 hcontains

/-- The quotes of a text do not pair up exactly if the reader ends inside a literal, which began at
the offset that is reported. Otherwise the ranges are the literals that he has closed: they ascend
without overlap, each one has a quote at its ends and not between them, every quote of the text lies
in exactly one of them, and by halving them an offset is found to be quoted exactly if one of them
contains it. -/
theorem ofText_ranges (text : List Char) :
    (∀ start, ofText text = .error start ↔
      ∃ quote, (Scan.ofText text).opened = some (quote, start)) ∧
    ∀ q, ofText text = .ok q →
      q.ranges = (Scan.ofText text).closed ∧
      q.ranges.Pairwise (fun range later => range.stop ≤ later.start) ∧
      (∀ range ∈ q.ranges, IsLiteral text range) ∧
      (∀ before quote behind, text = before ++ quote :: behind → isQuote quote = true →
        ∃! range, range ∈ q.ranges ∧ range.contains (Text.width before) = true) ∧
      ∀ offset, q.isQuoted offset = q.isQuotedByHalving offset ∧
        (q.isQuotedByHalving offset = true ↔
          ∃ range ∈ q.ranges, range.contains offset = true) := by
  constructor
  · intro start
    exact Scan.opened_ofText_eq_some_iff.symm
  · intro q hq
    refine ⟨(Scan.closed_ofText hq).symm, q.ascending,
      fun range hrange => isLiteral_of_mem_ranges hq hrange, ?_, ?_⟩
    · intro before quote behind htext hquote
      rw [htext] at hq
      exact existsUnique_contains_of_isQuote hq hquote
    · intro offset
      rw [isQuotedByHalving_eq]
      exact ⟨rfl, isQuoted_iff⟩

theorem ofText_ranges_doubled_and_inert :
    ∃ q, ofText "'it''s' = \"it's\"".toList = .ok q ∧
      q.ranges.map (fun range => (range.start, range.stop)) = [(0, 4), (4, 7), (10, 16)] ∧
      (∃! range, range ∈ q.ranges ∧ range.contains 4 = true) ∧
      q.isQuoted 13 = q.isQuotedByHalving 13 := by
  have hq : ofText "'it''s' = \"it's\"".toList = .ok
      { ranges := [⟨0, 4, by decide⟩, ⟨4, 7, by decide⟩, ⟨10, 16, by decide⟩]
        ascending := by simp } := by
    decide +kernel
  obtain ⟨-, -, -, hquotes, hoffsets⟩ := (ofText_ranges _).2 _ hq
  exact ⟨_, hq, rfl, hquotes "'it'".toList '\'' "s' = \"it's\"".toList rfl rfl, (hoffsets 13).1⟩

end QueryParams.Quotations
