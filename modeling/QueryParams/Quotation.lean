import QueryParams.Span
import QueryParams.Text.Run

/-!
# Quoted literals

A literal is opened by a single or double quote and closed by the next quote of the same kind; the
other kind of quote is inert inside it. A doubled quote closes one literal and opens the next. What
begins inside a literal is no parameter.

Main statement: `Quotations.isQuoted_iff`, the lookup finds every offset that a range covers.
-/

namespace QueryParams

/-- The quoted ranges of a text in ascending order, each with both of its quotes. -/
structure Quotations where
  ranges : List Span := []
  ascending : ranges.Pairwise (·.stop ≤ ·.start) := by exact List.Pairwise.nil
  deriving DecidableEq, Repr

namespace Quotations

def isQuote (c : Char) : Bool := c == '"' || c == '\''

def literal (quote : Char) (cs : List Char) : List Char :=
  quote :: cs.takeWhile (· != quote) ++ [quote]

/-- The ranges of the literals in a text that begins at `offset` outside of every literal. Fails
with the offset of the quote that is never closed. -/
def rangesFrom (offset : Nat) : List Char → Except Nat (List Span)
  | [] => .ok []
  | c :: cs =>
    if isQuote c then
      match _h : cs.dropWhile (· != c) with
      | [] => .error offset
      | _ :: behind =>
        (rangesFrom (offset + Text.width (literal c cs)) behind).map
          (Span.ofText offset (literal c cs) :: ·)
    else rangesFrom (offset + c.utf8Size) cs
termination_by cs => cs.length
decreasing_by
  · have := Text.length_lt_of_dropWhile_eq_cons (by assumption)
    simp only [List.length_cons]
    omega
  · simp

/-- No range begins before the text does, and each one begins behind the end of the one before. -/
theorem ascending_of_rangesFrom {offset : Nat} {cs : List Char} {ranges : List Span}
    (h : rangesFrom offset cs = .ok ranges) :
    (∀ range ∈ ranges, offset ≤ range.start) ∧ ranges.Pairwise (·.stop ≤ ·.start) := by
  fun_induction rangesFrom offset cs generalizing ranges with
  | case1 =>
    cases h
    exact ⟨by simp, List.Pairwise.nil⟩
  | case2 => cases h
  | case3 offset c cs _ _ behind _ ih =>
    cases hlater : rangesFrom (offset + Text.width (literal c cs)) behind with
    | error start => simp [hlater, Except.map] at h
    | ok later =>
      simp only [hlater, Except.map, Except.ok.injEq] at h
      subst h
      obtain ⟨hstart, hpairwise⟩ := ih hlater
      constructor
      · intro range hrange
        rcases List.mem_cons.1 hrange with rfl | hrange
        · exact Nat.le_refl _
        · have := hstart range hrange
          omega
      · exact List.Pairwise.cons hstart hpairwise
  | case4 offset c cs hquote ih =>
    obtain ⟨hstart, hpairwise⟩ := ih h
    refine ⟨fun range hrange => ?_, hpairwise⟩
    have := hstart range hrange
    omega

def ofText (text : List Char) : Except Nat Quotations :=
  match h : rangesFrom 0 text with
  | .ok ranges => .ok { ranges := ranges, ascending := (ascending_of_rangesFrom h).2 }
  | .error start => .error start

/-- Whether `offset` lies in a quoted range. The ranges ascend, so the first one that does not end
at or before the offset decides. -/
def isQuoted (q : Quotations) (offset : Nat) : Bool :=
  match q.ranges.dropWhile (·.stop ≤ offset) with
  | [] => false
  | range :: _ => range.contains offset

theorem isQuoted_iff {q : Quotations} {offset : Nat} :
    q.isQuoted offset = true ↔ ∃ range ∈ q.ranges, range.contains offset = true := by
  obtain ⟨ranges, hascending⟩ := q
  simp only [isQuoted]
  induction ranges with
  | nil => simp
  | cons range ranges ih =>
    obtain ⟨hlater, hascending⟩ := List.pairwise_cons.1 hascending
    rw [List.dropWhile_cons]
    by_cases hstop : range.stop ≤ offset
    · rw [if_pos (by simpa using hstop), ih hascending]
      simp only [List.mem_cons, exists_eq_or_imp, iff_or_self, Span.contains_iff]
      omega
    · rw [if_neg (by simpa using hstop)]
      simp only [List.mem_cons, exists_eq_or_imp, iff_self_or, Span.contains_iff]
      rintro ⟨other, hother, hcontains⟩
      have := hlater other hother
      omega

end Quotations

end QueryParams
