import QueryParams.Proofs.Quotation.Ranges

/-!
# Stretches without quotes

A literal has a quote at both of its ends, so it does not end within a stretch of the text that has
no quotes, and it does not begin there either. All offsets of such a stretch are quoted alike, also
those inside a character of several bytes.

Main statement: `Quotations.isQuoted_eq_of_forall_not_isQuote`.
-/

namespace QueryParams.Quotations

variable {before stretch behind earlier later : List Char} {quote : Char} {range : Span}
  {q : Quotations} {offset offset' : Nat}

theorem width_lt_or_le_of_isQuote
    (htext : before ++ stretch ++ behind = earlier ++ quote :: later)
    (hstretch : ∀ c ∈ stretch, isQuote c = false) (hquote : isQuote quote = true) :
    Text.width earlier < Text.width before ∨
      Text.width (before ++ stretch) ≤ Text.width earlier := by
  rcases Nat.lt_or_ge (Text.width earlier) (Text.width before) with hlt | hle
  · exact Or.inl hlt
  · right
    rw [List.append_assoc] at htext
    obtain ⟨between, rfl, hbehind⟩ := Text.exists_append_of_width_le htext hle
    rcases List.append_eq_append_iff.1 hbehind with ⟨beyond, rfl, -⟩ | ⟨inside, hinside, hrest⟩
    · rw [← List.append_assoc, Text.width_append (before ++ stretch)]
      exact Nat.le_add_right _ _
    · cases inside with
      | nil => exact Nat.le_of_eq (by rw [hinside, List.append_nil])
      | cons c inside =>
        obtain ⟨rfl, -⟩ := List.cons.inj hrest
        rw [hstretch quote (by rw [hinside]; simp)] at hquote
        cases hquote

theorem IsLiteral.apart_or_covers (h : IsLiteral (before ++ stretch ++ behind) range)
    (hstretch : ∀ c ∈ stretch, isQuote c = false) :
    range.stop ≤ Text.width before ∨ Text.width (before ++ stretch) ≤ range.start ∨
      range.start ≤ Text.width before ∧ Text.width (before ++ stretch) ≤ range.stop := by
  obtain ⟨-, quote, inside, hquote, -, hslice⟩ := h
  obtain ⟨earlier, later, htext, hstart, hstop⟩ := Span.exists_eq_append_of_slice? hslice
  have hsize := Scan.utf8Size_of_isQuote hquote
  have hopening : before ++ stretch ++ behind =
      earlier ++ quote :: (inside ++ quote :: later) := by
    rw [htext]
    simp
  have hclosing : before ++ stretch ++ behind =
      (earlier ++ quote :: inside) ++ quote :: later := by
    rw [htext]
    simp
  have hopens := width_lt_or_le_of_isQuote hopening hstretch hquote
  have hcloses := width_lt_or_le_of_isQuote hclosing hstretch hquote
  -- the closing quote is the last byte of the range
  have hlast : range.stop = Text.width (earlier ++ quote :: inside) + 1 := by
    rw [hstop, ← Text.width_append, List.cons_append, ← List.cons_append, ← List.append_assoc,
      Text.width_append (earlier ++ quote :: inside)]
    simp [hsize]
  omega

theorem isQuoted_eq_of_forall_not_isQuote (h : ofText (before ++ stretch ++ behind) = .ok q)
    (hstretch : ∀ c ∈ stretch, isQuote c = false)
    (hoffset : Text.width before ≤ offset ∧ offset < Text.width (before ++ stretch))
    (hoffset' : Text.width before ≤ offset' ∧ offset' < Text.width (before ++ stretch)) :
    q.isQuoted offset = q.isQuoted offset' := by
  have hsame : ∀ range ∈ q.ranges,
      range.contains offset = true ↔ range.contains offset' = true := by
    intro range hrange
    have hcases := (isLiteral_of_mem_ranges h hrange).apart_or_covers hstretch
    rw [Span.contains_iff, Span.contains_iff]
    omega
  rw [Bool.eq_iff_iff, isQuoted_iff, isQuoted_iff]
  exact exists_congr fun range => and_congr_right (hsame range)

end QueryParams.Quotations
