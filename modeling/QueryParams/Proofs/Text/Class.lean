import QueryParams.Placeholder.Reader

/-!
# Classes of characters

How the digits, the characters of names, the blanks and the case variants of the keywords lie to
each other and to the signs of the placeholder syntax. No sign belongs to a run of digits or name
characters, and no blank belongs to a name.
-/

namespace QueryParams

namespace Text

theorem isSeparator_or_isControl_of_isBlank {c : Char} (h : isBlank c = true) :
    isSeparator c = true ∨ isControl c = true := by
  simp only [isBlank, isSeparator, isControl, inRanges_iff, blankRanges, separatorRanges,
    controlRanges, List.mem_cons, List.not_mem_nil, or_false, exists_eq_or_imp,
    exists_eq_left] at h ⊢
  omega

theorem toNat_toLower (c : Char) :
    c.toLower.toNat = if 65 ≤ c.toNat ∧ c.toNat ≤ 90 then c.toNat + 32 else c.toNat := by
  have hrange : (c.val ≥ 'A'.val ∧ c.val ≤ 'Z'.val) ↔ 65 ≤ c.toNat ∧ c.toNat ≤ 90 := by
    simp [UInt32.le_iff_toNat_le]
  unfold Char.toLower
  split
  · rename_i h
    have hupper := hrange.1 h
    rw [if_pos hupper]
    change (c.val + ('a'.val - 'A'.val)).toNat = c.toNat + 32
    rw [UInt32.toNat_add]
    change (c.toNat + 32) % 2 ^ 32 = c.toNat + 32
    omega
  · rename_i h
    rw [if_neg fun hupper => h (hrange.2 hupper)]

end Text

theorem isNameChar_of_isDigit {c : Char} (h : c.isDigit = true) : isNameChar c = true := by
  have hrange : 48 ≤ c.toNat ∧ c.toNat ≤ 57 := by
    simpa [Char.isDigit, UInt32.le_iff_toNat_le] using h
  have hnone : (Text.isSeparator c || Text.isControl c || Text.isFormat c ||
      Text.isAsciiPunctuation c) = false := by
    rw [Bool.eq_false_iff]
    simp only [ne_eq, Bool.or_eq_true, Text.isSeparator, Text.isControl, Text.isFormat,
      Text.isAsciiPunctuation, Text.inRanges_iff, Text.separatorRanges, Text.controlRanges,
      Text.formatRanges, Text.asciiPunctuationRanges, List.mem_cons, List.not_mem_nil, or_false,
      exists_eq_or_imp, exists_eq_left]
    omega
  simp [isNameChar, hnone]

theorem isBlank_eq_false_of_isNameChar {c : Char} (h : isNameChar c = true) :
    Text.isBlank c = false := by
  rw [Bool.eq_false_iff]
  intro hblank
  have hclass := Text.isSeparator_or_isControl_of_isBlank hblank
  have hspecial : c = '.' ∨ c = '_' ∨ c = '$' := by
    rcases hclass with hclass | hclass <;> simpa [isNameChar, hclass, or_assoc] using h
  rcases hspecial with rfl | rfl | rfl <;> exact absurd hblank (by decide)

theorem isNameChar_eq_false_of_isBlank {c : Char} (h : Text.isBlank c = true) :
    isNameChar c = false := by
  rw [Bool.eq_false_iff]
  intro hname
  rw [isBlank_eq_false_of_isNameChar hname] at h
  cases h

theorem isDigit_eq_false_of_isNameChar_eq_false {c : Char} (h : isNameChar c = false) :
    c.isDigit = false := by
  rw [Bool.eq_false_iff]
  intro hdigit
  rw [isNameChar_of_isDigit hdigit] at h
  cases h

theorem ne_of_isNameChar {c d : Char} (hc : isNameChar c = true) (hd : isNameChar d = false) :
    c ≠ d := by
  intro heq
  rw [heq, hd] at hc
  cases hc

end QueryParams
