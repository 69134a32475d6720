/-!
# Decimal numerals

Runs of ASCII digits as natural numbers and as words of 32 bits. Leading zeros do not matter.
-/

namespace QueryParams.Text

def numeralValue (digits : List Char) : Nat := Nat.ofDigitChars 10 digits 0

def numeral (n : Nat) : List Char := Nat.toDigits 10 n

@[simp] theorem numeralValue_numeral (n : Nat) : numeralValue (numeral n) = n := by
  simp [numeralValue, numeral]

theorem isDigit_of_mem_numeral {n : Nat} {c : Char} (hc : c ∈ numeral n) : c.isDigit = true :=
  Nat.isDigit_of_mem_toDigits (by decide) (by decide) hc

def word? (n : Nat) : Option UInt32 :=
  if h : n < UInt32.size then some (UInt32.ofNatLT n h) else none

theorem toNat_of_word?_eq_some {n : Nat} {w : UInt32} (h : word? n = some w) : w.toNat = n := by
  unfold word? at h
  split at h
  · cases h; simp
  · cases h

theorem word?_eq_none_iff {n : Nat} : word? n = none ↔ UInt32.size ≤ n := by
  unfold word?
  split <;> simp <;> omega

theorem word?_eq_some_iff {n : Nat} {w : UInt32} : word? n = some w ↔ n = w.toNat := by
  constructor
  · intro h
    exact (toNat_of_word?_eq_some h).symm
  · intro h
    rw [word?, h, dif_pos w.toNat_lt]
    simp

end QueryParams.Text
