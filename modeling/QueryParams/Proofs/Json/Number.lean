import QueryParams.Json.Number
import QueryParams.Json.Printer
import QueryParams.Proofs.Text.Run

/-!
# Reading whole numbers back

A whole number that fits into 64 bits, with or without a sign, is read as it is written, if the text
behind it does not go on with the number.

Main statement: `Json.readNumber?_writeInteger`.
-/

namespace QueryParams

namespace Text

theorem exists_numeral_eq_cons (n : Nat) :
    ∃ d digits, numeral n = d :: digits ∧ d.isDigit = true := by
  obtain ⟨d, digits, h⟩ := List.exists_cons_of_ne_nil (show numeral n ≠ [] from Nat.toDigits_ne_nil)
  refine ⟨d, digits, h, isDigit_of_mem_numeral (n := n) ?_⟩
  rw [h]
  exact List.mem_cons_self

theorem head?_numeral_ne {n : Nat} (h : 0 < n) : (numeral n).head? ≠ some '0' := by
  induction n using Nat.strongRecOn with
  | ind n ih =>
    by_cases hsmall : n < 10
    · have hdigit : ∀ d < 10, 0 < d → d.digitChar ≠ '0' := by decide
      rw [numeral, Nat.toDigits_of_lt_base hsmall]
      simpa using hdigit n hsmall h
    · obtain ⟨d, digits, hshorter, -⟩ := exists_numeral_eq_cons (n / 10)
      have hne := ih (n / 10) (by omega) (by omega)
      rw [hshorter] at hne
      rw [numeral, Nat.toDigits_of_base_le (by omega) (by omega), ← numeral, hshorter]
      exact hne

end Text

namespace Json

/-- The number fits into 64 bits, with or without a sign. Other whole numbers are read as numbers of
another kind. -/
def InRange (n : Int) : Prop := (∃ w : Int64, w.toInt = n) ∨ ∃ w : UInt64, (w.toNat : Int) = n

def EndsNumber (rest : List Char) : Prop :=
  ∀ c ∈ rest.head?, c.isDigit = false ∧ c ≠ '.' ∧ c ≠ 'e' ∧ c ≠ 'E'

variable {rest : List Char}

theorem readDigits?_numeral (n : Nat) (h : EndsNumber rest) :
    readDigits? (Text.numeral n ++ rest) = some (Text.numeral n, rest) := by
  obtain ⟨htake, hdrop⟩ := (@Text.takeWhile_eq_and_dropWhile_eq_iff _ Char.isDigit
    (Text.numeral n ++ rest) (Text.numeral n) rest).2
      ⟨rfl, fun _ hc => Text.isDigit_of_mem_numeral hc, fun c hc => (h c hc).1⟩
  rw [readDigits?, htake, hdrop]
  cases hdigits : Text.numeral n with
  | nil => exact absurd hdigits Nat.toDigits_ne_nil
  | cons d digits => rfl

theorem readWhole?_numeral (n : Nat) (h : EndsNumber rest) :
    readWhole? (Text.numeral n ++ rest) = some (Text.numeral n, rest) := by
  rw [readWhole?, readDigits?_numeral n h, Option.filter_some, if_pos]
  rcases Nat.eq_zero_or_pos n with rfl | hpos
  · rfl
  · simp [Text.head?_numeral_ne hpos]

theorem readFraction?_of_endsNumber (h : EndsNumber rest) :
    readFraction? rest = some (none, rest) := by
  unfold readFraction?
  split
  · exact absurd rfl (h '.' rfl).2.1
  · rfl

theorem readExponent?_of_endsNumber (h : EndsNumber rest) :
    readExponent? rest = some (none, rest) := by
  cases rest with
  | nil => rfl
  | cons c rest => simp [readExponent?, (h c rfl).2.2]

theorem takeChar_numeral (n : Nat) (rest : List Char) :
    Text.takeChar '-' (Text.numeral n ++ rest) = (false, Text.numeral n ++ rest) := by
  obtain ⟨d, digits, hnumeral, hdigit⟩ := Text.exists_numeral_eq_cons n
  have hne : d ≠ '-' := by
    rintro rfl
    exact absurd hdigit (by decide)
  rw [hnumeral, List.cons_append, Text.takeChar, if_neg hne]

theorem readNumberText?_writeInteger (n : Int) (h : EndsNumber rest) :
    readNumberText? (writeInteger n ++ rest) =
      some (⟨decide (n < 0), Text.numeral n.natAbs, none, none⟩, rest) := by
  have hsign : Text.takeChar '-' (writeInteger n ++ rest) =
      (decide (n < 0), Text.numeral n.natAbs ++ rest) := by
    unfold writeInteger
    by_cases hneg : n < 0
    · simp [hneg, Text.takeChar]
    · simpa [hneg] using takeChar_numeral n.natAbs rest
  simp [readNumberText?, hsign, readWhole?_numeral n.natAbs h, readFraction?_of_endsNumber h,
    readExponent?_of_endsNumber h]

theorem integer?_of_inRange {n : Int} (h : InRange n) :
    NumberText.integer? ⟨decide (n < 0), Text.numeral n.natAbs, none, none⟩ = some n := by
  have hbounds : -2 ^ 63 ≤ n ∧ n < 2 ^ 64 := by
    rcases h with ⟨w, rfl⟩ | ⟨w, rfl⟩
    · have hlower := w.le_toInt
      have hupper := w.toInt_lt
      omega
    · have hupper := w.toNat_lt
      omega
  simp only [NumberText.integer?, Text.numeralValue_numeral, decide_eq_true_eq]
  split
  · have hsize : 0 < n.natAbs ∧ n.natAbs ≤ Nat.pow 2 63 := by
      change _ ∧ _ ≤ 2 ^ 63
      omega
    rw [if_pos hsize]
    congr
    omega
  · have hsize : n.natAbs < UInt64.size := by
      change _ < 2 ^ 64
      omega
    rw [if_pos hsize]
    congr
    omega

theorem readNumber?_writeInteger {n : Int} (hrange : InRange n) (h : EndsNumber rest) :
    readNumber? (writeInteger n ++ rest) = some (.integer n, rest) := by
  simp [readNumber?, readNumberText?_writeInteger n h, NumberText.value?,
    integer?_of_inRange hrange]

end Json

end QueryParams
