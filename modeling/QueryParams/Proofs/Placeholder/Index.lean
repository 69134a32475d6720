import QueryParams.Placeholder.Index
import QueryParams.Proofs.Placeholder.Scan
import QueryParams.Proofs.Refusal

/-!
# The indices of the placeholders

The search for the greatest index sees the digits of every literal index that the scan finds, so
where it succeeds all of them are words of 32 bits.
-/

namespace QueryParams

theorem mem_indexRuns_of_mem_tail {c : Char} {cs digits : List Char} (h : digits ∈ indexRuns cs) :
    digits ∈ indexRuns (c :: cs) := by
  rw [indexRuns]
  split
  · exact List.mem_cons_of_mem _ h
  · exact h

theorem indexRuns_append_cons {c : Char} (hdigit : c.isDigit = false) (hsign : c ≠ '?')
    (before behind : List Char) :
    indexRuns (before ++ c :: behind) = indexRuns before ++ indexRuns behind := by
  induction before with
  | nil => simp [indexRuns, hsign]
  | cons b before ih =>
    rw [List.cons_append, indexRuns, indexRuns, ih, Text.takeWhile_append_cons_of_neg hdigit]
    split <;> rfl

theorem indexRuns_eq_nil {cs : List Char} (h : '?' ∉ cs) : indexRuns cs = [] := by
  induction cs with
  | nil => rfl
  | cons c cs ih =>
    simp only [List.mem_cons, not_or] at h
    simp [indexRuns, Ne.symm h.1, ih h.2]

theorem mem_indexRuns {before digits behind : List Char} (hne : digits ≠ [])
    (hdigits : ∀ c ∈ digits, c.isDigit = true) (hend : ∀ c ∈ behind.head?, c.isDigit = false) :
    digits ∈ indexRuns (before ++ '?' :: (digits ++ behind)) := by
  induction before with
  | nil =>
    obtain ⟨htake, -⟩ := Text.takeWhile_eq_and_dropWhile_eq_iff.2 ⟨rfl, hdigits, hend⟩
    obtain ⟨d, digits, rfl⟩ := List.exists_cons_of_ne_nil hne
    rw [List.nil_append, indexRuns, htake]
    simp
  | cons c before ih => exact mem_indexRuns_of_mem_tail ih

theorem positionOfDigits_eq_ok_iff {digits : List Char} {position : UInt32} :
    positionOfDigits digits = .ok position ↔
      Text.numeralValue digits < UInt32.size ∧
        position = UInt32.ofNat (Text.numeralValue digits) := by
  unfold positionOfDigits
  cases hword : Text.word? (Text.numeralValue digits) with
  | none =>
    have hbound := Text.word?_eq_none_iff.1 hword
    constructor
    · intro h
      cases h
    · intro h
      omega
  | some word =>
    have hvalue := Text.toNat_of_word?_eq_some hword
    have hbound := word.toNat_lt
    rw [← hvalue, UInt32.ofNat_toNat]
    constructor
    · intro h
      cases h
      exact ⟨hbound, rfl⟩
    · intro h
      rw [h.2]

theorem numeralValue_lt_of_mem_indexRuns {text digits : List Char} {greatest : Option UInt32}
    (h : greatestIndex text = .ok greatest) (hmem : digits ∈ indexRuns text) :
    Text.numeralValue digits < UInt32.size := by
  obtain ⟨positions, hpositions, -⟩ := bind_eq_ok_iff.1 h
  obtain ⟨hfit, -⟩ := (mapM_eq_ok_iff fun _ _ => positionOfDigits_eq_ok_iff).1 hpositions
  exact hfit digits hmem

namespace Placeholder

theorem digits_mem_indexRuns {text digits : List Char} {o : Occurrence}
    (ho : o ∈ occurrences text) (hbody : o.placeholder.body = .index digits) :
    digits ∈ indexRuns text := by
  obtain ⟨earlier, later, htext, -, hfits, -⟩ := standsAt_of_mem_occurrences ho
  have hformed := hfits.body
  have hends := hfits.body_ends
  rw [hbody] at hformed hends
  have hsplit : text = (earlier ++ o.placeholder.lead) ++
      '?' :: (digits ++ (o.placeholder.trail ++ later)) := by
    rw [htext, text_eq, hbody]
    simp [Body.text]
  rw [hsplit]
  exact mem_indexRuns hformed.1 hformed.2 hends

end Placeholder

end QueryParams
