import QueryParams.Json.Quoted

/-!
# Reading strings back

What is written for a character is read as this character, whatever stands behind it, and no
character is written like the closing quotation mark. So a quoted text is read up to its end and no
further.

Main statement: `Json.readQuoted?_flatMap_escape`.
-/

namespace QueryParams.Json

theorem hexValue?_hexDigit {n : Nat} (h : n < 16) : hexValue? (hexDigit n) = some n := by
  revert n
  decide

theorem readUnits?_control {c : Char} (h : c.toNat < 0x20) (rest : List Char) :
    readUnits? ('0' :: '0' :: hexDigit (c.toNat / 16) :: hexDigit (c.toNat % 16) :: rest) =
      some (c, rest) := by
  have hzero : hexValue? '0' = some 0 := by decide
  have hhigh := hexValue?_hexDigit (show c.toNat / 16 < 16 by omega)
  have hlow := hexValue?_hexDigit (show c.toNat % 16 < 16 by omega)
  have hunit : ((0 * 16 + 0) * 16 + c.toNat / 16) * 16 + c.toNat % 16 = c.toNat := by omega
  have hread : readUnit? ('0' :: '0' :: hexDigit (c.toNat / 16) :: hexDigit (c.toNat % 16) ::
      rest) = some (c.toNat, rest) := by
    simp only [readUnit?, hzero, hhigh, hlow, Option.bind_eq_bind, Option.bind_some, hunit]
    rfl
  have hleading : isLeadingUnit c.toNat = false := by
    simp only [isLeadingUnit, Bool.and_eq_false_iff, decide_eq_false_iff_not]
    omega
  have htrailing : isTrailingUnit c.toNat = false := by
    simp only [isTrailingUnit, Bool.and_eq_false_iff, decide_eq_false_iff_not]
    omega
  simp [readUnits?, hread, hleading, htrailing, Char.ofNat_toNat]

theorem readChar?_of_plain {c : Char} (hbackslash : c ≠ '\\') (hcontrol : ¬ c.toNat < 0x20)
    (rest : List Char) : readChar? (c :: rest) = some (c, rest) := by
  unfold readChar?
  split
  · contradiction
  · rename_i heq
    exact absurd (List.cons.inj heq).1 hbackslash
  · rename_i heq
    cases heq
    exact if_neg hcontrol

theorem readChar?_escape (c : Char) (rest : List Char) :
    readChar? (escape c ++ rest) = some (c, rest) := by
  unfold escape
  -- the seven characters with an escape of two characters
  iterate 7
    split
    · subst c
      rfl
  split
  · rename_i hcontrol
    exact readUnits?_control hcontrol rest
  · rename_i hbackslash _ _ _ _ _ hcontrol
    exact readChar?_of_plain hbackslash hcontrol rest

/-- No character is written so that it looks like the end of the string. -/
theorem head?_escape_append_ne (c : Char) (rest : List Char) :
    (escape c ++ rest).head? ≠ some '"' := by
  unfold escape
  grind

theorem readQuoted?_flatMap_escape (cs rest : List Char) :
    readQuoted? (cs.flatMap escape ++ '"' :: rest) = some (cs, rest) := by
  induction cs with
  | nil =>
    rw [readQuoted?]
    rfl
  | cons c cs ih =>
    have hread := readChar?_escape c (cs.flatMap escape ++ '"' :: rest)
    rw [List.flatMap_cons, List.append_assoc, readQuoted?, if_neg (head?_escape_append_ne c _)]
    split
    · rename_i hnone
      rw [hread] at hnone
      cases hnone
    · rename_i hsome
      rw [hread] at hsome
      cases hsome
      rw [ih]
      rfl

end QueryParams.Json
