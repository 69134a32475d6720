import QueryParams.Text.Search

/-!
# Searching on both sides of a character

A pattern is found in a text exactly if it stands somewhere in it. In a text with a character that
the pattern does not have, it is found exactly if it is found on one side of this character.
-/

namespace QueryParams.Text

variable {pattern : List Char} {c : Char}

theorem occursIn_iff {text : List Char} : occursIn pattern text = true ↔ pattern <:+: text := by
  induction text with
  | nil => simp [occursIn]
  | cons b text ih =>
    rw [occursIn, Bool.or_eq_true, List.isPrefixOf_iff_prefix, ih, List.infix_cons_iff]

theorem isPrefixOf_append_cons (hc : c ∉ pattern) (before behind : List Char) :
    pattern.isPrefixOf (before ++ c :: behind) = pattern.isPrefixOf before := by
  induction pattern generalizing before with
  | nil => simp
  | cons d pattern ih =>
    simp only [List.mem_cons, not_or] at hc
    cases before with
    | nil => simp [List.isPrefixOf, Ne.symm hc.1]
    | cons b before => rw [List.cons_append, List.isPrefixOf, List.isPrefixOf, ih hc.2]

theorem occursIn_append_cons (hne : pattern ≠ []) (hc : c ∉ pattern) (before behind : List Char) :
    occursIn pattern (before ++ c :: behind) =
      (occursIn pattern before || occursIn pattern behind) := by
  induction before with
  | nil =>
    cases pattern with
    | nil => exact absurd rfl hne
    | cons d pattern =>
      simp only [List.mem_cons, not_or] at hc
      simp [occursIn, List.isPrefixOf, Ne.symm hc.1]
  | cons b before ih =>
    have hfirst := isPrefixOf_append_cons hc (b :: before) behind
    rw [List.cons_append] at hfirst ⊢
    rw [occursIn, occursIn, hfirst, ih, Bool.or_assoc]

theorem occursIn_eq_false_of_not_mem {text : List Char} (h : c ∉ text) :
    occursIn (c :: pattern) text = false := by
  induction text with
  | nil => rfl
  | cons b text ih =>
    simp only [List.mem_cons, not_or] at h
    simp [occursIn, List.isPrefixOf, h.1, ih h.2]

end QueryParams.Text
