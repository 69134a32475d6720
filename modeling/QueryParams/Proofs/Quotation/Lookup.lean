import QueryParams.Quotation

/-!
# Looking up an offset by halving

The ranges of the literals ascend, so the ones that end at or before an offset stand in front of the
others, and the first of the others can be found by halving. This decides whether the offset is
quoted in the same way as going through all ranges does.

Main statement: `Quotations.isQuotedByHalving_eq`.
-/

namespace QueryParams

variable {α : Type} {p : α → Bool} {l : List α}

/-- The first index from `low` up to `high` at which `p` no longer holds, where `p` holds of the
members of a beginning of the list. Each turn looks at the middle and keeps one half. -/
def partitionPoint (p : α → Bool) (l : List α) (low high : Nat) : Nat :=
  if low < high then
    if (l[(low + high) / 2]?).any p then partitionPoint p l ((low + high) / 2 + 1) high
    else partitionPoint p l low ((low + high) / 2)
  else low
termination_by high - low

/-- The window that is kept always holds the point where `p` ends to hold. -/
theorem partitionPoint_eq {low high point : Nat}
    (hpoint : ∀ i (hi : i < l.length), p l[i] = true ↔ i < point) (hlow : low ≤ point)
    (hhigh : point ≤ high) (hlength : high ≤ l.length) : partitionPoint p l low high = point := by
  fun_induction partitionPoint p l low high with
  | case1 low high hlt hmiddle ih =>
    have hindex : (low + high) / 2 < l.length := by omega
    rw [List.getElem?_eq_getElem hindex, Option.any_some, hpoint _ hindex] at hmiddle
    exact ih (by omega) hhigh hlength
  | case2 low high hlt hmiddle ih =>
    have hindex : (low + high) / 2 < l.length := by omega
    rw [List.getElem?_eq_getElem hindex, Option.any_some, hpoint _ hindex] at hmiddle
    exact ih hlow (by omega) (by omega)
  | case3 low high hlt => omega

theorem getElem?_length_takeWhile (p : α → Bool) (l : List α) :
    l[(l.takeWhile p).length]? = (l.dropWhile p).head? := by
  have hsplit := List.takeWhile_append_dropWhile (p := p) (l := l)
  calc
    l[(l.takeWhile p).length]? = (l.takeWhile p ++ l.dropWhile p)[(l.takeWhile p).length]? := by
      rw [hsplit]
    _ = (l.dropWhile p).head? := by
      rw [List.getElem?_append_right (Nat.le_refl _), Nat.sub_self, List.head?_eq_getElem?]

theorem lt_length_takeWhile_iff (h : l.Pairwise fun a later => p later = true → p a = true)
    (i : Nat) (hi : i < l.length) : p l[i] = true ↔ i < (l.takeWhile p).length := by
  induction l generalizing i with
  | nil => exact absurd hi (Nat.not_lt_zero i)
  | cons a l ih =>
    obtain ⟨hfirst, hrest⟩ := List.pairwise_cons.1 h
    cases hp : p a with
    | true =>
      rw [List.takeWhile_cons_of_pos hp]
      cases i with
      | zero => simp [hp]
      | succ i =>
        have hlength : i < l.length := by simpa using hi
        simpa using ih hrest i hlength
    | false =>
      have hnone : ∀ b ∈ a :: l, p b = false := by
        intro b hb
        rcases List.mem_cons.1 hb with rfl | hb
        · exact hp
        · rw [Bool.eq_false_iff]
          intro hpb
          rw [hfirst b hb hpb] at hp
          cases hp
      simp [hp, hnone _ (List.getElem_mem hi)]

namespace Quotations

def isQuotedByHalving (q : Quotations) (offset : Nat) : Bool :=
  (q.ranges[partitionPoint (·.stop ≤ offset) q.ranges 0 q.ranges.length]?).any
    (·.contains offset)

theorem pairwise_stop_le (q : Quotations) (offset : Nat) :
    q.ranges.Pairwise fun range later =>
      decide (later.stop ≤ offset) = true → decide (range.stop ≤ offset) = true := by
  refine q.ascending.imp ?_
  intro range later hle hstop
  have hlater := later.start_le_stop
  rw [decide_eq_true_iff] at hstop ⊢
  omega

theorem isQuotedByHalving_eq (q : Quotations) (offset : Nat) :
    q.isQuotedByHalving offset = q.isQuoted offset := by
  have hpoint := partitionPoint_eq (lt_length_takeWhile_iff (q.pairwise_stop_le offset))
    (Nat.zero_le _) (List.takeWhile_sublist _).length_le (Nat.le_refl _)
  rw [isQuotedByHalving, hpoint, getElem?_length_takeWhile, isQuoted]
  cases q.ranges.dropWhile (·.stop ≤ offset) with
  | nil => rfl
  | cons range ranges => rfl

end Quotations

end QueryParams
