import QueryParams.Text.Blank
import QueryParams.Text.Run

/-!
# Runs at the front of a text

A run taken off the front of a text is maximal: the rest does not go on with it. In the same way a
sign is taken whenever it is there. Trimming takes off the runs of blanks at both ends and nothing
else.
-/

namespace QueryParams.Text

/-- A text splits into a run of members of `p` and a rest that does not go on with the run. -/
theorem takeWhile_eq_and_dropWhile_eq_iff {α : Type} {p : α → Bool} {l run rest : List α} :
    l.takeWhile p = run ∧ l.dropWhile p = rest ↔
      l = run ++ rest ∧ (∀ a ∈ run, p a = true) ∧ ∀ a ∈ rest.head?, p a = false := by
  constructor
  · rintro ⟨rfl, rfl⟩
    refine ⟨List.takeWhile_append_dropWhile.symm, ?_, ?_⟩
    · intro a ha
      exact List.all_eq_true.1 List.all_takeWhile a ha
    · intro a ha
      have hnot := List.head?_dropWhile_not p l
      rw [Option.mem_def.1 ha] at hnot
      simpa using hnot
  · rintro ⟨rfl, hrun, hrest⟩
    rw [List.takeWhile_append_of_pos hrun, List.dropWhile_append_of_pos hrun]
    cases rest with
    | nil => simp
    | cons a rest =>
      have ha : p a = false := hrest a (by simp)
      simp [ha]

theorem takeWhile_append_cons_of_neg {α : Type} {p : α → Bool} {a : α} (ha : p a = false)
    (before behind : List α) : (before ++ a :: behind).takeWhile p = before.takeWhile p := by
  induction before with
  | nil => simp [ha]
  | cons b before ih => rw [List.cons_append, List.takeWhile_cons, List.takeWhile_cons, ih]

theorem exists_append_of_not_mem {α : Type} {a : α} {before behind front last : List α}
    (h : front ++ last = before ++ a :: behind) (ha : a ∉ last) :
    ∃ between, front = before ++ a :: between ∧ behind = between ++ last := by
  rcases List.append_eq_append_iff.1 h with ⟨between, -, hlast⟩ | ⟨between, hfront, hbehind⟩
  · exact absurd (by rw [hlast]; simp) ha
  · cases between with
    | nil => exact absurd (by rw [← List.nil_append last, ← hbehind]; exact List.mem_cons_self) ha
    | cons b between =>
      obtain ⟨rfl, hrest⟩ := List.cons.inj hbehind
      exact ⟨between, hfront, hrest⟩

theorem exists_append_of_not_mem_front {α : Type} {a : α} {before behind front last : List α}
    (h : front ++ last = before ++ a :: behind) (ha : a ∉ front) :
    ∃ between, before = front ++ between ∧ last = between ++ a :: behind := by
  rcases List.append_eq_append_iff.1 h with ⟨between, hbefore, hlast⟩ | ⟨between, hfront, hbehind⟩
  · exact ⟨between, hbefore, hlast⟩
  · cases between with
    | nil => exact ⟨[], by simpa using hfront.symm, by simpa using hbehind.symm⟩
    | cons b between =>
      obtain ⟨rfl, -⟩ := List.cons.inj hbehind
      exact absurd (by rw [hfront]; simp) ha

theorem takeChar_eq_iff {c : Char} {cs rest : List Char} {present : Bool} :
    takeChar c cs = (present, rest) ↔
      cs = optional present c ++ rest ∧ (present = false → rest.head? ≠ some c) := by
  cases cs with
  | nil =>
    cases present
    · simp only [takeChar, optional, Prod.mk.injEq, true_and, Bool.false_eq_true, if_false,
        List.nil_append, forall_const]
      constructor
      · rintro rfl
        exact ⟨rfl, by simp⟩
      · exact fun h => h.1
    · simp [takeChar, optional]
  | cons d cs =>
    by_cases hd : d = c
    · subst hd
      cases present
      · simp only [takeChar, if_true, optional, Prod.mk.injEq, Bool.true_eq_false, false_and,
          Bool.false_eq_true, if_false, List.nil_append, false_iff, not_and]
        rintro rfl hhead
        simp at hhead
      · simp [takeChar, optional, eq_comm]
    · cases present
      · simp only [takeChar, if_neg hd, optional, Bool.false_eq_true, if_false, List.nil_append,
          Prod.mk.injEq, true_and, forall_const]
        constructor
        · rintro rfl
          exact ⟨rfl, by simpa using hd⟩
        · rintro ⟨rfl, -⟩
          rfl
      · simp [takeChar, optional, hd]

/-! ## Trimming -/

theorem dropWhile_isBlank_eq_self {cs : List Char} (h : ∀ c ∈ cs, isBlank c = false) :
    cs.dropWhile isBlank = cs := by
  refine (@takeWhile_eq_and_dropWhile_eq_iff _ isBlank cs [] cs |>.2 ⟨rfl, by simp, ?_⟩).2
  intro c hc
  exact h c (List.mem_of_mem_head? hc)

theorem trimEnd_eq_self {cs : List Char} (h : ∀ c ∈ cs, isBlank c = false) : trimEnd cs = cs := by
  rw [trimEnd, dropWhile_isBlank_eq_self (by simpa using h), List.reverse_reverse]

theorem trim_eq_self {cs : List Char} (h : ∀ c ∈ cs, isBlank c = false) : trim cs = cs := by
  rw [trim, dropWhile_isBlank_eq_self h, trimEnd_eq_self h]

theorem trim_concat {cs : List Char} {blank : Char} (hne : cs ≠ [])
    (h : ∀ c ∈ cs, isBlank c = false) (hblank : isBlank blank = true) :
    trim (cs ++ [blank]) = cs := by
  have hdrop : (cs ++ [blank]).dropWhile isBlank = cs ++ [blank] := by
    obtain ⟨c, cs, rfl⟩ := List.exists_cons_of_ne_nil hne
    rw [List.cons_append, List.dropWhile_cons_of_neg (by simp [h c])]
  have hend : trimEnd (cs ++ [blank]) = trimEnd cs := by
    rw [trimEnd, List.reverse_concat, List.dropWhile_cons_of_pos hblank, trimEnd]
  rw [trim, hdrop, hend, trimEnd_eq_self h]

end QueryParams.Text
