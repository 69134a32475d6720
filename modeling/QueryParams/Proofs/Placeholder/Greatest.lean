import QueryParams.Proofs.Placeholder.Index

/-!
# The greatest index of a text

The search for the greatest index runs over the text on its own, and sees exactly the places at
which the grammar has an index, be it in a literal or in an expression. It fails at the leftmost
index that is no word of 32 bits.

Main statements: `mem_indexRuns_iff`, `greatestIndex_eq_error_iff` and
`isGreatestIndex_of_greatestIndex`.
-/

namespace QueryParams

variable {text digits cs : List Char} {c : Char} {offset : Nat}

/-! ## Where the runs of digits are -/

namespace Body

theorem standsAt_index_cons_iff :
    (index digits).StandsAt (c :: cs) offset ↔
      (offset = 0 ∧ c = '?' ∧ digits ≠ [] ∧ cs.takeWhile Char.isDigit = digits) ∨
        ∃ offset', offset = c.utf8Size + offset' ∧ (index digits).StandsAt cs offset' := by
  constructor
  · intro h
    obtain ⟨earlier, later, htext, rfl, hformed, hends, hlive⟩ := h
    cases earlier with
    | nil =>
      simp only [text, List.nil_append, List.cons_append, List.cons.injEq] at htext
      obtain ⟨hsign, htext⟩ := htext
      obtain ⟨hrun, -⟩ := Text.takeWhile_eq_and_dropWhile_eq_iff.2 ⟨htext, hformed.2, hends⟩
      exact Or.inl ⟨rfl, hsign, hformed.1, hrun⟩
    | cons first earlier =>
      simp only [List.cons_append, List.cons.injEq] at htext
      obtain ⟨rfl, htext⟩ := htext
      exact Or.inr ⟨Text.width earlier, rfl, earlier, later, htext, rfl, hformed, hends, trivial⟩
  · intro h
    rcases h with ⟨rfl, rfl, hne, hrun⟩ |
      ⟨offset', rfl, earlier, later, htext, rfl, hformed, hends, -⟩
    · obtain ⟨hcs, hdigits, hends⟩ := Text.takeWhile_eq_and_dropWhile_eq_iff.1 ⟨hrun, rfl⟩
      refine ⟨[], cs.dropWhile Char.isDigit, ?_, rfl, ⟨hne, hdigits⟩, hends, trivial⟩
      rw [List.nil_append, text, List.cons_append, ← hcs]
    · exact ⟨c :: earlier, later, by rw [htext]; rfl, rfl, hformed, hends, trivial⟩

theorem not_standsAt_nil {b : Body} : ¬ b.StandsAt [] offset := by
  intro h
  obtain ⟨earlier, later, htext, -⟩ := h
  have hbody := b.text_ne_nil
  simp [hbody] at htext

end Body

theorem indexRuns_cons_of_run {d : Char} {run : List Char} (hsign : c = '?')
    (hrun : cs.takeWhile Char.isDigit = d :: run) :
    indexRuns (c :: cs) = (d :: run) :: indexRuns cs := by
  rw [indexRuns, hrun, hsign]
  rfl

theorem indexRuns_cons_of_not_run (h : ¬ (c = '?' ∧ cs.takeWhile Char.isDigit ≠ [])) :
    indexRuns (c :: cs) = indexRuns cs := by
  rw [indexRuns]
  split
  · rename_i hsign hrun
    exact absurd ⟨by simpa using hsign, by simp [hrun]⟩ h
  · rfl

/-- The runs of digits behind a question mark, each with the offset of its question mark, in a text
that begins at `offset`. -/
def locatedRuns (offset : Nat) : List Char → List (Nat × List Char)
  | [] => []
  | c :: cs =>
    if c = '?' ∧ cs.takeWhile Char.isDigit ≠ [] then
      (offset, cs.takeWhile Char.isDigit) :: locatedRuns (offset + c.utf8Size) cs
    else locatedRuns (offset + c.utf8Size) cs

theorem locatedRuns_cons_of_run (h : c = '?' ∧ cs.takeWhile Char.isDigit ≠ []) :
    locatedRuns offset (c :: cs) =
      (offset, cs.takeWhile Char.isDigit) :: locatedRuns (offset + c.utf8Size) cs := by
  rw [locatedRuns, if_pos h]

theorem locatedRuns_cons_of_not_run (h : ¬ (c = '?' ∧ cs.takeWhile Char.isDigit ≠ [])) :
    locatedRuns offset (c :: cs) = locatedRuns (offset + c.utf8Size) cs := by
  rw [locatedRuns, if_neg h]

theorem map_snd_locatedRuns (offset : Nat) (cs : List Char) :
    (locatedRuns offset cs).map Prod.snd = indexRuns cs := by
  induction cs generalizing offset with
  | nil => rfl
  | cons c cs ih =>
    by_cases hrun : c = '?' ∧ cs.takeWhile Char.isDigit ≠ []
    · obtain ⟨d, run, hd⟩ := List.exists_cons_of_ne_nil hrun.2
      rw [locatedRuns_cons_of_run hrun, indexRuns_cons_of_run hrun.1 hd, List.map_cons, ih, hd]
    · rw [locatedRuns_cons_of_not_run hrun, indexRuns_cons_of_not_run hrun, ih]

theorem mem_locatedRuns_iff {n : Nat} :
    (n, digits) ∈ locatedRuns offset cs ↔
      ∃ within, n = offset + within ∧ (Body.index digits).StandsAt cs within := by
  induction cs generalizing offset with
  | nil => simp [locatedRuns, Body.not_standsAt_nil]
  | cons c cs ih =>
    have hbehind : (∃ within, n = offset + c.utf8Size + within ∧
        (Body.index digits).StandsAt cs within) ↔
        ∃ within, n = offset + within ∧
          ∃ within', within = c.utf8Size + within' ∧ (Body.index digits).StandsAt cs within' := by
      constructor
      · rintro ⟨within, rfl, hstands⟩
        exact ⟨_, Nat.add_assoc .., within, rfl, hstands⟩
      · rintro ⟨_, rfl, within, rfl, hstands⟩
        exact ⟨within, (Nat.add_assoc ..).symm, hstands⟩
    simp only [Body.standsAt_index_cons_iff, and_or_left, exists_or, ← hbehind, ← ih]
    by_cases hrun : c = '?' ∧ cs.takeWhile Char.isDigit ≠ []
    · rw [locatedRuns_cons_of_run hrun, List.mem_cons]
      refine or_congr_left ?_
      constructor
      · intro h
        cases h
        exact ⟨0, rfl, rfl, hrun.1, hrun.2, rfl⟩
      · rintro ⟨_, rfl, rfl, -, -, rfl⟩
        rfl
    · rw [locatedRuns_cons_of_not_run hrun, or_iff_right]
      rintro ⟨_, -, -, hsign, hne, hdigits⟩
      exact hrun ⟨hsign, by rwa [hdigits]⟩

theorem mem_indexRuns_iff :
    digits ∈ indexRuns text ↔ ∃ offset, (Body.index digits).StandsAt text offset := by
  rw [← map_snd_locatedRuns 0 text, List.mem_map]
  constructor
  · rintro ⟨⟨n, digits⟩, hrun, rfl⟩
    obtain ⟨within, -, hstands⟩ := mem_locatedRuns_iff.1 hrun
    exact ⟨within, hstands⟩
  · rintro ⟨offset, hstands⟩
    exact ⟨_, mem_locatedRuns_iff.2 ⟨offset, rfl, hstands⟩, rfl⟩

/-! ## The first index that is too great -/

structure FirstExceeding (text : List Char) (offset : Nat) (digits : List Char) : Prop where
  stands : (Body.index digits).StandsAt text offset
  exceeds : UInt32.size ≤ Text.numeralValue digits
  first : ∀ offset' digits', (Body.index digits').StandsAt text offset' → offset' < offset →
    Text.numeralValue digits' < UInt32.size

theorem FirstExceeding.cons (h : FirstExceeding cs offset digits)
    (hfirst : c = '?' → Text.numeralValue (cs.takeWhile Char.isDigit) < UInt32.size) :
    FirstExceeding (c :: cs) (c.utf8Size + offset) digits where
  stands := Body.standsAt_index_cons_iff.2 (Or.inr ⟨offset, rfl, h.stands⟩)
  exceeds := h.exceeds
  first := by
    intro offset' digits' hstands hlt
    rcases Body.standsAt_index_cons_iff.1 hstands with ⟨-, hsign, -, rfl⟩ | ⟨behind, rfl, hbehind⟩
    · exact hfirst hsign
    · exact h.first behind digits' hbehind (by omega)

theorem FirstExceeding.of_cons (h : FirstExceeding (c :: cs) offset digits)
    (hfirst : c = '?' → Text.numeralValue (cs.takeWhile Char.isDigit) < UInt32.size) :
    ∃ behind, FirstExceeding cs behind digits := by
  rcases Body.standsAt_index_cons_iff.1 h.stands with ⟨-, hsign, -, rfl⟩ | ⟨behind, rfl, hbehind⟩
  · have hbound := hfirst hsign
    have hexceeds := h.exceeds
    omega
  · refine ⟨behind, hbehind, h.exceeds, ?_⟩
    intro offset' digits' hstands hlt
    exact h.first _ digits' (Body.standsAt_index_cons_iff.2 (Or.inr ⟨offset', rfl, hstands⟩))
      (by omega)

theorem positionOfDigits_eq_error_iff {e : BindingError} :
    positionOfDigits digits = .error e ↔
      UInt32.size ≤ Text.numeralValue digits ∧ e = .indexOutOfRange (String.ofList digits) := by
  unfold positionOfDigits
  cases hword : Text.word? (Text.numeralValue digits) with
  | none =>
    have hbound := Text.word?_eq_none_iff.1 hword
    simp [hbound, @eq_comm _ e]
  | some word =>
    have hbound : word.toNat < UInt32.size := word.toNat_lt
    have hvalue := Text.toNat_of_word?_eq_some hword
    constructor
    · intro h
      cases h
    · intro h
      omega

theorem mapM_positionOfDigits_eq_error_iff {e : BindingError} :
    (indexRuns text).mapM positionOfDigits = .error e ↔
      ∃ offset digits, FirstExceeding text offset digits ∧
        e = .indexOutOfRange (String.ofList digits) := by
  induction text with
  | nil =>
    constructor
    · intro h
      cases h
    · intro h
      obtain ⟨offset, digits, hfirst, -⟩ := h
      exact absurd hfirst.stands Body.not_standsAt_nil
  | cons c cs ih =>
    -- an index at the beginning that fits does not change which one is the first that does not
    have hbehind (hfirst : c = '?' → Text.numeralValue (cs.takeWhile Char.isDigit) < UInt32.size) :
        (∃ offset digits, FirstExceeding (c :: cs) offset digits ∧
          e = .indexOutOfRange (String.ofList digits)) ↔
        ∃ offset digits, FirstExceeding cs offset digits ∧
          e = .indexOutOfRange (String.ofList digits) := by
      constructor
      · intro h
        obtain ⟨offset, digits, hexceeding, he⟩ := h
        obtain ⟨behind, hexceeding⟩ := hexceeding.of_cons hfirst
        exact ⟨behind, digits, hexceeding, he⟩
      · intro h
        obtain ⟨offset, digits, hexceeding, he⟩ := h
        exact ⟨_, digits, hexceeding.cons hfirst, he⟩
    by_cases hrun : c = '?' ∧ cs.takeWhile Char.isDigit ≠ []
    · obtain ⟨d, run, hd⟩ := List.exists_cons_of_ne_nil hrun.2
      have hstands : (Body.index (d :: run)).StandsAt (c :: cs) 0 :=
        Body.standsAt_index_cons_iff.2 (Or.inl ⟨rfl, hrun.1, by simp, hd⟩)
      rw [indexRuns_cons_of_run hrun.1 hd, List.mapM_cons, bind_eq_error_iff,
        positionOfDigits_eq_error_iff]
      by_cases hexceeds : UInt32.size ≤ Text.numeralValue (d :: run)
      · constructor
        · intro h
          rcases h with ⟨-, he⟩ | ⟨position, hposition, -⟩
          · refine ⟨0, d :: run, ⟨hstands, hexceeds, ?_⟩, he⟩
            intro offset' digits' _ hlt
            exact absurd hlt (Nat.not_lt_zero _)
          · have hbound := (positionOfDigits_eq_ok_iff.1 hposition).1
            omega
        · intro h
          obtain ⟨offset, digits, hexceeding, he⟩ := h
          rcases Body.standsAt_index_cons_iff.1 hexceeding.stands with
            ⟨-, -, -, hdigits⟩ | ⟨offset', rfl, -⟩
          · rw [hd] at hdigits
            exact Or.inl ⟨hexceeds, by rw [he, hdigits]⟩
          · have hsize := c.utf8Size_pos
            have hbound := hexceeding.first 0 (d :: run) hstands (by omega)
            omega
      · have hfirst : c = '?' → Text.numeralValue (cs.takeWhile Char.isDigit) < UInt32.size := by
          intro _
          rw [hd]
          omega
        have hposition := positionOfDigits_eq_ok_iff.2 ⟨Nat.lt_of_not_le hexceeds, rfl⟩
        rw [hbehind hfirst, ← ih]
        simp [hexceeds, hposition, bind_eq_error_iff, pure, Except.pure]
    · rw [indexRuns_cons_of_not_run hrun, ih, hbehind]
      intro hsign
      have hempty : cs.takeWhile Char.isDigit = [] := by
        by_contra hne
        exact hrun ⟨hsign, hne⟩
      rw [hempty]
      decide

/-- The search fails with the leftmost index that is no word of 32 bits, as it is written. -/
theorem greatestIndex_eq_error_iff {e : BindingError} :
    greatestIndex text = .error e ↔
      ∃ offset digits, FirstExceeding text offset digits ∧
        e = .indexOutOfRange (String.ofList digits) := by
  rw [greatestIndex, bind_eq_error_iff, mapM_positionOfDigits_eq_error_iff]
  simp [pure, Except.pure]

def IndicesFit (text : List Char) : Prop :=
  ∀ offset digits, (Body.index digits).StandsAt text offset →
    Text.numeralValue digits < UInt32.size

/-! ## The greatest index -/

/-- This is the greatest index of the text, wherever it stands, or zero if the text has none. -/
structure IsGreatestIndex (text : List Char) (greatest : Nat) : Prop where
  bound : ∀ offset digits, (Body.index digits).StandsAt text offset →
    Text.numeralValue digits ≤ greatest
  attained : greatest = 0 ∨
    ∃ offset digits, (Body.index digits).StandsAt text offset ∧
      Text.numeralValue digits = greatest

instance instLawfulOrderMaxWord : Std.LawfulOrderMax UInt32 :=
  have hmax (a b : UInt32) : max a b = if a ≤ b then b else a := rfl
  Std.LawfulOrderMax.of_max_le_iff
    (by
      intro a b c
      rw [hmax]
      simp only [UInt32.le_iff_toNat_le]
      split <;> omega)
    (by
      intro a b
      rw [hmax]
      split <;> simp)

theorem greatestIndex_eq_ok_iff {greatest : Option UInt32} :
    greatestIndex text = .ok greatest ↔
      (∀ digits ∈ indexRuns text, Text.numeralValue digits < UInt32.size) ∧
        greatest =
          ((indexRuns text).map fun digits => UInt32.ofNat (Text.numeralValue digits)).max? := by
  simp only [greatestIndex, bind_eq_ok_iff,
    mapM_eq_ok_iff (fun _ _ => positionOfDigits_eq_ok_iff)]
  constructor
  · intro h
    obtain ⟨positions, ⟨hbound, rfl⟩, h⟩ := h
    cases h
    exact ⟨hbound, rfl⟩
  · intro h
    obtain ⟨hbound, rfl⟩ := h
    exact ⟨_, ⟨hbound, rfl⟩, rfl⟩

theorem exists_greatestIndex_eq_ok_iff :
    (∃ greatest, greatestIndex text = .ok greatest) ↔ IndicesFit text := by
  simp only [greatestIndex_eq_ok_iff, exists_and_left, exists_eq, and_true, mem_indexRuns_iff,
    forall_exists_index]
  exact forall_comm

theorem isGreatestIndex_of_greatestIndex {greatest : Option UInt32}
    (h : greatestIndex text = .ok greatest) : IsGreatestIndex text (greatest.getD 0).toNat := by
  obtain ⟨hbound, rfl⟩ := greatestIndex_eq_ok_iff.1 h
  have hvalue {digits : List Char} (hmem : digits ∈ indexRuns text) :
      (UInt32.ofNat (Text.numeralValue digits)).toNat = Text.numeralValue digits :=
    UInt32.toNat_ofNat_of_lt' (hbound digits hmem)
  cases hmax :
    ((indexRuns text).map fun digits => UInt32.ofNat (Text.numeralValue digits)).max? with
  | none =>
    have hnone : indexRuns text = [] := by simpa using hmax
    refine ⟨?_, Or.inl rfl⟩
    intro offset digits hstands
    have hmem := mem_indexRuns_iff.2 ⟨offset, hstands⟩
    rw [hnone] at hmem
    cases hmem
  | some position =>
    obtain ⟨hmem, hgreatest⟩ := List.max?_eq_some_iff.1 hmax
    obtain ⟨digits, hdigits, rfl⟩ := List.mem_map.1 hmem
    constructor
    · intro offset digits' hstands
      have hmem' := mem_indexRuns_iff.2 ⟨offset, hstands⟩
      have hle := hgreatest _ (List.mem_map_of_mem hmem')
      rwa [UInt32.le_iff_toNat_le, hvalue hmem'] at hle
    · obtain ⟨offset, hstands⟩ := mem_indexRuns_iff.1 hdigits
      exact Or.inr ⟨offset, digits, hstands, (hvalue hdigits).symm⟩

theorem exists_mem_indexRuns_iff :
    (∃ digits, digits ∈ indexRuns text) ↔ ∃ d, d.isDigit = true ∧ ['?', d] <:+: text := by
  constructor
  · intro h
    obtain ⟨digits, hdigits⟩ := h
    obtain ⟨offset, earlier, later, rfl, -, hformed, -⟩ := mem_indexRuns_iff.1 hdigits
    obtain ⟨d, digits, rfl⟩ := List.exists_cons_of_ne_nil hformed.1
    refine ⟨d, hformed.2 d (by simp), earlier, digits ++ later, ?_⟩
    simp [Body.text]
  · intro h
    obtain ⟨d, hd, earlier, later, rfl⟩ := h
    obtain ⟨run, hrun⟩ : ∃ run, (d :: later).takeWhile Char.isDigit = run := ⟨_, rfl⟩
    obtain ⟨hsplit, hdigits, hends⟩ := Text.takeWhile_eq_and_dropWhile_eq_iff.1 ⟨hrun, rfl⟩
    have hne : run ≠ [] := by
      rw [← hrun]
      simp [hd]
    refine ⟨run, ?_⟩
    rw [List.append_assoc, List.cons_append, List.singleton_append, hsplit]
    exact mem_indexRuns hne hdigits hends

theorem isSome_greatestIndex_iff {greatest : Option UInt32}
    (h : greatestIndex text = .ok greatest) :
    greatest.isSome = true ↔ ∃ d, d.isDigit = true ∧ ['?', d] <:+: text := by
  obtain ⟨-, rfl⟩ := greatestIndex_eq_ok_iff.1 h
  rw [← exists_mem_indexRuns_iff, List.isSome_max?_iff]
  cases indexRuns text with
  | nil => simp
  | cons digits runs => simp

end QueryParams
