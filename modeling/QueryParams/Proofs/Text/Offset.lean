import QueryParams.Span

/-!
# Cuts of a text

A text can be cut at the width of each of its beginnings, and at no two beginnings of the same
width. What stands between two cuts is the slice of their span.
-/

namespace QueryParams

namespace Text

theorem width_pos_of_ne_nil {cs : List Char} (h : cs ≠ []) : 0 < width cs := by
  cases cs with
  | nil => exact absurd rfl h
  | cons c cs =>
    have hsize := c.utf8Size_pos
    rw [width_cons]
    omega

theorem eq_nil_of_width_eq_zero {cs : List Char} (h : width cs = 0) : cs = [] := by
  cases cs with
  | nil => rfl
  | cons c cs =>
    have hpos := width_pos_of_ne_nil (List.cons_ne_nil c cs)
    omega

theorem splitAt?_width (before behind : List Char) :
    splitAt? (width before) (before ++ behind) = some (before, behind) := by
  induction before with
  | nil => cases behind <;> rfl
  | cons c before ih =>
    have hsize := c.utf8Size_pos
    obtain ⟨n, hn⟩ : ∃ n, width (c :: before) = n + 1 := ⟨c.utf8Size + width before - 1, by
      rw [width_cons]; omega⟩
    have hle : c.utf8Size ≤ n + 1 := by rw [← hn, width_cons]; omega
    have hsub : n + 1 - c.utf8Size = width before := by rw [← hn, width_cons]; omega
    rw [hn, List.cons_append, splitAt?, if_pos hle, hsub, ih]
    rfl

theorem eq_append_of_splitAt? {n : Nat} {cs before behind : List Char}
    (h : splitAt? n cs = some (before, behind)) : cs = before ++ behind ∧ n = width before := by
  fun_induction splitAt? n cs generalizing before behind with
  | case1 cs =>
    cases h
    exact ⟨rfl, rfl⟩
  | case2 => cases h
  | case3 n c cs hle ih =>
    obtain ⟨⟨front, rest⟩, hcut, heq⟩ := Option.map_eq_some_iff.1 h
    obtain ⟨rfl, hwidth⟩ := ih hcut
    cases heq
    refine ⟨rfl, ?_⟩
    rw [width_cons, ← hwidth]
    omega
  | case4 => cases h

def charAt? (text : List Char) (offset : Nat) : Option Char :=
  (splitAt? offset text).bind fun parts => parts.2.head?

theorem charAt?_width (before behind : List Char) :
    charAt? (before ++ behind) (width before) = behind.head? := by
  rw [charAt?, splitAt?_width, Option.bind_some]

/-- Of two beginnings of one text, the narrower one is a beginning of the wider one. -/
theorem exists_append_of_width_le {before behind before' behind' : List Char}
    (h : before ++ behind = before' ++ behind') (hle : width before ≤ width before') :
    ∃ between, before' = before ++ between ∧ behind = between ++ behind' := by
  rcases List.append_eq_append_iff.1 h with ⟨between, h₁, h₂⟩ | ⟨between, h₁, h₂⟩
  · exact ⟨between, h₁, h₂⟩
  · rw [h₁, width_append] at hle
    obtain rfl : between = [] := eq_nil_of_width_eq_zero (by omega)
    exact ⟨[], by simpa using h₁.symm, by simpa using h₂.symm⟩

theorem eq_of_width_eq {before behind before' behind' : List Char}
    (h : before ++ behind = before' ++ behind') (hwidth : width before = width before') :
    before = before' ∧ behind = behind' := by
  obtain ⟨between, hbefore, hbehind⟩ := exists_append_of_width_le h (Nat.le_of_eq hwidth)
  rw [hbefore, width_append] at hwidth
  obtain rfl : between = [] := eq_nil_of_width_eq_zero (by omega)
  exact ⟨by simpa using hbefore.symm, by simpa using hbehind⟩

end Text

namespace Span

@[simp] theorem start_ofText (offset : Nat) (cs : List Char) : (ofText offset cs).start = offset :=
  rfl

@[simp] theorem stop_ofText (offset : Nat) (cs : List Char) :
    (ofText offset cs).stop = offset + Text.width cs := rfl

theorem contains_ofText_of_eq {offset : Nat} {cs before behind : List Char} {c : Char}
    (h : cs = before ++ c :: behind) :
    (ofText offset cs).contains (offset + Text.width before) = true := by
  have hsize := c.utf8Size_pos
  rw [contains_iff, start_ofText, stop_ofText, h, Text.width_append, Text.width_cons]
  omega

theorem contains_ofText_append (offset : Nat) (cs beyond : List Char) :
    (ofText offset cs).contains (offset + Text.width (cs ++ beyond)) = false := by
  rw [Bool.eq_false_iff, ne_eq, contains_iff, start_ofText, stop_ofText, Text.width_append]
  omega

/-- Of members that follow one another without overlap, no two contain one offset. -/
theorem eq_of_contains {α : Type} {span : α → Span} {as : List α} {a b : α} {offset : Nat}
    (h : as.Pairwise fun a later => (span a).stop ≤ (span later).start) (ha : a ∈ as) (hb : b ∈ as)
    (hoffset : (span a).contains offset = true) (hoffset' : (span b).contains offset = true) :
    a = b := by
  rw [contains_iff] at hoffset hoffset'
  obtain ⟨i, hi, rfl⟩ := List.mem_iff_getElem.1 ha
  obtain ⟨j, hj, rfl⟩ := List.mem_iff_getElem.1 hb
  rw [List.pairwise_iff_getElem] at h
  rcases Nat.lt_trichotomy i j with hij | rfl | hij
  · have hle := h i j hi hj hij
    omega
  · rfl
  · have hle := h j i hj hi hij
    omega

theorem slice?_ofText (before covered behind : List Char) :
    (ofText (Text.width before) covered).slice? (before ++ covered ++ behind) = some covered := by
  have hlength : (ofText (Text.width before) covered).length = Text.width covered := by
    simp [length]
  rw [slice?, hlength, start_ofText, List.append_assoc]
  simp [Text.splitAt?_width]

theorem exists_eq_append_of_slice? {s : Span} {text covered : List Char}
    (h : s.slice? text = some covered) :
    ∃ before behind, text = before ++ covered ++ behind ∧ s.start = Text.width before ∧
      s.stop = Text.width before + Text.width covered := by
  obtain ⟨⟨before, rest⟩, hstart, h⟩ := Option.bind_eq_some_iff.1 h
  obtain ⟨⟨inside, behind⟩, hlength, h⟩ := Option.bind_eq_some_iff.1 h
  cases h
  obtain ⟨rfl, hbefore⟩ := Text.eq_append_of_splitAt? hstart
  obtain ⟨rfl, hinside⟩ := Text.eq_append_of_splitAt? hlength
  refine ⟨before, behind, (List.append_assoc ..).symm, hbefore, ?_⟩
  have hle := s.start_le_stop
  rw [length] at hinside
  omega

end Span

end QueryParams
