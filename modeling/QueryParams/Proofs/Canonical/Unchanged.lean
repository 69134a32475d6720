import QueryParams.Proofs.Canonical.Form
import QueryParams.Proofs.Extraction.Bindings

/-!
# Queries that stay as they are

Every expression has a `#` and every decoration a `%`, and neither sign is written when a parameter
is rewritten. So no part of a text gets more of these signs and each rewritten parameter loses some:
however many parameters are rewritten, one to a shorter and another to a longer text, they do not
make up for one another.

Main statement: `ParsedQuery.parse_text_unchanged_iff`.
-/

namespace QueryParams

/-! ## Marks -/

namespace Text

def marks (cs : List Char) : Nat := cs.countP fun c => c == '#' || c == '%'

@[simp] theorem marks_append (as bs : List Char) : marks (as ++ bs) = marks as + marks bs :=
  List.countP_append

theorem marks_eq_zero {cs : List Char} (h : ∀ c ∈ cs, c ≠ '#' ∧ c ≠ '%') : marks cs = 0 := by
  rw [marks, List.countP_eq_zero]
  intro c hc
  simpa using h c hc

theorem marks_pos {cs : List Char} {c : Char} (hc : c ∈ cs) (h : c = '#' ∨ c = '%') :
    0 < marks cs := by
  rw [marks, List.countP_pos_iff]
  exact ⟨c, hc, by simpa using h⟩

theorem marks_optional (present : Bool) : marks (optional present '%') = present.toNat := by
  cases present <;> decide

end Text

open Text

/-! ## A placeholder -/

namespace Placeholder

variable {numbering : Numbering} {number : Nat} {p : Placeholder}

/-- Nothing is left to be rewritten: the placeholder is no expression, and no LIKE placeholder with
a `%` on a side. -/
structure Settled (p : Placeholder) : Prop where
  literal : p.isExpression = false
  bare : p.isLike = true → p.leading = false ∧ p.trailing = false

theorem marks_token (numbering : Numbering) (number : Nat) :
    marks (numbering.token number) = 0 := by
  have hname {c : Char} (hc : isNameChar c = true) : c ≠ '#' ∧ c ≠ '%' :=
    ⟨ne_of_isNameChar hc (by decide), ne_of_isNameChar hc (by decide)⟩
  have hdigit {c : Char} (hc : c ∈ numeral number) : c ≠ '#' ∧ c ≠ '%' :=
    hname (isNameChar_of_isDigit (isDigit_of_mem_numeral hc))
  apply marks_eq_zero
  intro c hc
  cases numbering with
  | positional =>
    rcases List.mem_cons.1 hc with rfl | hc
    · decide
    · exact hdigit hc
  | named =>
    have hall : Numbering.syntheticPrefix.toList.all isNameChar = true := by decide
    rcases List.mem_append.1 hc with hc | hc
    · rcases List.mem_cons.1 hc with rfl | hc
      · decide
      · exact hname (List.all_eq_true.1 hall c hc)
    · exact hdigit hc

theorem marks_body_pos (h : p.isExpression = true) : 0 < marks p.body.text := by
  unfold isExpression at h
  cases hbody : p.body with
  | index digits => simp [hbody, Body.expression?] at h
  | name identifier => simp [hbody, Body.expression?] at h
  | expression sign source => exact marks_pos (c := '#') (by simp [Body.text]) (Or.inl rfl)

theorem cleaned_of_settled (h : p.Settled) : p.cleaned numbering number = p.text := by
  have hcanonical : p.canonical = p := by
    unfold canonical
    split
    · rename_i hlike
      obtain ⟨hleading, htrailing⟩ := h.bare hlike
      cases p
      cases hleading
      cases htrailing
      rfl
    · rfl
  rw [cleaned_eq_text_canonical h.literal, hcanonical]

/-- A placeholder that is rewritten loses marks: an expression its `#`, and a LIKE placeholder its
decoration. -/
theorem marks_cleaned_lt (h : ¬ p.Settled) : marks (p.cleaned numbering number) < marks p.text := by
  have hdecorated : marks p.decorated =
      p.leading.toNat + marks p.body.text + p.trailing.toNat := by
    rw [decorated, marks_append, marks_append, marks_optional, marks_optional]
  have htext : marks p.text = marks p.front + marks p.decorated + marks p.back := by
    rw [text, marks_append, marks_append]
  cases hexpression : p.isExpression with
  | true =>
    have hpos := marks_body_pos hexpression
    have htoken := marks_token numbering number
    simp only [cleaned, replacement?, hexpression, if_true, Option.getD_some, marks_append]
    omega
  | false =>
    have hlike : p.isLike = true := by
      by_contra hlike
      exact h ⟨hexpression, fun hlike' => absurd hlike' hlike⟩
    have hside : p.leading = true ∨ p.trailing = true := by
      by_contra hside
      exact h ⟨hexpression, fun _ => by simpa using hside⟩
    have hloss : 0 < p.leading.toNat + p.trailing.toNat := by
      rcases hside with hside | hside <;> simp only [hside, Bool.toNat_true] <;> omega
    simp only [cleaned, replacement?, hexpression, hlike, Bool.false_eq_true, if_false, if_true,
      Option.getD_some, marks_append]
    omega

end Placeholder

/-! ## Segments -/

namespace Segment

variable {numbering : Numbering}

def Settled (s : Segment) : Prop := ∀ p ∈ s.parameter?, p.Settled

theorem cleaned_of_settled {m : Nat × Segment} (h : m.2.Settled) :
    cleaned numbering m = m.2.text := by
  obtain ⟨number, s⟩ := m
  cases s with
  | verbatim written => rfl
  | parameter p => exact Placeholder.cleaned_of_settled (h p rfl)

theorem marks_cleaned_lt {m : Nat × Segment} (h : ¬ m.2.Settled) :
    marks (cleaned numbering m) < marks m.2.text := by
  obtain ⟨number, s⟩ := m
  cases s with
  | verbatim written => exact absurd (by simp [Settled, parameter?]) h
  | parameter p =>
    apply Placeholder.marks_cleaned_lt
    intro hp
    exact h (by simpa [Settled, parameter?] using hp)

theorem marks_flatMap_cleaned (ms : List (Nat × Segment)) :
    marks (ms.flatMap (cleaned numbering)) ≤ marks (ms.flatMap (·.2.text)) ∧
      ((∃ m ∈ ms, ¬ m.2.Settled) →
        marks (ms.flatMap (cleaned numbering)) < marks (ms.flatMap (·.2.text))) := by
  induction ms with
  | nil => simp
  | cons m ms ih =>
    obtain ⟨hle, hlt⟩ := ih
    rw [List.flatMap_cons, List.flatMap_cons, marks_append, marks_append]
    by_cases hm : m.2.Settled
    · rw [cleaned_of_settled hm]
      constructor
      · omega
      · intro h
        have hrest : ∃ m ∈ ms, ¬ m.2.Settled := by simpa [hm] using h
        have := hlt hrest
        omega
    · have hfirst := @marks_cleaned_lt numbering m hm
      constructor
      · omega
      · intro _
        omega

theorem flatMap_cleaned_eq_iff {ms : List (Nat × Segment)} :
    ms.flatMap (cleaned numbering) = ms.flatMap (·.2.text) ↔ ∀ m ∈ ms, m.2.Settled := by
  constructor
  · intro heq m hm
    by_contra hsettled
    have hlt := (@marks_flatMap_cleaned numbering ms).2 ⟨m, hm, hsettled⟩
    rw [heq] at hlt
    omega
  · intro h
    exact List.flatMap_congr fun m hm => cleaned_of_settled (h m hm)

end Segment

/-! ## A query -/

theorem Survey.cleaned_eq_iff {survey : Survey} {text : List Char}
    (hsurvey : Survey.ofText text = .ok survey) :
    survey.cleaned text = text ↔
      ∀ o ∈ Placeholder.parameters survey.quotations text, o.placeholder.Settled := by
  obtain ⟨-, hquotations, -⟩ := Survey.ofText_eq_ok_iff.1 hsurvey
  have hsnd := Numbering.map_snd_assign Segment.takesNumber survey.greatest.toNat
    (Segment.ofText survey.quotations text)
  have htext : (Numbering.assign Segment.takesNumber survey.greatest.toNat
      (Segment.ofText survey.quotations text)).flatMap (·.2.text) = text := by
    calc
      _ = (Segment.ofText survey.quotations text).flatMap Segment.text := by
        rw [← List.flatMap_map, hsnd]
      _ = (Piece.ofText text).flatMap Piece.text := by
        rw [Segment.ofText_eq_ofPieces hquotations, Segment.flatMap_text_ofPieces]
      _ = text := Piece.flatMap_text_ofText text
  calc
    survey.cleaned text = text ↔ ∀ m ∈ Numbering.assign Segment.takesNumber survey.greatest.toNat
        (Segment.ofText survey.quotations text), m.2.Settled := by
      rw [← Segment.flatMap_cleaned_eq_iff, htext, cleaned]
    _ ↔ ∀ s ∈ Segment.ofText survey.quotations text, s.Settled := by
      rw [← hsnd, List.forall_mem_map, hsnd]
    _ ↔ _ := Segment.forall_parameter?_ofText_iff

/-- A query that is parsed is its own cleaned text exactly if it has no expression parameter and no
LIKE parameter with a `%` on a side. -/
theorem ParsedQuery.parse_text_unchanged_iff {query : String} {survey : Survey} {q : ParsedQuery}
    (hsurvey : Survey.ofText query.toList = .ok survey) (hparse : parse query = .ok q) :
    q.text = query ↔
      ∀ o ∈ Placeholder.parameters survey.quotations query.toList,
        o.placeholder.isExpression = false ∧
          (o.placeholder.isLike = true →
            o.placeholder.leading = false ∧ o.placeholder.trailing = false) := by
  obtain ⟨-, htext, -⟩ := (parse_eq_ok_iff hsurvey).1 hparse
  have hsettled (p : Placeholder) : p.Settled ↔
      p.isExpression = false ∧ (p.isLike = true → p.leading = false ∧ p.trailing = false) :=
    ⟨fun h => ⟨h.literal, h.bare⟩, fun h => ⟨h.1, h.2⟩⟩
  rw [htext, ← String.toList_inj, String.toList_ofList, Survey.cleaned_eq_iff hsurvey]
  simp only [hsettled]

theorem ParsedQuery.parse_text_unchanged_iff_bare_and_quoted :
    ∃ survey q,
      Survey.ofText "a like :x or b in (%?1%) or c = 'like %:y% :#{e}'".toList = .ok survey ∧
      parse "a like :x or b in (%?1%) or c = 'like %:y% :#{e}'" = .ok q ∧
      q.text = "a like :x or b in (%?1%) or c = 'like %:y% :#{e}'" := by
  have hsurvey : Survey.ofText "a like :x or b in (%?1%) or c = 'like %:y% :#{e}'".toList =
      .ok ⟨.positional, 1, { ranges := [⟨32, 49, by decide⟩], ascending := by simp }⟩ := by
    decide +kernel
  have hparse : parse "a like :x or b in (%?1%) or c = 'like %:y% :#{e}'" = .ok
      { text := "a like :x or b in (%?1%) or c = 'like %:y% :#{e}'"
        registry := ⟨[{ key := .name "x", kind := .like .exact },
          { key := .position 1, kind := .collection }], by decide⟩
        usesPaging := false } := by
    decide +kernel
  exact ⟨_, _, hsurvey, hparse, (parse_text_unchanged_iff hsurvey hparse).2 (by decide +kernel)⟩

end QueryParams
