import QueryParams.Proofs.Text.Offset

/-!
# Rewriting a text in places

Several parts of a text are replaced at once. What becomes of a character depends on its own offset
only, so the order of the edits does not matter, and what no edit covers is copied.
-/

namespace QueryParams.Text

structure Edit where
  span : Span
  written : List Char
  deriving DecidableEq, Repr

/-- A text that begins at `offset` with all edits made at once. The new text of an edit is written
where its span begins, a character that a span covers is left out, and any other one is copied. -/
def rewrite (edits : List Edit) : Nat → List Char → List Char
  | _, [] => []
  | offset, c :: cs =>
    (edits.filter (·.span.start = offset)).flatMap Edit.written ++
      (if edits.any (·.span.contains offset) then [] else [c]) ++
        rewrite edits (offset + c.utf8Size) cs

variable {edits : List Edit}

theorem rewrite_append (offset : Nat) (as bs : List Char) :
    rewrite edits offset (as ++ bs) =
      rewrite edits offset as ++ rewrite edits (offset + width as) bs := by
  induction as generalizing offset with
  | nil => rfl
  | cons a as ih =>
    rw [List.cons_append, rewrite, rewrite, ih, width_cons, Nat.add_assoc]
    simp only [List.append_assoc]

def Edit.Avoids (start stop : Nat) (e : Edit) : Prop :=
  e.span.start < e.span.stop ∧ (e.span.stop ≤ start ∨ stop ≤ e.span.start)

theorem Edit.Avoids.mono {start stop start' stop' : Nat} {e : Edit} (h : e.Avoids start stop)
    (hstart : start ≤ start') (hstop : stop' ≤ stop) : e.Avoids start' stop' := by
  obtain ⟨hnonempty, haway⟩ := h
  refine ⟨hnonempty, ?_⟩
  omega

theorem filter_start_eq_nil {offset stop : Nat} (hlt : offset < stop)
    (h : ∀ e ∈ edits, e.Avoids offset stop) : edits.filter (·.span.start = offset) = [] := by
  rw [List.filter_eq_nil_iff]
  intro e he
  obtain ⟨hnonempty, haway⟩ := h e he
  simp only [decide_eq_true_eq]
  omega

theorem any_contains_eq_false {offset stop : Nat} (hlt : offset < stop)
    (h : ∀ e ∈ edits, e.Avoids offset stop) : edits.any (·.span.contains offset) = false := by
  rw [List.any_eq_false]
  intro e he
  obtain ⟨hnonempty, haway⟩ := h e he
  rw [Span.contains_iff]
  omega

theorem rewrite_eq_self {offset : Nat} {cs : List Char}
    (h : ∀ e ∈ edits, e.Avoids offset (offset + width cs)) : rewrite edits offset cs = cs := by
  induction cs generalizing offset with
  | nil => rfl
  | cons c cs ih =>
    have hsize := c.utf8Size_pos
    have hlt : offset < offset + width (c :: cs) := by rw [width_cons]; omega
    have hrest : ∀ e ∈ edits, e.Avoids (offset + c.utf8Size) (offset + c.utf8Size + width cs) := by
      intro e he
      exact (h e he).mono (by omega) (by rw [width_cons]; omega)
    rw [rewrite, filter_start_eq_nil hlt h, any_contains_eq_false hlt h, ih hrest]
    rfl

theorem rewrite_eq_nil {offset : Nat} {cs : List Char}
    (hstart : ∀ e ∈ edits, e.span.start < offset ∨ offset + width cs ≤ e.span.start)
    (hcover : ∃ e ∈ edits, e.span.start ≤ offset ∧ offset + width cs ≤ e.span.stop) :
    rewrite edits offset cs = [] := by
  induction cs generalizing offset with
  | nil => rfl
  | cons c cs ih =>
    have hsize := c.utf8Size_pos
    rw [width_cons] at hstart hcover
    obtain ⟨covering, hmem, hcovers⟩ := hcover
    have hnone : edits.filter (·.span.start = offset) = [] := by
      rw [List.filter_eq_nil_iff]
      intro e he
      have hcases := hstart e he
      simp only [decide_eq_true_eq]
      omega
    have hcontained : edits.any (·.span.contains offset) = true := by
      rw [List.any_eq_true]
      refine ⟨covering, hmem, ?_⟩
      rw [Span.contains_iff]
      omega
    have hrest : rewrite edits (offset + c.utf8Size) cs = [] := by
      apply ih
      · intro e he
        have hcases := hstart e he
        omega
      · refine ⟨covering, hmem, ?_⟩
        omega
    rw [rewrite, hnone, hcontained, hrest]
    rfl

theorem rewrite_eq_written {offset : Nat} {cs : List Char} {earlier later : List Edit} {e : Edit}
    (hne : cs ≠ []) (hspan : e.span = Span.ofText offset cs)
    (hearlier : ∀ e ∈ earlier, e.Avoids offset (offset + width cs))
    (hlater : ∀ e ∈ later, e.Avoids offset (offset + width cs)) :
    rewrite (earlier ++ e :: later) offset cs = e.written := by
  obtain ⟨c, cs, rfl⟩ := List.exists_cons_of_ne_nil hne
  have hsize := c.utf8Size_pos
  have hstart : e.span.start = offset := by rw [hspan, Span.start_ofText]
  have hstop : e.span.stop = offset + (c.utf8Size + width cs) := by
    rw [hspan, Span.stop_ofText, width_cons]
  have hlt : offset < offset + width (c :: cs) := by rw [width_cons]; omega
  have hfilter : (earlier ++ e :: later).filter (·.span.start = offset) = [e] := by
    rw [List.filter_append, List.filter_cons_of_pos (by simpa using hstart),
      filter_start_eq_nil hlt hearlier, filter_start_eq_nil hlt hlater]
    rfl
  have hcontained : (earlier ++ e :: later).any (·.span.contains offset) = true := by
    rw [List.any_eq_true]
    refine ⟨e, by simp, ?_⟩
    rw [Span.contains_iff]
    omega
  have hrest : rewrite (earlier ++ e :: later) (offset + c.utf8Size) cs = [] := by
    apply rewrite_eq_nil
    · intro e' he'
      have haway : e' = e ∨ e'.Avoids offset (offset + width (c :: cs)) := by
        rcases List.mem_append.1 he' with he' | he'
        · exact Or.inr (hearlier e' he')
        · rcases List.mem_cons.1 he' with he' | he'
          · exact Or.inl he'
          · exact Or.inr (hlater e' he')
      rcases haway with rfl | ⟨hnonempty, haway⟩
      · omega
      · rw [width_cons] at haway
        omega
    · refine ⟨e, by simp, ?_⟩
      omega
  rw [rewrite, hfilter, hcontained, hrest]
  simp

end QueryParams.Text
