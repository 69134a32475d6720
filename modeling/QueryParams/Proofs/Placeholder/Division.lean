import QueryParams.Placeholder.Scan
import QueryParams.Proofs.Text.Offset

/-!
# The division of a text

A list of pieces is the division of the text that it makes up exactly if every piece is what is read
at its place. The placeholders among the pieces are the occurrences of the text: they follow one
another without overlap, and at a place that none of them covers nothing can be read.
-/

namespace QueryParams

theorem Placeholder.readUnescaped?_nil (before : Option Char) :
    readUnescaped? before [] = none := by
  cases hread : readUnescaped? before [] with
  | none => rfl
  | some found =>
    have hlt := length_lt_of_readUnescaped? hread
    cases hlt

namespace Piece

theorem text_ne_nil (piece : Piece) : piece.text ≠ [] := by
  cases piece with
  | plain c => simp [text]
  | placeholder p => exact p.text_ne_nil

def IsReadAt (before : Option Char) (rest : List Char) : Piece → Prop
  | plain c => Placeholder.readUnescaped? before (c :: rest) = none
  | placeholder p => Placeholder.readUnescaped? before (p.text ++ rest) = some (p, rest)

theorem split_of_readUnescaped?_eq_some {before : Option Char} {c : Char} {cs rest : List Char}
    {p : Placeholder} (h : Placeholder.readUnescaped? before (c :: cs) = some (p, rest)) :
    split before (c :: cs) = placeholder p :: split p.text.getLast? rest := by
  rw [split.eq_def]
  simp only
  split
  · rename_i hread
    cases h.symm.trans hread
    rfl
  · rename_i hread
    cases h.symm.trans hread

theorem split_of_readUnescaped?_eq_none {before : Option Char} {c : Char} {cs : List Char}
    (h : Placeholder.readUnescaped? before (c :: cs) = none) :
    split before (c :: cs) = plain c :: split (some c) cs := by
  rw [split.eq_def]
  simp only
  split
  · rename_i hread
    cases h.symm.trans hread
  · rfl

/-- What stands in front of a text matters only for what the text begins with. -/
theorem split_congr {before before' : Option Char} {cs : List Char}
    (h : Placeholder.readUnescaped? before cs = Placeholder.readUnescaped? before' cs) :
    split before cs = split before' cs := by
  cases cs with
  | nil => rw [split.eq_def, split.eq_def]
  | cons c cs =>
    cases hread : Placeholder.readUnescaped? before' (c :: cs) with
    | none =>
      rw [split_of_readUnescaped?_eq_none hread, split_of_readUnescaped?_eq_none (h.trans hread)]
    | some found =>
      rw [split_of_readUnescaped?_eq_some hread, split_of_readUnescaped?_eq_some (h.trans hread)]

theorem split_eq_cons_iff {before : Option Char} {cs : List Char} {piece : Piece}
    {pieces : List Piece} :
    split before cs = piece :: pieces ↔
      ∃ rest, cs = piece.text ++ rest ∧ piece.IsReadAt before rest ∧
        split piece.text.getLast? rest = pieces := by
  constructor
  · intro h
    cases cs with
    | nil => simp [split.eq_def] at h
    | cons c cs =>
      cases hread : Placeholder.readUnescaped? before (c :: cs) with
      | none =>
        rw [split_of_readUnescaped?_eq_none hread] at h
        cases h
        exact ⟨cs, rfl, hread, rfl⟩
      | some found =>
        obtain ⟨p, rest⟩ := found
        rw [split_of_readUnescaped?_eq_some hread] at h
        cases h
        have hcs := Placeholder.eq_text_append_of_read? (Option.filter_eq_some_iff.1 hread).1
        exact ⟨rest, hcs, by rwa [hcs] at hread, rfl⟩
  · rintro ⟨rest, rfl, hread, rfl⟩
    cases piece with
    | plain c => exact split_of_readUnescaped?_eq_none hread
    | placeholder p =>
      have hsome : Placeholder.readUnescaped? before (p.text ++ rest) = some (p, rest) := hread
      obtain ⟨c, cs, hcs⟩ := List.exists_cons_of_ne_nil p.text_ne_nil
      have hstart : p.text ++ rest = c :: (cs ++ rest) := by rw [hcs, List.cons_append]
      rw [hstart] at hsome
      rw [text, hstart, split_of_readUnescaped?_eq_some hsome]

theorem head?_flatMap_text_cons (piece : Piece) (pieces : List Piece) :
    ((piece :: pieces).flatMap text).head? = piece.text.head? := by
  obtain ⟨c, cs, hpiece⟩ := List.exists_cons_of_ne_nil piece.text_ne_nil
  rw [List.flatMap_cons, hpiece]
  rfl

theorem getLast?_flatMap_text_cons_or (piece : Piece) (pieces : List Piece)
    (before : Option Char) :
    ((piece :: pieces).flatMap text).getLast?.or before =
      (pieces.flatMap text).getLast?.or piece.text.getLast? := by
  rw [List.flatMap_cons, List.getLast?_append, List.getLast?_eq_some_getLast piece.text_ne_nil,
    Option.or_assoc, Option.some_or]

/-- A list of pieces is the division of its text exactly if each of them is read where it stands. -/
theorem split_flatMap_text_eq_iff {before : Option Char} {pieces : List Piece} :
    split before (pieces.flatMap text) = pieces ↔
      ∀ earlier piece later, pieces = earlier ++ piece :: later →
        piece.IsReadAt ((earlier.flatMap text).getLast?.or before) (later.flatMap text) := by
  induction pieces generalizing before with
  | nil => simp [split.eq_def]
  | cons first pieces ih =>
    rw [split_eq_cons_iff]
    constructor
    · rintro ⟨rest, hrest, hread, hsplit⟩ earlier piece later heq
      have hflat : pieces.flatMap text = rest := by
        rw [List.flatMap_cons] at hrest
        exact List.append_cancel_left hrest
      cases earlier with
      | nil =>
        cases heq
        rw [hflat]
        simpa using hread
      | cons first' earlier =>
        cases heq
        rw [getLast?_flatMap_text_cons_or]
        exact ih.1 (by rw [hflat, hsplit]) earlier piece later rfl
    · intro h
      refine ⟨pieces.flatMap text, List.flatMap_cons .., by simpa using h [] first pieces rfl, ?_⟩
      refine ih.2 fun earlier piece later heq => ?_
      rw [← getLast?_flatMap_text_cons_or]
      exact h (first :: earlier) piece later (by rw [heq]; rfl)

theorem eq_append_of_ofText_eq {cs : List Char} {earlier later : List Piece} {piece : Piece}
    (h : ofText cs = earlier ++ piece :: later) :
    cs = earlier.flatMap text ++ (piece.text ++ later.flatMap text) := by
  have hflat := flatMap_text_ofText cs
  rw [h, List.flatMap_append, List.flatMap_cons] at hflat
  exact hflat.symm

theorem isReadAt_of_ofText_eq {cs : List Char} {earlier later : List Piece} {piece : Piece}
    (h : ofText cs = earlier ++ piece :: later) :
    piece.IsReadAt (earlier.flatMap text).getLast? (later.flatMap text) := by
  have hsplit : split none ((ofText cs).flatMap text) = ofText cs := by
    rw [flatMap_text_ofText]
    rfl
  simpa using split_flatMap_text_eq_iff.1 hsplit earlier piece later h

/-- A cut in front of a character of the text lies at or inside one piece. -/
theorem exists_piece_of_flatMap_text_eq {pieces : List Piece} {before behind : List Char} {c : Char}
    (h : pieces.flatMap text = before ++ c :: behind) :
    ∃ earlier piece later inner outer, pieces = earlier ++ piece :: later ∧
      piece.text = inner ++ c :: outer ∧ before = earlier.flatMap text ++ inner ∧
        behind = outer ++ later.flatMap text := by
  induction pieces generalizing before with
  | nil => simp at h
  | cons first pieces ih =>
    rw [List.flatMap_cons] at h
    rcases List.append_eq_append_iff.1 h with ⟨between, rfl, hbetween⟩ | ⟨between, hfirst, hbetween⟩
    · obtain ⟨earlier, piece, later, inner, outer, rfl, hpiece, rfl, rfl⟩ := ih hbetween
      exact ⟨first :: earlier, piece, later, inner, outer, rfl, hpiece, by simp, rfl⟩
    · cases between with
      | nil =>
        obtain ⟨earlier, piece, later, inner, outer, rfl, hpiece, hinner, rfl⟩ :=
          @ih [] (by simpa using hbetween.symm)
        refine ⟨first :: earlier, piece, later, inner, outer, rfl, hpiece, ?_, rfl⟩
        rw [List.flatMap_cons, List.append_assoc, ← hinner, hfirst, List.append_nil,
          List.append_nil]
      | cons d between =>
        cases hbetween
        exact ⟨[], first, pieces, before, between, rfl, hfirst, by simp, rfl⟩

theorem locate_append (offset : Nat) (as bs : List Piece) :
    locate offset (as ++ bs) =
      locate offset as ++ locate (offset + Text.width (as.flatMap text)) bs := by
  induction as generalizing offset with
  | nil => simp [locate]
  | cons a as ih =>
    rw [List.cons_append, locate, locate, ih, List.flatMap_cons, Text.width_append, Nat.add_assoc,
      List.cons_append]

theorem mem_locate_iff {offset n : Nat} {piece : Piece} {pieces : List Piece} :
    (n, piece) ∈ locate offset pieces ↔
      ∃ earlier later, pieces = earlier ++ piece :: later ∧
        n = offset + Text.width (earlier.flatMap text) := by
  constructor
  · intro h
    induction pieces generalizing offset with
    | nil => simp [locate] at h
    | cons first pieces ih =>
      rw [locate, List.mem_cons] at h
      rcases h with h | h
      · cases h
        exact ⟨[], pieces, rfl, by simp⟩
      · obtain ⟨earlier, later, rfl, rfl⟩ := ih h
        refine ⟨first :: earlier, later, rfl, ?_⟩
        rw [List.flatMap_cons, Text.width_append]
        omega
  · rintro ⟨earlier, later, rfl, rfl⟩
    rw [locate_append, locate]
    simp

theorem exists_of_locate_eq {offset n : Nat} {piece : Piece} {pieces : List Piece}
    {before behind : List (Nat × Piece)}
    (h : locate offset pieces = before ++ (n, piece) :: behind) :
    ∃ earlier later, pieces = earlier ++ piece :: later ∧
      n = offset + Text.width (earlier.flatMap text) ∧ before = locate offset earlier ∧
        behind = locate (n + Text.width piece.text) later := by
  induction pieces generalizing offset before with
  | nil => simp [locate] at h
  | cons first pieces ih =>
    rw [locate] at h
    cases before with
    | nil =>
      cases h
      exact ⟨[], pieces, rfl, by simp, rfl, rfl⟩
    | cons located before =>
      obtain ⟨rfl, hrest⟩ := List.cons.inj h
      obtain ⟨earlier, later, rfl, hn, rfl, rfl⟩ := ih hrest
      refine ⟨first :: earlier, later, rfl, ?_, rfl, rfl⟩
      rw [hn, List.flatMap_cons, Text.width_append, Nat.add_assoc]

theorem pairwise_locate (offset : Nat) (pieces : List Piece) :
    (locate offset pieces).Pairwise fun a b => a.1 + Text.width a.2.text ≤ b.1 := by
  induction pieces generalizing offset with
  | nil => exact List.Pairwise.nil
  | cons first pieces ih =>
    refine List.Pairwise.cons ?_ (ih _)
    rintro ⟨n, piece⟩ hmem
    obtain ⟨earlier, later, -, rfl⟩ := mem_locate_iff.1 hmem
    show offset + Text.width first.text ≤ _
    omega

end Piece

namespace Placeholder

theorem mem_occurrences_iff {cs : List Char} {o : Occurrence} :
    o ∈ occurrences cs ↔
      ∃ earlier later, Piece.ofText cs = earlier ++ .placeholder o.placeholder :: later ∧
        o.start = Text.width (earlier.flatMap Piece.text) := by
  have hlocate : o ∈ occurrences cs ↔
      (o.start, Piece.placeholder o.placeholder) ∈ Piece.locate 0 (Piece.ofText cs) := by
    rw [occurrences, List.mem_filterMap]
    constructor
    · rintro ⟨⟨n, piece⟩, hmem, hpiece⟩
      cases piece with
      | plain c => cases hpiece
      | placeholder p =>
        cases hpiece
        exact hmem
    · intro hmem
      exact ⟨_, hmem, rfl⟩
  rw [hlocate, Piece.mem_locate_iff]
  simp only [Nat.zero_add]

/-- The occurrences in the part of a text that begins at `offset`, behind the character `before`.
Those of a whole text are the ones from its start on. -/
def occurrencesFrom (offset : Nat) (before : Option Char) (cs : List Char) : List Occurrence :=
  (Piece.locate offset (Piece.split before cs)).filterMap fun
    | (start, .placeholder p) => some ⟨start, p⟩
    | (_, .plain _) => none

theorem occurrencesFrom_nil (offset : Nat) (before : Option Char) :
    occurrencesFrom offset before [] = [] := by
  rw [occurrencesFrom, Piece.split.eq_def]
  rfl

theorem occurrencesFrom_of_read_eq_some {offset : Nat} {before : Option Char} {p : Placeholder}
    {cs rest : List Char} (h : readUnescaped? before cs = some (p, rest)) :
    occurrencesFrom offset before cs =
      ⟨offset, p⟩ :: occurrencesFrom (offset + Text.width p.text) p.text.getLast? rest := by
  cases cs with
  | nil =>
    rw [readUnescaped?_nil] at h
    cases h
  | cons c cs =>
    rw [occurrencesFrom, Piece.split_of_readUnescaped?_eq_some h, Piece.locate]
    rfl

theorem occurrencesFrom_of_read_eq_none {offset : Nat} {before : Option Char} {c : Char}
    {cs : List Char} (h : readUnescaped? before (c :: cs) = none) :
    occurrencesFrom offset before (c :: cs) =
      occurrencesFrom (offset + c.utf8Size) (some c) cs := by
  rw [occurrencesFrom, Piece.split_of_readUnescaped?_eq_none h, Piece.locate]
  rfl

theorem pairwise_occurrences (cs : List Char) :
    (occurrences cs).Pairwise fun o later => o.span.stop ≤ later.span.start := by
  refine List.Pairwise.filterMap _ ?_ (Piece.pairwise_locate 0 (Piece.ofText cs))
  rintro ⟨n, piece⟩ ⟨n', piece'⟩ hle o ho o' ho'
  cases piece with
  | plain c => cases ho
  | placeholder p =>
    cases piece' with
    | plain c => cases ho'
    | placeholder p' =>
      cases ho
      cases ho'
      exact hle

end Placeholder

end QueryParams
