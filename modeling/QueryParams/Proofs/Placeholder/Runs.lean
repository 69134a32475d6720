import QueryParams.Proofs.Placeholder.Greatest

/-!
# The indices in and between the placeholders

The search for the greatest index walks over a text by itself, and the scan for placeholders takes
keywords, names and whole expressions at once. They see the same indices: the ones that the
placeholders are written with, and the ones in the sources of expressions. An index belongs to one
of them as a whole, and where it stands outside of every expression a placeholder is read.

Main statement: `greatestIndex_agrees_with_occurrences`.
-/

namespace QueryParams

variable {offset : Nat} {c : Char} {cs digits : List Char}

/-! ## Runs side by side -/

theorem locatedRuns_append_of_not_mem {before : List Char} (h : '?' ∉ before)
    (offset : Nat) (behind : List Char) :
    locatedRuns offset (before ++ behind) = locatedRuns (offset + Text.width before) behind := by
  induction before generalizing offset with
  | nil => rfl
  | cons c before ih =>
    obtain ⟨hc, hbefore⟩ := not_or.1 (mt List.mem_cons.2 h)
    rw [List.cons_append, locatedRuns_cons_of_not_run fun hrun => hc hrun.1.symm, ih hbefore,
      Text.width_cons, Nat.add_assoc]

theorem locatedRuns_append_cons (hdigit : c.isDigit = false) (hsign : c ≠ '?') (offset : Nat)
    (before behind : List Char) :
    locatedRuns offset (before ++ c :: behind) =
      locatedRuns offset before ++
        locatedRuns (offset + Text.width before + c.utf8Size) behind := by
  induction before generalizing offset with
  | nil => exact locatedRuns_cons_of_not_run fun hrun => hsign hrun.1
  | cons b before ih =>
    rw [List.cons_append, locatedRuns, locatedRuns, ih, Text.takeWhile_append_cons_of_neg hdigit,
      Text.width_cons, Nat.add_assoc offset]
    split <;> rfl

/-! ## The runs of a placeholder -/

def Body.runs (start : Nat) : Body → List (Nat × List Char)
  | index digits => [(start, digits)]
  | name _ => []
  | expression _ source => locatedRuns (start + 3) source

def Occurrence.runs (o : Occurrence) : List (Nat × List Char) := o.placeholder.body.runs o.bodyStart

namespace Body

theorem question_not_mem_of_all {p : Char → Bool} (hp : p '?' = false)
    (h : ∀ c ∈ cs, p c = true) : '?' ∉ cs := by
  intro hmem
  rw [h _ hmem] at hp
  cases hp

theorem locatedRuns_text_append {b : Body} {rest : List Char} (hformed : b.WellFormed)
    (hends : b.EndsAt rest) (start : Nat) :
    locatedRuns start (b.text ++ rest) =
      b.runs start ++ locatedRuns (start + Text.width b.text) rest := by
  cases b with
  | index digits =>
    obtain ⟨hrun, -⟩ := Text.takeWhile_eq_and_dropWhile_eq_iff.2 ⟨rfl, hformed.2, hends⟩
    have hnot := question_not_mem_of_all (by decide) hformed.2
    rw [text, List.cons_append, locatedRuns_cons_of_run ⟨rfl, by rw [hrun]; exact hformed.1⟩, hrun,
      locatedRuns_append_of_not_mem hnot, Text.width_cons, ← Nat.add_assoc]
    rfl
  | name identifier =>
    have hnot : '?' ∉ (name identifier).text := by
      intro hmem
      rcases List.mem_cons.1 hmem with hcolon | hmem
      · exact absurd hcolon (by decide)
      · exact question_not_mem_of_all (by decide) hformed.2 hmem
    exact locatedRuns_append_of_not_mem hnot ..
  | expression sign source =>
    have hsign : ¬ (sign.char = '?' ∧
        ('#' :: '{' :: (source ++ '}' :: rest)).takeWhile Char.isDigit ≠ []) := by
      simp [Char.isDigit]
    have hsize : sign.char.utf8Size = 1 := by cases sign <;> decide
    have hsharp : '#'.utf8Size = 1 := by decide
    have hopen : '{'.utf8Size = 1 := by decide
    simp only [text, runs, List.cons_append, List.append_assoc, List.nil_append]
    -- the signs in front of the source begin no run, and the closing brace ends its last one
    rw [locatedRuns_cons_of_not_run hsign, locatedRuns_cons_of_not_run (by simp),
      locatedRuns_cons_of_not_run (by simp), locatedRuns_append_cons (by decide) (by decide)]
    simp only [Text.width_cons, Text.width_append, Text.width_nil, hsize, hsharp, hopen,
      Nat.add_assoc]
    congr 2

end Body

namespace Placeholder

theorem locatedRuns_of_read_eq_none {before : Option Char}
    (h : readUnescaped? before (c :: cs) = none) :
    locatedRuns offset (c :: cs) = locatedRuns (offset + c.utf8Size) cs := by
  refine locatedRuns_cons_of_not_run ?_
  rintro ⟨rfl, hne⟩
  obtain ⟨digits, hrun⟩ : ∃ digits, cs.takeWhile Char.isDigit = digits := ⟨_, rfl⟩
  obtain ⟨hsplit, hdigits, hends⟩ := Text.takeWhile_eq_and_dropWhile_eq_iff.1 ⟨hrun, rfl⟩
  rw [hrun] at hne
  -- a run would be a placeholder by itself
  obtain ⟨p, rest, hread⟩ := @exists_readUnescaped?_of_body before (.index digits)
    (cs.dropWhile Char.isDigit) ⟨hne, hdigits⟩ hends trivial
  rw [Body.text, List.cons_append, ← hsplit, h] at hread
  cases hread

/-- What is read has its runs in the body: there is no question mark around it. -/
theorem locatedRuns_of_read_eq_some {before : Option Char} {p : Placeholder} {rest : List Char}
    (h : readUnescaped? before cs = some (p, rest)) :
    locatedRuns offset cs =
      Occurrence.runs ⟨offset, p⟩ ++ locatedRuns (offset + Text.width p.text) rest := by
  obtain ⟨rfl, hfits, -⟩ := readUnescaped?_eq_some_iff.1 h
  have hlead : '?' ∉ p.lead := sign_not_mem_lead hfits.wellFormed_keyword .question
  have htrail : '?' ∉ p.trail := sign_not_mem_trail .question
  calc locatedRuns offset (p.text ++ rest)
      = locatedRuns (offset + Text.width p.lead) (p.body.text ++ (p.trail ++ rest)) := by
        rw [text_eq, List.append_assoc, List.append_assoc, locatedRuns_append_of_not_mem hlead]
    _ = Occurrence.runs ⟨offset, p⟩ ++
          locatedRuns (offset + Text.width p.lead + Text.width p.body.text) (p.trail ++ rest) :=
        Body.locatedRuns_text_append hfits.body hfits.body_ends _
    _ = Occurrence.runs ⟨offset, p⟩ ++ locatedRuns (offset + Text.width p.text) rest := by
        rw [locatedRuns_append_of_not_mem htrail, width_text_eq, Nat.add_assoc, Nat.add_assoc]

/-- The division into placeholders keeps every run whole. -/
theorem locatedRuns_eq_flatMap_runs (offset : Nat) (before : Option Char) (cs : List Char) :
    locatedRuns offset cs = (occurrencesFrom offset before cs).flatMap Occurrence.runs := by
  fun_induction Piece.split before cs generalizing offset with
  | case1 before => rw [occurrencesFrom_nil]; rfl
  | case2 before c cs p rest hread ih =>
    rw [locatedRuns_of_read_eq_some hread, occurrencesFrom_of_read_eq_some hread,
      List.flatMap_cons, ih]
  | case3 before c cs hread ih =>
    rw [locatedRuns_of_read_eq_none hread, occurrencesFrom_of_read_eq_none hread, ih]

end Placeholder

/-! ## What the search finds -/

variable {text : List Char}

theorem forall_mem_indexRuns_iff {P : List Char → Prop} :
    (∀ digits ∈ indexRuns text, P digits) ↔ ∀ run ∈ locatedRuns 0 text, P run.2 := by
  rw [← map_snd_locatedRuns 0 text, List.forall_mem_map]

theorem exists_greatestIndex_eq_error_iff :
    (∃ e, greatestIndex text = .error e) ↔
      ∃ run ∈ locatedRuns 0 text, UInt32.size ≤ Text.numeralValue run.2 := by
  simp only [exists_eq_error_iff, greatestIndex_eq_ok_iff, exists_and_left, exists_eq, and_true,
    forall_mem_indexRuns_iff, not_forall, Nat.not_lt, exists_prop]

theorem eq_none_iff_of_greatestIndex {greatest : Option UInt32}
    (h : greatestIndex text = .ok greatest) : greatest = none ↔ locatedRuns 0 text = [] := by
  obtain ⟨-, rfl⟩ := greatestIndex_eq_ok_iff.1 h
  rw [List.max?_eq_none_iff, List.map_eq_nil_iff, ← map_snd_locatedRuns 0 text,
    List.map_eq_nil_iff]

theorem le_of_mem_locatedRuns {greatest : Option UInt32} {run : Nat × List Char}
    (h : greatestIndex text = .ok greatest) (hrun : run ∈ locatedRuns 0 text) :
    ∃ g ∈ greatest, Text.numeralValue run.2 ≤ g.toNat := by
  cases greatest with
  | none =>
    rw [(eq_none_iff_of_greatestIndex h).1 rfl] at hrun
    cases hrun
  | some g =>
    obtain ⟨n, digits⟩ := run
    obtain ⟨within, -, hstands⟩ := mem_locatedRuns_iff.1 hrun
    exact ⟨g, rfl, (isGreatestIndex_of_greatestIndex h).bound _ _ hstands⟩

theorem exists_mem_locatedRuns_of_greatestIndex {g : UInt32}
    (h : greatestIndex text = .ok (some g)) :
    ∃ run ∈ locatedRuns 0 text, Text.numeralValue run.2 = g.toNat := by
  obtain ⟨hbound, hmax⟩ := greatestIndex_eq_ok_iff.1 h
  obtain ⟨digits, hdigits, hg⟩ := List.mem_map.1 (List.max?_mem hmax.symm)
  have hvalue := UInt32.toNat_ofNat_of_lt' (hbound digits hdigits)
  rw [hg] at hvalue
  rw [← map_snd_locatedRuns 0 text] at hdigits
  obtain ⟨run, hrun, rfl⟩ := List.mem_map.1 hdigits
  exact ⟨run, hrun, hvalue.symm⟩

theorem position_le_of_greatestIndex {greatest : Option UInt32} {o : Occurrence}
    (h : greatestIndex text = .ok greatest) (ho : o ∈ Placeholder.occurrences text) :
    ∃ position, o.placeholder.body.position = .ok position ∧
      ∀ p ∈ position, ∃ g ∈ greatest, p ≤ g := by
  unfold Body.position
  cases hdigits : o.placeholder.body.index? with
  | none => exact ⟨none, rfl, by simp⟩
  | some digits =>
    have hbody : o.placeholder.body = .index digits := by
      cases hform : o.placeholder.body <;> simp_all [Body.index?]
    have hmem := Placeholder.digits_mem_indexRuns ho hbody
    have hfit := numeralValue_lt_of_mem_indexRuns h hmem
    have hposition := positionOfDigits_eq_ok_iff.2 ⟨hfit, rfl⟩
    rw [← map_snd_locatedRuns 0 text] at hmem
    obtain ⟨run, hrun, rfl⟩ := List.mem_map.1 hmem
    obtain ⟨g, hg, hle⟩ := le_of_mem_locatedRuns h hrun
    refine ⟨_, congrArg (Functor.map some) hposition, ?_⟩
    intro p hp
    cases hp
    refine ⟨g, hg, ?_⟩
    rwa [UInt32.le_iff_toNat_le, UInt32.toNat_ofNat_of_lt' hfit]

/-- The search for the greatest index sees the indices of the placeholders and those in the sources
of the expressions, each once, at its place and as a whole. It fails exactly if one of them is no
word of 32 bits; otherwise every placeholder has its position, and the answer is the greatest of
all these indices. -/
theorem greatestIndex_agrees_with_occurrences (text : List Char) :
    indexRuns text = (locatedRuns 0 text).map Prod.snd ∧
      (∀ offset digits, (offset, digits) ∈ locatedRuns 0 text ↔
        (Body.index digits).StandsAt text offset) ∧
      locatedRuns 0 text = (Placeholder.occurrences text).flatMap Occurrence.runs ∧
      ((∃ e, greatestIndex text = .error e) ↔
        ∃ run ∈ locatedRuns 0 text, UInt32.size ≤ Text.numeralValue run.2) ∧
      ∀ greatest, greatestIndex text = .ok greatest →
        (∀ o ∈ Placeholder.occurrences text,
          ∃ position, o.placeholder.body.position = .ok position ∧
            ∀ p ∈ position, ∃ g ∈ greatest, p ≤ g) ∧
        (greatest = none ↔ locatedRuns 0 text = []) ∧
        (∀ run ∈ locatedRuns 0 text, ∃ g ∈ greatest, Text.numeralValue run.2 ≤ g.toNat) ∧
        ∀ g ∈ greatest, ∃ run ∈ locatedRuns 0 text, Text.numeralValue run.2 = g.toNat := by
  refine ⟨(map_snd_locatedRuns 0 text).symm, ?_,
    Placeholder.locatedRuns_eq_flatMap_runs 0 none text, exists_greatestIndex_eq_error_iff, ?_⟩
  · intro offset digits
    simp [mem_locatedRuns_iff]
  · intro greatest h
    refine ⟨fun o ho => position_le_of_greatestIndex h ho, eq_none_iff_of_greatestIndex h,
      fun run hrun => le_of_mem_locatedRuns h hrun, ?_⟩
    rintro g rfl
    exact exists_mem_locatedRuns_of_greatestIndex h

theorem greatestIndex_agrees_with_occurrences_escaped :
    greatestIndex "a = ?07 or b\\:x = :#{f(?12)}".toList = .ok (some 12) ∧
      (Placeholder.occurrences "a = ?07 or b\\:x = :#{f(?12)}".toList).flatMap Occurrence.runs =
        [(4, ['0', '7']), (23, ['1', '2'])] ∧
      ∃ run ∈ locatedRuns 0 "a = ?07 or b\\:x = :#{f(?12)}".toList,
        Text.numeralValue run.2 = 12 := by
  have hgreatest : greatestIndex "a = ?07 or b\\:x = :#{f(?12)}".toList = .ok (some 12) := by
    decide +kernel
  obtain ⟨-, -, hruns, -, hagree⟩ :=
    greatestIndex_agrees_with_occurrences "a = ?07 or b\\:x = :#{f(?12)}".toList
  refine ⟨hgreatest, ?_, (hagree _ hgreatest).2.2.2 12 rfl⟩
  rw [← hruns]
  decide +kernel

end QueryParams
