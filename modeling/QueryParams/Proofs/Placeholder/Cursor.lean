import QueryParams.Proofs.Placeholder.Scan

/-!
# The scan by offsets

The scan as a cursor that moves over a text by byte offsets. Each turn looks for the leftmost match
behind the cursor, cuts the text in front of the colon of a name to see whether it is escaped, and
goes on behind the match or, if it is rejected, behind its first character. A cut that is not at a
boundary of characters would break it off. None does, the cursor moves on with every turn, and what
it finds are the occurrences of the text.

Main statements: `Cursor.scans_iff` and `Placeholder.within_of_mem_occurrences`.
-/

namespace QueryParams

/-- The leftmost match of the grammar in the part of a text that begins at `offset`, behind the
character `before`, be it escaped or not. -/
def Placeholder.leftmost? (offset : Nat) (before : Option Char) : List Char → Option Occurrence
  | [] => none
  | c :: cs =>
    ((read? before (c :: cs)).map fun r => ⟨offset, r.1⟩).or
      (leftmost? (offset + c.utf8Size) (some c) cs)

namespace Cursor

inductive Turn where
  /-- There is no further match. -/
  | finished
  /-- The match is escaped, and the scan goes on at an offset behind its start. -/
  | rejected (next : Nat)
  | found (o : Occurrence)
  deriving DecidableEq, Repr

/-- Looks at the character in front of the colon of a name; `none` if the text cannot be cut
there. -/
def isEscaped? (text : List Char) (o : Occurrence) : Option Bool :=
  match o.placeholder.body with
  | .name _ => (Text.splitAt? o.bodyStart text).map fun parts =>
      parts.1.getLast? == some ':' || parts.1.getLast? == some '\\'
  | .index _ | .expression _ _ => some false

def turn? (text : List Char) (position : Nat) : Option Turn :=
  if Text.width text < position then some .finished
  else do
    let (earlier, behind) ← Text.splitAt? position text
    match Placeholder.leftmost? position earlier.getLast? behind with
    | none => return .finished
    | some o =>
      if ← isEscaped? text o then
        let (_, skipped) ← Text.splitAt? o.start text
        return .rejected (o.start + (skipped.head?.map Char.utf8Size).getD 1)
      else return .found o

/-- The cursor comes to an end from this position, and these are the occurrences that it finds. -/
inductive Scans (text : List Char) : Nat → List Occurrence → Prop
  | finished {position : Nat} (h : turn? text position = some .finished) : Scans text position []
  | rejected {position next : Nat} {found : List Occurrence}
      (h : turn? text position = some (.rejected next)) (hrest : Scans text next found) :
      Scans text position found
  | found {position : Nat} {o : Occurrence} {found : List Occurrence}
      (h : turn? text position = some (.found o)) (hrest : Scans text o.span.stop found) :
      Scans text position (o :: found)

end Cursor

namespace Placeholder

variable {offset : Nat} {before : Option Char} {cs : List Char}

theorem readUnescaped?_of_read?_eq_none (h : read? before cs = none) :
    readUnescaped? before cs = none := by
  rw [readUnescaped?, h]
  rfl

theorem leftmost?_cons_of_read?_eq_none {c : Char} (h : read? before (c :: cs) = none) :
    leftmost? offset before (c :: cs) = leftmost? (offset + c.utf8Size) (some c) cs := by
  rw [leftmost?, h]
  rfl

theorem occurrencesFrom_of_leftmost?_eq_none (h : leftmost? offset before cs = none) :
    occurrencesFrom offset before cs = [] := by
  induction cs generalizing offset before with
  | nil => exact occurrencesFrom_nil ..
  | cons c cs ih =>
    cases hread : read? before (c :: cs) with
    | none =>
      rw [leftmost?_cons_of_read?_eq_none hread] at h
      rw [occurrencesFrom_of_read_eq_none (readUnescaped?_of_read?_eq_none hread), ih h]
    | some found =>
      rw [leftmost?, hread] at h
      cases h

theorem exists_of_leftmost?_eq_some {o : Occurrence} (h : leftmost? offset before cs = some o) :
    ∃ skipped behind rest, cs = skipped ++ behind ∧ o.start = offset + Text.width skipped ∧
      read? (skipped.getLast?.or before) behind = some (o.placeholder, rest) ∧
      occurrencesFrom offset before cs =
        occurrencesFrom o.start (skipped.getLast?.or before) behind := by
  induction cs generalizing offset before with
  | nil => cases h
  | cons c cs ih =>
    cases hread : read? before (c :: cs) with
    | none =>
      rw [leftmost?_cons_of_read?_eq_none hread] at h
      obtain ⟨skipped, behind, rest, rfl, hstart, hmatch, hsame⟩ := ih h
      have hlast : (c :: skipped).getLast?.or before = skipped.getLast?.or (some c) := by
        rw [← List.singleton_append, List.getLast?_append, Option.or_assoc]
        rfl
      refine ⟨c :: skipped, behind, rest, rfl, ?_, by rw [hlast]; exact hmatch, ?_⟩
      · rw [hstart, Text.width_cons, Nat.add_assoc]
      · rw [occurrencesFrom_of_read_eq_none (readUnescaped?_of_read?_eq_none hread), hsame, hlast]
    | some found =>
      rw [leftmost?, hread] at h
      cases h
      exact ⟨[], c :: cs, found.2, rfl, rfl, hread, rfl⟩

end Placeholder

namespace Cursor

open Placeholder

variable {text : List Char} {o : Occurrence}

theorem isEscaped?_eq_some {earlier rest : List Char}
    (htext : text = earlier ++ (o.placeholder.text ++ rest))
    (hstart : o.start = Text.width earlier) :
    isEscaped? text o = some (o.placeholder.isEscaped earlier.getLast?) := by
  unfold isEscaped? isEscaped
  cases o.placeholder.body with
  | index digits => rfl
  | expression sign source => rfl
  | name identifier =>
    have hcut : Text.splitAt? o.bodyStart text =
        some (earlier ++ o.placeholder.lead,
          o.placeholder.body.text ++ (o.placeholder.trail ++ rest)) := by
      rw [Occurrence.bodyStart, hstart, ← Text.width_append, htext, text_eq, List.append_assoc,
        List.append_assoc, ← List.append_assoc earlier]
      exact Text.splitAt?_width ..
    simp only [hcut, Option.map_some, List.getLast?_append]
    rfl

inductive TurnsTo (text earlier cs : List Char) : Turn → Prop
  | finished (h : occurrencesFrom (Text.width earlier) earlier.getLast? cs = []) :
      TurnsTo text earlier cs .finished
  | rejected {earlier' cs' : List Char} (htext : text = earlier' ++ cs')
      (hshorter : cs'.length < cs.length)
      (h : occurrencesFrom (Text.width earlier) earlier.getLast? cs =
        occurrencesFrom (Text.width earlier') earlier'.getLast? cs') :
      TurnsTo text earlier cs (.rejected (Text.width earlier'))
  | found {o : Occurrence} {earlier' cs' : List Char} (htext : text = earlier' ++ cs')
      (hshorter : cs'.length < cs.length) (hstop : o.span.stop = Text.width earlier')
      (h : occurrencesFrom (Text.width earlier) earlier.getLast? cs =
        o :: occurrencesFrom (Text.width earlier') earlier'.getLast? cs') :
      TurnsTo text earlier cs (.found o)

section

variable {earlier front cs behind rest : List Char} {p : Placeholder}

theorem TurnsTo.of_escaped (htext : text = front ++ behind) (hle : behind.length ≤ cs.length)
    (hsame : occurrencesFrom (Text.width earlier) earlier.getLast? cs =
      occurrencesFrom (Text.width front) front.getLast? behind)
    (hread : read? front.getLast? behind = some (p, rest))
    (hescaped : p.isEscaped front.getLast? = true) :
    ∃ c cs', behind = c :: cs' ∧
      TurnsTo text earlier cs (.rejected (Text.width front + c.utf8Size)) := by
  have hbehind := eq_text_append_of_read? hread
  obtain ⟨c, cs', rfl⟩ : ∃ c cs', behind = c :: cs' := by
    refine List.exists_cons_of_ne_nil ?_
    rw [hbehind]
    simp [p.text_ne_nil]
  have hnone : readUnescaped? front.getLast? (c :: cs') = none := by
    rw [readUnescaped?, hread, Option.filter_some, hescaped]
    rfl
  have hnext : Text.width front + c.utf8Size = Text.width (front ++ [c]) := by
    rw [Text.width_append]
    rfl
  refine ⟨c, cs', rfl, ?_⟩
  rw [hnext]
  refine .rejected (by rw [htext, List.append_assoc]; rfl) (Nat.lt_of_succ_le hle) ?_
  rw [hsame, occurrencesFrom_of_read_eq_none hnone, hnext, List.getLast?_concat]

theorem TurnsTo.of_live (htext : text = front ++ behind) (hle : behind.length ≤ cs.length)
    (hsame : occurrencesFrom (Text.width earlier) earlier.getLast? cs =
      occurrencesFrom (Text.width front) front.getLast? behind)
    (hread : read? front.getLast? behind = some (p, rest))
    (hlive : p.isEscaped front.getLast? = false) :
    TurnsTo text earlier cs (.found ⟨Text.width front, p⟩) := by
  have hbehind := eq_text_append_of_read? hread
  have hsome : readUnescaped? front.getLast? behind = some (p, rest) := by
    rw [readUnescaped?, hread, Option.filter_some, hlive]
    rfl
  have hlast : (front ++ p.text).getLast? = p.text.getLast? := by
    rw [List.getLast?_append, List.getLast?_eq_some_getLast p.text_ne_nil, Option.some_or]
  have hpos := p.text_length_pos
  refine @TurnsTo.found text earlier cs _ (front ++ p.text) rest ?_ ?_ ?_ ?_
  · rw [htext, hbehind, List.append_assoc]
  · rw [hbehind, List.length_append] at hle
    omega
  · rw [Occurrence.span, Span.stop_ofText, Text.width_append]
  · rw [hsame, occurrencesFrom_of_read_eq_some hsome, hlast, Text.width_append]

/-- One turn: no cut fails, and the rest of the text gets shorter. -/
theorem exists_turn (htext : text = earlier ++ cs) :
    ∃ turn, turn? text (Text.width earlier) = some turn ∧ TurnsTo text earlier cs turn := by
  have hinside : ¬ Text.width text < Text.width earlier := by
    rw [htext, Text.width_append]
    omega
  have hcut : Text.splitAt? (Text.width earlier) text = some (earlier, cs) := by
    rw [htext]
    exact Text.splitAt?_width ..
  rw [turn?, if_neg hinside, hcut]
  simp only [Option.bind_eq_bind, Option.bind_some]
  cases hleft : leftmost? (Text.width earlier) earlier.getLast? cs with
  | none => exact ⟨_, rfl, .finished (occurrencesFrom_of_leftmost?_eq_none hleft)⟩
  | some o =>
    obtain ⟨start, p⟩ := o
    obtain ⟨skipped, behind, rest, rfl, hstart, hread, hsame⟩ := exists_of_leftmost?_eq_some hleft
    -- the match stands behind `front`, and there the text is cut again to look for an escape
    obtain ⟨front, hfront⟩ : ∃ front, front = earlier ++ skipped := ⟨_, rfl⟩
    rw [← Text.width_append, ← hfront] at hstart
    rw [← List.getLast?_append, ← hfront] at hread hsame
    rw [← List.append_assoc, ← hfront] at htext
    cases hstart
    have hle : behind.length ≤ (skipped ++ behind).length := by simp
    have hescaped : isEscaped? text ⟨Text.width front, p⟩ = some (p.isEscaped front.getLast?) :=
      isEscaped?_eq_some (by rw [htext, ← eq_text_append_of_read? hread]) rfl
    simp only [hescaped, Option.bind_some]
    cases hlive : p.isEscaped front.getLast? with
    | true =>
      obtain ⟨c, cs, rfl, hturn⟩ := TurnsTo.of_escaped htext hle hsame hread hlive
      have hskip := Text.splitAt?_width front (c :: cs)
      rw [← htext] at hskip
      exact ⟨_, by simp [hskip], hturn⟩
    | false => exact ⟨_, rfl, .of_live htext hle hsame hread hlive⟩

end

/-- A run: from every boundary of characters the cursor comes to an end. -/
theorem scans_occurrencesFrom {earlier cs : List Char} (htext : text = earlier ++ cs) :
    Scans text (Text.width earlier)
      (occurrencesFrom (Text.width earlier) earlier.getLast? cs) := by
  induction hlength : cs.length using Nat.strongRecOn generalizing earlier cs with
  | _ n ih =>
    obtain ⟨turn, hturn, hdoes⟩ := exists_turn htext
    cases hdoes with
    | finished h =>
      rw [h]
      exact .finished hturn
    | rejected htext' hshorter h =>
      rw [h]
      exact .rejected hturn (ih _ (by omega) htext' rfl)
    | found htext' hshorter hstop h =>
      rw [h]
      refine .found hturn ?_
      rw [hstop]
      exact ih _ (by omega) htext' rfl

theorem Scans.unique {position : Nat} {found found' : List Occurrence}
    (h : Scans text position found) (h' : Scans text position found') : found = found' := by
  induction h generalizing found' with
  | finished h =>
    cases h' with
    | finished => rfl
    | rejected h' | found h' => cases h.symm.trans h'
  | rejected h _ ih =>
    cases h' with
    | rejected h' hrest' =>
      cases h.symm.trans h'
      exact ih hrest'
    | finished h' | found h' => cases h.symm.trans h'
  | found h _ ih =>
    cases h' with
    | found h' hrest' =>
      cases h.symm.trans h'
      rw [ih hrest']
    | finished h' | rejected h' => cases h.symm.trans h'

theorem scans_iff {found : List Occurrence} :
    Scans text 0 found ↔ found = occurrences text := by
  have hscans : Scans text 0 (occurrences text) := @scans_occurrencesFrom text [] text rfl
  constructor
  · intro h
    exact h.unique hscans
  · intro h
    rw [h]
    exact hscans

end Cursor

/-! ## Where the spans are -/

namespace Text

def IsCut (text : List Char) (offset : Nat) : Prop := (splitAt? offset text).isSome = true

theorem isCut_width_append (before behind : List Char) :
    IsCut (before ++ behind) (width before) := by
  rw [IsCut, splitAt?_width]
  rfl

end Text

/-- The spans of an occurrence lie in the text and in each other, and all their ends are at
boundaries of characters. -/
structure Occurrence.Within (text : List Char) (o : Occurrence) : Prop where
  start_le : o.span.start ≤ o.decoratedSpan.start
  start_lt_stop : o.decoratedSpan.start < o.decoratedSpan.stop
  stop_le : o.decoratedSpan.stop ≤ o.span.stop
  stop_le_width : o.span.stop ≤ Text.width text
  cuts : ∀ offset ∈ [o.span.start, o.decoratedSpan.start, o.decoratedSpan.stop, o.span.stop],
    Text.IsCut text offset

namespace Placeholder

variable {text : List Char} {o : Occurrence}

theorem within_of_mem_occurrences (ho : o ∈ occurrences text) : o.Within text := by
  obtain ⟨earlier, later, htext, hstart, -⟩ := standsAt_of_mem_occurrences ho
  have hpos := Text.width_pos_of_ne_nil o.placeholder.decorated_ne_nil
  have hwidth := o.placeholder.width_text
  have htotal : Text.width text =
      o.start + Text.width o.placeholder.text + Text.width later := by
    rw [htext, Text.width_append, Text.width_append, hstart]
  have hcut (front back : List Char) (h : text = earlier ++ front ++ back) :
      Text.IsCut text (o.start + Text.width front) := by
    rw [h, hstart, ← Text.width_append]
    exact Text.isCut_width_append ..
  constructor
  · exact Nat.le_add_right ..
  · rw [Occurrence.decoratedSpan, Span.start_ofText, Span.stop_ofText]
    omega
  · rw [Occurrence.decoratedSpan, Occurrence.span, Span.stop_ofText, Span.stop_ofText]
    omega
  · rw [Occurrence.span, Span.stop_ofText]
    omega
  · simp only [List.forall_mem_cons, List.not_mem_nil, false_implies, implies_true, and_true]
    refine ⟨?_, ?_, ?_, ?_⟩
    · exact hcut [] (o.placeholder.text ++ later) (by rw [htext]; simp)
    · exact hcut o.placeholder.front (o.placeholder.decorated ++ o.placeholder.back ++ later)
        (by rw [htext]; simp [Placeholder.text])
    · have hstop := hcut (o.placeholder.front ++ o.placeholder.decorated)
        (o.placeholder.back ++ later) (by rw [htext]; simp [Placeholder.text])
      rwa [Text.width_append, ← Nat.add_assoc] at hstop
    · exact hcut o.placeholder.text later htext

theorem two_le_width_text {before : Option Char} {p : Placeholder} {rest : List Char}
    (h : p.Fits before rest) : 2 ≤ Text.width p.text := by
  have hbody : 2 ≤ Text.width p.body.text := by
    have hformed := h.body
    have hsign := p.body.sign.char.utf8Size_pos
    have htail : 0 < Text.width p.body.text.tail := by
      refine Text.width_pos_of_ne_nil ?_
      cases hform : p.body with
      | index digits =>
        rw [hform] at hformed
        exact hformed.1
      | name identifier =>
        rw [hform] at hformed
        exact hformed.1
      | expression sign source => simp [Body.text]
    rw [p.body.text_eq_sign_cons, Text.width_cons]
    omega
  rw [width_text_eq]
  omega

theorem two_mul_length_occurrencesFrom_le (offset : Nat) (before : Option Char)
    (cs : List Char) : 2 * (occurrencesFrom offset before cs).length ≤ Text.width cs := by
  fun_induction Piece.split before cs generalizing offset with
  | case1 => simp [occurrencesFrom_nil]
  | case2 before c cs p rest hread ih =>
    obtain ⟨hcs, hfits, -⟩ := readUnescaped?_eq_some_iff.1 hread
    have htwo := two_le_width_text hfits
    have hrest := ih (offset + Text.width p.text)
    rw [occurrencesFrom_of_read_eq_some hread, hcs, Text.width_append, List.length_cons]
    omega
  | case3 before c cs hread ih =>
    have hrest := ih (offset + c.utf8Size)
    rw [occurrencesFrom_of_read_eq_none hread, Text.width_cons]
    omega

end Placeholder

end QueryParams
