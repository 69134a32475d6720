import QueryParams.Proofs.Placeholder.Place

/-!
# The scan of a text

The occurrences of a text are its leftmost placeholders. Each one is what the grammar has at its
offset, the grammar has nothing between one occurrence and the next, and every body of the grammar
is the body of an occurrence or lies inside the source of an expression.

Main statement: `Placeholder.isScan_iff`, the occurrences are the only list with these properties.
-/

namespace QueryParams

namespace Occurrence

def bodyStart (o : Occurrence) : Nat := o.start + Text.width o.placeholder.lead

def sourceSpan? (o : Occurrence) : Option Span :=
  o.placeholder.body.expression?.map (Span.ofText (o.bodyStart + 3))

def resume (earlier : List Occurrence) : Nat := (earlier.getLast?.map (·.span.stop)).getD 0

end Occurrence

namespace Occurrence

theorem exists_body_of_sourceSpan? {o : Occurrence} {span : Span} (h : span ∈ o.sourceSpan?) :
    ∃ s source, o.placeholder.body = .expression s source ∧
      Span.ofText (o.bodyStart + 3) source = span := by
  obtain ⟨source, hsource, hspan⟩ := Option.map_eq_some_iff.1 h
  cases hbody : o.placeholder.body with
  | index digits => simp [hbody, Body.expression?] at hsource
  | name identifier => simp [hbody, Body.expression?] at hsource
  | expression s written =>
    rw [hbody] at hsource
    cases hsource
    exact ⟨s, source, rfl, hspan⟩

theorem start_le_stop (o : Occurrence) : o.start ≤ o.span.stop := o.span.start_le_stop

theorem resume_concat (init : List Occurrence) (last : Occurrence) :
    resume (init ++ [last]) = last.span.stop := by
  simp [resume]

theorem stop_le_resume {earlier : List Occurrence} {o : Occurrence}
    (h : earlier.Pairwise fun o later => o.span.stop ≤ later.span.start) (ho : o ∈ earlier) :
    o.span.stop ≤ resume earlier := by
  rcases List.eq_nil_or_concat' earlier with rfl | ⟨init, last, rfl⟩
  · cases ho
  · rw [resume_concat]
    rw [List.pairwise_append] at h
    rcases List.mem_append.1 ho with ho | ho
    · have hle := h.2.2 o ho last (by simp)
      exact Nat.le_trans hle last.span.start_le_stop
    · exact Nat.le_of_eq (by rw [List.mem_singleton.1 ho])

theorem resume_le_start {earlier later : List Occurrence} {o : Occurrence}
    (h : (earlier ++ o :: later).Pairwise fun o later => o.span.stop ≤ later.span.start) :
    resume earlier ≤ o.start := by
  rcases List.eq_nil_or_concat' earlier with rfl | ⟨init, last, rfl⟩
  · exact Nat.zero_le _
  · rw [resume_concat]
    exact (List.pairwise_append.1 h).2.2 last (by simp) o (by simp)

end Occurrence

namespace Placeholder

/-- The offset is where the body of the occurrence begins, and the body is `b`, or it lies inside
the source of an expression. -/
def Accounts (offset : Nat) (b : Body) (o : Occurrence) : Prop :=
  o.bodyStart = offset ∧ o.placeholder.body = b ∨
    ∃ source ∈ o.sourceSpan?, source.contains offset = true

/-- A list of occurrences as the leftmost matches of the grammar in a text, the next one always
looked for behind the end of the one before. -/
structure IsScan (text : List Char) (found : List Occurrence) : Prop where
  stands : ∀ o ∈ found, o.placeholder.StandsAt text o.start
  cut : ∀ o ∈ found, o.span.slice? text = some o.placeholder.text ∧
    o.decoratedSpan.slice? text = some o.placeholder.decorated
  one_form : ∀ o ∈ found, [o.placeholder.body.index?.isSome, o.placeholder.body.name?.isSome,
    o.placeholder.body.expression?.isSome].count true = 1
  /-- An occurrence is at the least offset that has a match. A match with an escaped colon is none,
  so this is also the least offset behind a rejected one. -/
  leftmost : ∀ earlier o later, found = earlier ++ o :: later →
    Occurrence.resume earlier ≤ o.start ∧
      ∀ (offset : Nat) (p : Placeholder), Occurrence.resume earlier ≤ offset →
        p.StandsAt text offset → o.start ≤ offset
  exhausted : ∀ (offset : Nat) (p : Placeholder), p.StandsAt text offset →
    offset < Occurrence.resume found
  /-- A keyword is left out only if its place belongs to the occurrence before in part. -/
  keyword_kept : ∀ earlier o later, found = earlier ++ o :: later → o.placeholder.keyword = none →
    ∀ (k : Keyword) before behind, text = before ++ k.text ++ behind → k.WellFormed →
      Text.wordMayBegin before.getLast? = true → o.start = Text.width (before ++ k.text) →
        Text.width before < Occurrence.resume earlier
  bodies : ∀ (offset : Nat) (b : Body), b.StandsAt text offset →
    ∃! o, o ∈ found ∧ Accounts offset b o

variable {text : List Char}

theorem standsAt_of_mem_occurrences {o : Occurrence} (ho : o ∈ occurrences text) :
    o.placeholder.StandsAt text o.start := by
  obtain ⟨earlier, later, hpieces, hstart⟩ := mem_occurrences_iff.1 ho
  have hread := Piece.isReadAt_of_ofText_eq hpieces
  have htext := Piece.eq_append_of_ofText_eq hpieces
  rw [htext, hstart]
  exact standsAt_width_iff.2 ⟨_, hread⟩

theorem wellFormed_keyword_of_mem_occurrences {o : Occurrence} (ho : o ∈ occurrences text)
    {k : Keyword} (hk : k ∈ o.placeholder.keyword) : k.WellFormed := by
  obtain ⟨earlier, later, -, -, hfits, -⟩ := standsAt_of_mem_occurrences ho
  exact hfits.wellFormed_keyword k hk

theorem wellFormed_body_of_mem_occurrences {o : Occurrence} (ho : o ∈ occurrences text) :
    o.placeholder.body.WellFormed := by
  obtain ⟨earlier, later, -, -, hfits, -⟩ := standsAt_of_mem_occurrences ho
  exact hfits.body

/-- Where something can be read, there is an occurrence that covers the place. -/
theorem exists_occurrence_of_cut {before behind : List Char} {c : Char}
    (htext : text = before ++ c :: behind)
    (hread : readUnescaped? before.getLast? (c :: behind) ≠ none) :
    ∃ o ∈ occurrences text, ∃ earlier inner outer later, o.start = Text.width earlier ∧
      before = earlier ++ inner ∧ o.placeholder.text = inner ++ c :: outer ∧
        behind = outer ++ later := by
  have hflat : (Piece.ofText text).flatMap Piece.text = before ++ c :: behind := by
    rw [Piece.flatMap_text_ofText, htext]
  obtain ⟨earlier, piece, later, inner, outer, hpieces, hpiece, hbefore, hbehind⟩ :=
    Piece.exists_piece_of_flatMap_text_eq hflat
  have hat := Piece.isReadAt_of_ofText_eq hpieces
  cases piece with
  | plain d =>
    have hinner : inner = [] ∧ c = d ∧ outer = [] := by
      cases inner with
      | nil =>
        cases hpiece
        exact ⟨rfl, rfl, rfl⟩
      | cons => simp [Piece.text] at hpiece
    obtain ⟨rfl, rfl, rfl⟩ := hinner
    rw [List.append_nil] at hbefore
    rw [List.nil_append] at hbehind
    rw [hbefore, hbehind] at hread
    exact absurd hat hread
  | placeholder p =>
    exact ⟨⟨Text.width (earlier.flatMap Piece.text), p⟩, mem_occurrences_iff.2 ⟨_, _, hpieces, rfl⟩,
      _, inner, outer, _, rfl, hbefore, hpiece, hbehind⟩

theorem contains_of_cut {o : Occurrence} {earlier inner outer : List Char} {c : Char}
    (hstart : o.start = Text.width earlier) (hp : o.placeholder.text = inner ++ c :: outer) :
    o.span.contains (Text.width (earlier ++ inner)) = true := by
  rw [Text.width_append, ← hstart]
  exact Span.contains_ofText_of_eq hp

theorem exists_contains_of_standsAt {offset : Nat} {p : Placeholder}
    (h : p.StandsAt text offset) : ∃ o ∈ occurrences text, o.span.contains offset = true := by
  obtain ⟨before, later, htext, rfl, -⟩ := id h
  obtain ⟨c, cs, hp⟩ := List.exists_cons_of_ne_nil p.text_ne_nil
  rw [htext, List.append_assoc] at h
  obtain ⟨rest, hread⟩ := standsAt_width_iff.1 h
  rw [hp, List.cons_append] at hread
  rw [hp, List.append_assoc, List.cons_append] at htext
  obtain ⟨o, ho, earlier, inner, outer, -, hstart, rfl, hpiece, -⟩ :=
    exists_occurrence_of_cut htext (by rw [hread]; simp)
  exact ⟨o, ho, contains_of_cut hstart hpiece⟩

theorem start_le_of_standsAt {earlier later : List Occurrence} {o : Occurrence}
    (hfound : occurrences text = earlier ++ o :: later) {offset : Nat} {p : Placeholder}
    (hresume : Occurrence.resume earlier ≤ offset) (h : p.StandsAt text offset) :
    o.start ≤ offset := by
  have hpairwise := pairwise_occurrences text
  obtain ⟨o', ho', hcontains⟩ := exists_contains_of_standsAt h
  rw [Span.contains_iff] at hcontains
  rw [hfound] at hpairwise ho'
  have hsplit := List.pairwise_append.1 hpairwise
  rcases List.mem_append.1 ho' with ho' | ho'
  · have hstop := Occurrence.stop_le_resume hsplit.1 ho'
    omega
  · rcases List.mem_cons.1 ho' with rfl | ho'
    · exact hcontains.1
    · have hstop := (List.pairwise_cons.1 hsplit.2.1).1 o' ho'
      have hstart := o.start_le_stop
      omega

theorem lt_resume_of_standsAt {offset : Nat} {p : Placeholder} (h : p.StandsAt text offset) :
    offset < Occurrence.resume (occurrences text) := by
  obtain ⟨o, ho, hcontains⟩ := exists_contains_of_standsAt h
  have hstop := Occurrence.stop_le_resume (pairwise_occurrences text) ho
  rw [Span.contains_iff] at hcontains
  omega

theorem standsAt_withKeyword {before behind : List Char} {k : Keyword} {p : Placeholder}
    (htext : text = before ++ k.text ++ behind)
    (hp : p.StandsAt text (Text.width (before ++ k.text))) (hnone : p.keyword = none)
    (hk : k.WellFormed) (hbegin : Text.wordMayBegin before.getLast? = true) :
    StandsAt text (Text.width before) { p with keyword := some k } := by
  rw [htext] at hp
  obtain ⟨rest, hread⟩ := standsAt_width_iff.1 hp
  obtain ⟨hbehind, hfits, hlive⟩ := readUnescaped?_eq_some_iff.1 hread
  refine ⟨before, rest, ?_, rfl,
    ⟨?_, hfits.body, hfits.body_ends, hfits.trailing, hfits.closed⟩, ?_⟩
  · rw [htext, hbehind]
    simp [Placeholder.text, front, decorated, back, hnone]
  · intro k' hk'
    cases hk'
    exact ⟨hk, hbegin⟩
  · have hlead : before ++ lead { p with keyword := some k } = before ++ k.text ++ p.lead := by
      simp [lead, front, hnone]
    rw [hlead, List.getLast?_append]
    exact hlive

theorem keyword_start_lt_resume {earlier later : List Occurrence} {o : Occurrence}
    (hfound : occurrences text = earlier ++ o :: later) (hnone : o.placeholder.keyword = none)
    {before behind : List Char} {k : Keyword} (htext : text = before ++ k.text ++ behind)
    (hk : k.WellFormed) (hbegin : Text.wordMayBegin before.getLast? = true)
    (hstart : o.start = Text.width (before ++ k.text)) :
    Text.width before < Occurrence.resume earlier := by
  have hmem : o ∈ occurrences text := by rw [hfound]; simp
  have ho := standsAt_of_mem_occurrences hmem
  rw [hstart] at ho
  have hstands := standsAt_withKeyword htext ho hnone hk hbegin
  refine Nat.lt_of_not_le fun hresume => ?_
  have hle := start_le_of_standsAt hfound hresume hstands
  have hpos : 0 < Text.width k.text := Text.width_pos_of_ne_nil (by simp [Keyword.text])
  rw [hstart, Text.width_append] at hle
  omega

theorem width_text_eq (p : Placeholder) :
    Text.width p.text =
      Text.width p.lead + (Text.width p.body.text + Text.width p.trail) := by
  rw [text_eq, Text.width_append, Text.width_append, Nat.add_assoc]

theorem contains_of_accounts {offset : Nat} {b : Body} {o : Occurrence}
    (h : Accounts offset b o) : o.span.contains offset = true := by
  have hwidth := width_text_eq o.placeholder
  have hbody := Text.width_pos_of_ne_nil o.placeholder.body.text_ne_nil
  rw [Span.contains_iff, Occurrence.span, Span.start_ofText, Span.stop_ofText]
  rcases h with ⟨rfl, -⟩ | ⟨source, hsource, hcontains⟩
  · rw [Occurrence.bodyStart]
    omega
  · obtain ⟨s, written, hform, rfl⟩ := Occurrence.exists_body_of_sourceSpan? hsource
    rw [Span.contains_iff, Span.start_ofText, Span.stop_ofText, Occurrence.bodyStart] at hcontains
    have hsize : 3 + Text.width written ≤ Text.width o.placeholder.body.text := by
      have hsign := s.char.utf8Size_pos
      have hsharp : '#'.utf8Size = 1 := by decide
      have hopen : '{'.utf8Size = 1 := by decide
      simp only [hform, Body.text, List.cons_append, Text.width_cons, Text.width_append, hsharp,
        hopen]
      omega
    omega

theorem exists_accounts_of_body {offset : Nat} {b : Body} (h : b.StandsAt text offset) :
    ∃ o ∈ occurrences text, Accounts offset b o := by
  obtain ⟨before, later, htext, rfl, hformed, hends, hlive⟩ := h
  obtain ⟨p, rest, hread⟩ := exists_readUnescaped?_of_body hformed hends hlive
  have hbody : Body.read? (b.text ++ later) = some (b, later) :=
    Body.read?_eq_some_iff.2 ⟨rfl, hformed, hends⟩
  rw [b.text_eq_sign_cons, List.cons_append] at hread
  rw [List.append_assoc, b.text_eq_sign_cons, List.cons_append] at htext
  obtain ⟨o, ho, earlier, inner, outer, tail, hstart, rfl, hpiece, hbehind⟩ :=
    exists_occurrence_of_cut htext (by rw [hread]; simp)
  refine ⟨o, ho, ?_⟩
  have hstands := standsAt_of_mem_occurrences ho
  obtain ⟨earlier', later', htext', hstart', hfits, -⟩ := hstands
  have hkeyword : ∀ k ∈ o.placeholder.keyword, k.WellFormed := hfits.wellFormed_keyword
  rcases eq_lead_or_of_text_eq hkeyword hfits.body hpiece with
    rfl | ⟨sign, sourceBefore, sourceBehind, hexpression, rfl⟩
  · -- both bodies are read from the text behind the lead
    left
    have hleft : text = earlier ++ (o.placeholder.lead ++ (b.text ++ later)) := by
      rw [htext, b.text_eq_sign_cons, List.append_assoc, List.cons_append, List.tail_cons]
    rw [List.append_assoc] at htext'
    have hsame := Text.eq_of_width_eq (hleft.symm.trans htext') (hstart.symm.trans hstart')
    have hread' : Body.read? (b.text ++ later) =
        some (o.placeholder.body, o.placeholder.trail ++ later') := by
      refine Body.read?_eq_some_iff.2 ⟨?_, hfits.body, ?_⟩
      · have heq := hsame.2
        rw [text_eq, List.append_assoc, List.append_assoc] at heq
        exact List.append_cancel_left heq
      · exact hfits.body_ends
    rw [hbody] at hread'
    cases hread'
    exact ⟨by rw [Occurrence.bodyStart, hstart, Text.width_append], rfl⟩
  · right
    -- the sign of `b` lies in the source of an expression, and so does its offset
    refine ⟨_, Option.map_eq_some_iff.2 ⟨_, by rw [hexpression]; rfl, rfl⟩, ?_⟩
    have hsign : sign.char.utf8Size = 1 := by cases sign <;> decide
    have hsharp : '#'.utf8Size = 1 := by decide
    have hopen : '{'.utf8Size = 1 := by decide
    have hpos := b.sign.char.utf8Size_pos
    simp only [Span.contains_iff, Span.start_ofText, Span.stop_ofText, Occurrence.bodyStart, hstart,
      Text.width_append, Text.width_cons, hsign, hsharp, hopen]
    omega

theorem slice?_of_standsAt {o : Occurrence} (h : o.placeholder.StandsAt text o.start) :
    o.span.slice? text = some o.placeholder.text ∧
      o.decoratedSpan.slice? text = some o.placeholder.decorated := by
  obtain ⟨earlier, later, rfl, hstart, -⟩ := h
  constructor
  · rw [Occurrence.span, hstart]
    exact Span.slice?_ofText ..
  · rw [Occurrence.decoratedSpan, hstart, ← Text.width_append]
    have hsplit : earlier ++ o.placeholder.text ++ later =
        earlier ++ o.placeholder.front ++ o.placeholder.decorated ++
          (o.placeholder.back ++ later) := by
      simp [text]
    rw [hsplit]
    exact Span.slice?_ofText ..

theorem isScan_occurrences (text : List Char) : IsScan text (occurrences text) where
  stands _ ho := standsAt_of_mem_occurrences ho
  cut _ ho := slice?_of_standsAt (standsAt_of_mem_occurrences ho)
  one_form o _ := by cases o.placeholder.body <;> rfl
  leftmost earlier o later hfound := by
    have hpairwise := pairwise_occurrences text
    rw [hfound] at hpairwise
    exact ⟨Occurrence.resume_le_start hpairwise,
      fun _ _ hresume h => start_le_of_standsAt hfound hresume h⟩
  exhausted _ _ h := lt_resume_of_standsAt h
  keyword_kept _ _ _ hfound hnone _ _ _ htext hk hbegin hstart :=
    keyword_start_lt_resume hfound hnone htext hk hbegin hstart
  bodies offset b h := by
    obtain ⟨o, ho, haccounts⟩ := exists_accounts_of_body h
    refine ⟨o, ⟨ho, haccounts⟩, ?_⟩
    intro o' ho'
    exact Span.eq_of_contains (pairwise_occurrences text) ho'.1 ho
      (contains_of_accounts ho'.2) (contains_of_accounts haccounts)

theorem IsScan.unique {earlier rest rest' : List Occurrence} (h : IsScan text (earlier ++ rest))
    (h' : IsScan text (earlier ++ rest')) : rest = rest' := by
  induction rest generalizing earlier rest' with
  | nil =>
    cases rest' with
    | nil => rfl
    | cons o' rest' =>
      have hend := h.exhausted _ _ (h'.stands o' (by simp))
      have hstart := (h'.leftmost earlier o' rest' rfl).1
      rw [List.append_nil] at hend
      omega
  | cons o rest ih =>
    have hleft := h.leftmost earlier o rest rfl
    have hstands := h.stands o (by simp)
    cases rest' with
    | nil =>
      have hend := h'.exhausted _ _ hstands
      rw [List.append_nil] at hend
      omega
    | cons o' rest' =>
      have hleft' := h'.leftmost earlier o' rest' rfl
      have hstands' := h'.stands o' (by simp)
      -- each of the two is at the least offset with a match, where there is but one placeholder
      have hstart : o.start = o'.start :=
        Nat.le_antisymm (hleft.2 _ _ hleft'.1 hstands') (hleft'.2 _ _ hleft.1 hstands)
      have hplaceholder : o.placeholder = o'.placeholder :=
        hstands.unique (by rw [hstart]; exact hstands')
      obtain rfl : o = o' := by
        cases o
        cases o'
        cases hstart
        cases hplaceholder
        rfl
      rw [@ih (earlier ++ [o]) rest' (by simpa using h) (by simpa using h')]

/-- The occurrences of a text are the leftmost matches of the grammar, and nothing else is. -/
theorem isScan_iff {text : List Char} {found : List Occurrence} :
    IsScan text found ↔ found = occurrences text := by
  constructor
  · intro h
    exact @IsScan.unique text [] _ _ h (isScan_occurrences text)
  · intro h
    rw [h]
    exact isScan_occurrences text

end Placeholder

/-! ## Bodies and sources of occurrences -/

theorem Body.standsAt_of_mem_occurrences {text : List Char} {o : Occurrence}
    (ho : o ∈ Placeholder.occurrences text) : o.placeholder.body.StandsAt text o.bodyStart := by
  obtain ⟨earlier, later, htext, hstart, hfits, hlive⟩ :=
    Placeholder.standsAt_of_mem_occurrences ho
  refine ⟨earlier ++ o.placeholder.lead, o.placeholder.trail ++ later, ?_, ?_, hfits.body,
    hfits.body_ends, hlive⟩
  · rw [htext, Placeholder.text_eq]
    simp
  · rw [Occurrence.bodyStart, hstart, Text.width_append]

namespace Occurrence

variable {text source : List Char} {o : Occurrence} {s : Sign}

theorem exists_text_eq_of_expression (ho : o ∈ Placeholder.occurrences text)
    (hbody : o.placeholder.body = .expression s source) :
    ∃ earlier later, text = (earlier ++ [s.char, '#', '{']) ++ (source ++ '}' :: later) ∧
      Text.width (earlier ++ [s.char, '#', '{']) = o.bodyStart + 3 ∧ '}' ∉ source := by
  obtain ⟨earlier, later, htext, hstart, hformed, -⟩ := Body.standsAt_of_mem_occurrences ho
  rw [hbody] at htext hformed
  have hsign : s.char.utf8Size = 1 := by cases s <;> decide
  refine ⟨earlier, later, ?_, ?_, hformed.2⟩
  · rw [htext]
    simp [Body.text]
  · rw [hstart, Text.width_append, Text.width_cons, hsign]
    rfl

end Occurrence

end QueryParams
