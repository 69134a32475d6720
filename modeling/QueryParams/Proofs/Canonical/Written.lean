import QueryParams.Proofs.Canonical.Division
import QueryParams.Proofs.Extraction.Cleaning

/-!
# What is written in place of a parameter

A replacement is the text of a body again, and never that of an expression. So the cleaned text is
made up of pieces as well: those of the text, some of them with another body and without `%`. At the
joints of the two texts the same runs end and the same names count, and every closing brace of the
cleaned text has been there before.

Main statements: `Piece.Rewritten.endsAt_iff`, `Piece.Rewritten.liveBehind_iff` and
`Survey.exists_rewritten`.
-/

namespace QueryParams

/-! ## Bodies that are written -/

structure Body.Literal (b : Body) : Prop where
  formed : b.WellFormed
  literal : b.expression? = none

theorem Body.Literal.brace_not_mem_text {b : Body} (hb : b.Literal) : '}' ∉ b.text := by
  intro hmem
  cases b with
  | index digits =>
    rcases List.mem_cons.1 hmem with h | h
    · exact absurd h (by decide)
    · exact absurd (hb.formed.2 _ h) (by decide)
  | name identifier =>
    rcases List.mem_cons.1 hmem with h | h
    · exact absurd h (by decide)
    · exact absurd (hb.formed.2 _ h) (by decide)
  | expression sign source => cases hb.literal

namespace Numbering

def body : Numbering → Nat → Body
  | positional, number => .index (Text.numeral number)
  | named, number => .name (syntheticPrefix.toList ++ Text.numeral number)

theorem text_body (numbering : Numbering) (number : Nat) :
    (numbering.body number).text = numbering.token number := by
  cases numbering <;> rfl

theorem literal_body (numbering : Numbering) (number : Nat) :
    (numbering.body number).Literal := by
  have hdigits : ∀ c ∈ Text.numeral number, c.isDigit = true :=
    fun _ hc => Text.isDigit_of_mem_numeral hc
  cases numbering with
  | positional => exact ⟨⟨Nat.toDigits_ne_nil, hdigits⟩, rfl⟩
  | named =>
    refine ⟨⟨by simp [syntheticPrefix], ?_⟩, rfl⟩
    intro c hc
    rcases List.mem_append.1 hc with hc | hc
    · have hall : syntheticPrefix.toList.all isNameChar = true := by decide
      exact List.all_eq_true.1 hall c hc
    · exact isNameChar_of_isDigit (hdigits c hc)

theorem key_body {numbering : Numbering} {number : Nat} (h : number < UInt32.size)
    (numbering' : Numbering) (number' : Nat) :
    (numbering.body number).key numbering' number' = numbering.key (UInt32.ofNat number) := by
  have hnumber : (UInt32.ofNat number).toNat = number := UInt32.toNat_ofNat_of_lt' h
  cases numbering with
  | positional => simp [body, Body.key, key]
  | named => simp [body, Body.key, key, Text.numeral, hnumber, Nat.repr_eq_ofList_toDigits]

end Numbering

namespace Placeholder

structure Formed (p : Placeholder) : Prop where
  keyword : ∀ k ∈ p.keyword, k.WellFormed
  body : p.body.WellFormed

theorem Fits.formed {before : Option Char} {p : Placeholder} {rest : List Char}
    (h : p.Fits before rest) : p.Formed where
  keyword k hk := (h.keyword k hk).1
  body := h.body

/-- The body that is written in place of the decorated body, if it does not stay as it is. -/
def writtenBody? (numbering : Numbering) (number : Nat) (p : Placeholder) : Option Body :=
  if p.isExpression then some (numbering.body number)
  else if p.isLike then some p.body
  else none

def withBody (b : Body) (p : Placeholder) : Placeholder := { p.bare with body := b }

def written (numbering : Numbering) (number : Nat) (p : Placeholder) : Placeholder :=
  match p.writtenBody? numbering number with
  | some b => p.withBody b
  | none => p

variable {numbering : Numbering} {number : Nat} {p : Placeholder} {b : Body}

theorem text_withBody (b : Body) (p : Placeholder) :
    (p.withBody b).text = p.front ++ (b.text ++ p.back) :=
  text_bare { p with body := b }

theorem map_text_writtenBody? :
    (p.writtenBody? numbering number).map Body.text = p.replacement? numbering number := by
  unfold writtenBody? replacement?
  by_cases hexpression : p.isExpression = true
  · simp [hexpression, Numbering.text_body]
  · by_cases hlike : p.isLike = true <;> simp [hexpression, hlike]

theorem text_written : (p.written numbering number).text = p.cleaned numbering number := by
  unfold written cleaned
  rw [← map_text_writtenBody?]
  cases p.writtenBody? numbering number with
  | none => rfl
  | some b => simp [text_withBody]

theorem literal_of_writtenBody?_eq_some (hp : p.Formed)
    (h : p.writtenBody? numbering number = some b) : b.Literal := by
  unfold writtenBody? at h
  split at h
  · cases h
    exact numbering.literal_body number
  · rename_i hexpression
    split at h
    · cases h
      exact ⟨hp.body, expression?_eq_none (by simpa using hexpression)⟩
    · cases h

theorem key_of_writtenBody?_eq_some (h : p.writtenBody? numbering number = some b)
    (hnumber : number < UInt32.size) : b.key numbering 0 = p.body.key numbering number := by
  unfold writtenBody? at h
  split at h
  · rename_i hexpression
    cases h
    rw [Numbering.key_body hnumber]
    cases hbody : p.body with
    | index digits => simp [isExpression, hbody, Body.expression?] at hexpression
    | name identifier => simp [isExpression, hbody, Body.expression?] at hexpression
    | expression sign source => rfl
  · rename_i hexpression
    split at h
    · cases h
      exact key_eq_of_literal (by simpa using hexpression)
    · cases h

/-! ## The ends of a placeholder -/

theorem Formed.withBody (hp : p.Formed) (hb : b.Literal) : (p.withBody b).Formed :=
  ⟨hp.keyword, hb.formed⟩

theorem Formed.exists_getLast? (hp : p.Formed) :
    ∃ c, p.text.getLast? = some c ∧ c ≠ ':' ∧ c ≠ '\\' := by
  have hbody : ∃ c, p.body.text.getLast? = some c ∧ c ≠ ':' ∧ c ≠ '\\' := by
    cases hexpression : p.body.expression? with
    | none =>
      obtain ⟨c, hc, hname⟩ := Body.exists_getLast?_text hp.body hexpression
      exact ⟨c, hc, ne_of_isNameChar hname (by decide), ne_of_isNameChar hname (by decide)⟩
    | some source =>
      refine ⟨'}', ?_, by decide, by decide⟩
      cases hform : p.body with
      | index digits => simp [hform, Body.expression?] at hexpression
      | name identifier => simp [hform, Body.expression?] at hexpression
      | expression sign source => rw [Body.text, List.getLast?_append, List.getLast?_singleton]; rfl
  rw [text_eq, List.getLast?_append, List.getLast?_append]
  cases htrail : p.trail.getLast? with
  | none =>
    obtain ⟨c, hc, hne⟩ := hbody
    exact ⟨c, by rw [hc]; rfl, hne⟩
  | some c =>
    refine ⟨c, rfl, ?_⟩
    rcases mem_trail (List.mem_of_getLast? htrail) with rfl | rfl <;> decide

theorem Formed.liveBehind (hp : p.Formed) (b : Body) : b.LiveBehind p.text.getLast? := by
  obtain ⟨c, hc, hcolon, hbackslash⟩ := hp.exists_getLast?
  rw [hc]
  exact b.liveBehind_some hcolon hbackslash

theorem head?_text_withBody (b : Body) (p : Placeholder) :
    (p.withBody b).text.head? = p.text.head? ∨
      (∀ c ∈ p.text.head?, isNameChar c = false) ∧
        ∀ c ∈ (p.withBody b).text.head?, isNameChar c = false := by
  rw [text_withBody, text_eq_front]
  cases p.front with
  | cons c front => exact Or.inl rfl
  | nil =>
    have hsign (s : Sign) : isNameChar s.char = false := by cases s <;> decide
    have hpercent : isNameChar '%' = false := by decide
    right
    rw [p.body.text_eq_sign_cons, b.text_eq_sign_cons]
    cases p.leading <;> simp [Text.optional, hsign, hpercent]

theorem isBlankText_text (p : Placeholder) : Text.isBlankText p.text = false := by
  have hsign : Text.isBlank p.body.sign.char = false := by cases p.body.sign <;> decide
  rw [text_eq, p.body.text_eq_sign_cons]
  simp [Text.isBlankText, hsign]

def inertSigns : List Char := ['#', '{', '}']

theorem not_mem_lead_of_mem_inertSigns (hk : ∀ k ∈ p.keyword, k.WellFormed) {c : Char}
    (hc : c ∈ inertSigns) : c ∉ p.lead := by
  intro hmem
  have hclass := mem_lead hk hmem
  simp only [inertSigns, List.mem_cons, List.not_mem_nil, or_false] at hc
  rcases hc with rfl | rfl | rfl <;> exact absurd hclass (by decide)

theorem Formed.head?_text_ne (hp : p.Formed) {c : Char} (hc : c ∈ inertSigns) :
    p.text.head? ≠ some c := by
  intro h
  rw [text_eq, List.append_assoc] at h
  cases hlead : p.lead with
  | nil =>
    rw [hlead, p.body.text_eq_sign_cons] at h
    cases h
    cases hs : p.body.sign <;> rw [hs] at hc <;> exact absurd hc (by decide)
  | cons d lead =>
    rw [hlead] at h
    cases h
    exact not_mem_lead_of_mem_inertSigns hp.keyword hc (by rw [hlead]; exact List.mem_cons_self)

theorem Formed.brace_not_mem_text_withBody (hp : p.Formed) (hb : b.Literal) :
    '}' ∉ (p.withBody b).text := by
  intro hmem
  rw [text_eq, List.append_assoc] at hmem
  rcases List.mem_append.1 hmem with hmem | hmem
  · exact not_mem_lead_of_mem_inertSigns (hp.withBody hb).keyword (by decide) hmem
  · rcases List.mem_append.1 hmem with hmem | hmem
    · exact hb.brace_not_mem_text hmem
    · exact absurd (mem_trail hmem) (by decide)

end Placeholder

/-! ## Pieces -/

namespace Piece

open Placeholder

def Formed (piece : Piece) : Prop := ∀ p, piece = placeholder p → p.Formed

/-- The second piece is the first one, or it is a placeholder with another body. -/
inductive Rewritten : Piece → Piece → Prop where
  | plain (c : Char) : Rewritten (plain c) (plain c)
  | same {p : Placeholder} (hp : p.Formed) : Rewritten (placeholder p) (placeholder p)
  | body {p : Placeholder} {b : Body} (hp : p.Formed) (hb : b.Literal) :
    Rewritten (placeholder p) (placeholder (p.withBody b))

theorem formed_of_mem_ofText {cs : List Char} {piece : Piece} (h : piece ∈ ofText cs) :
    piece.Formed := by
  rintro p rfl
  obtain ⟨earlier, later, hpieces⟩ := List.append_of_mem h
  obtain ⟨-, hfits, -⟩ := readUnescaped?_eq_some_iff.1 (isReadAt_of_ofText_eq hpieces)
  exact hfits.formed

namespace Rewritten

variable {piece piece' : Piece} {ps ps' : List Piece}

theorem exists_of_append {as' bs' : List Piece}
    (h : List.Forall₂ Rewritten ps (as' ++ piece' :: bs')) :
    ∃ as piece bs, ps = as ++ piece :: bs ∧ List.Forall₂ Rewritten as as' ∧
      Rewritten piece piece' ∧ List.Forall₂ Rewritten bs bs' := by
  induction as' generalizing ps with
  | nil =>
    obtain ⟨piece, bs, hpiece, hbs, rfl⟩ := List.forall₂_cons_right_iff.1 h
    exact ⟨[], piece, bs, rfl, List.Forall₂.nil, hpiece, hbs⟩
  | cons a' as' ih =>
    obtain ⟨a, qs, ha, hqs, rfl⟩ := List.forall₂_cons_right_iff.1 h
    obtain ⟨as, piece, bs, rfl, has, hpiece, hbs⟩ := ih hqs
    exact ⟨a :: as, piece, bs, rfl, List.Forall₂.cons ha has, hpiece, hbs⟩

theorem exists_plain_cons (h : List.Forall₂ Rewritten ps ps') {c : Char} (hc : c ∈ inertSigns)
    (hhead : (ps.flatMap text).head? = some c ∨ (ps'.flatMap text).head? = some c) :
    ∃ qs qs', ps = Piece.plain c :: qs ∧ ps' = Piece.plain c :: qs' ∧
      List.Forall₂ Rewritten qs qs' := by
  cases h with
  | nil => simp at hhead
  | @cons piece piece' qs qs' hfirst hrest =>
    rw [head?_flatMap_text_cons, head?_flatMap_text_cons] at hhead
    cases hfirst with
    | plain d =>
      obtain rfl : d = c := by simpa [text] using hhead
      exact ⟨qs, qs', rfl, rfl, hrest⟩
    | same hp => exact absurd hhead (by simp [text, hp.head?_text_ne hc])
    | body hp hb =>
      exact absurd hhead (by simp [text, hp.head?_text_ne hc, (hp.withBody hb).head?_text_ne hc])

theorem brace_mem_of_mem (h : List.Forall₂ Rewritten ps ps') (hmem : '}' ∈ ps'.flatMap text) :
    '}' ∈ ps.flatMap text := by
  induction h with
  | nil => exact hmem
  | cons hfirst _ ih =>
    rw [List.flatMap_cons, List.mem_append] at hmem ⊢
    rcases hmem with hmem | hmem
    · cases hfirst with
      | plain c => exact Or.inl hmem
      | same hp => exact Or.inl hmem
      | body hp hb => exact absurd hmem (hp.brace_not_mem_text_withBody hb)
    · exact Or.inr (ih hmem)

theorem isBlankText_eq_false (h : List.Forall₂ Rewritten ps ps')
    (hblank : Text.isBlankText (ps.flatMap text) = false) :
    Text.isBlankText (ps'.flatMap text) = false := by
  induction h with
  | nil => exact hblank
  | cons hfirst _ ih =>
    rw [List.flatMap_cons, Text.isBlankText, List.all_append, Bool.and_eq_false_iff] at hblank ⊢
    cases hfirst with
    | plain c => exact hblank.imp_right ih
    | same hp => exact hblank.imp_right ih
    | @body p b hp hb => exact Or.inl (p.withBody b).isBlankText_text

theorem endsAt_iff (h : List.Forall₂ Rewritten ps ps') (b : Body) (cs : List Char) :
    b.EndsAt (cs ++ ps'.flatMap text) ↔ b.EndsAt (cs ++ ps.flatMap text) := by
  have hsame (hhead : (ps'.flatMap text).head? = (ps.flatMap text).head?) :
      b.EndsAt (cs ++ ps'.flatMap text) ↔ b.EndsAt (cs ++ ps.flatMap text) :=
    b.endsAt_congr (head?_append_congr cs hhead)
  cases h with
  | nil => exact Iff.rfl
  | @cons piece piece' ps ps' hfirst _ =>
    cases hfirst with
    | plain c => exact hsame (by rw [head?_flatMap_text_cons, head?_flatMap_text_cons])
    | same hp => exact hsame (by rw [head?_flatMap_text_cons, head?_flatMap_text_cons])
    | @body p b' hp hb =>
      cases cs with
      | cons c cs => exact b.endsAt_congr (by simp)
      | nil =>
        rcases p.head?_text_withBody b' with heq | ⟨hold, hnew⟩
        · exact hsame (by rw [head?_flatMap_text_cons, head?_flatMap_text_cons, text, text, heq])
        · refine iff_of_true (Body.endsAt_of_forall_head? ?_ b)
            (Body.endsAt_of_forall_head? ?_ b)
          · rw [List.nil_append, head?_flatMap_text_cons]
            exact hnew
          · rw [List.nil_append, head?_flatMap_text_cons]
            exact hold

theorem liveBehind_iff (h : List.Forall₂ Rewritten ps ps') {b : Body} {before before' : Option Char}
    (hbefore : b.LiveBehind before' ↔ b.LiveBehind before) :
    b.LiveBehind ((ps'.flatMap text).getLast?.or before') ↔
      b.LiveBehind ((ps.flatMap text).getLast?.or before) := by
  induction h generalizing before before' with
  | nil => exact hbefore
  | @cons piece piece' ps ps' hfirst _ ih =>
    rw [getLast?_flatMap_text_cons_or, getLast?_flatMap_text_cons_or]
    apply ih
    cases hfirst with
    | plain c => exact Iff.rfl
    | same hp => exact Iff.rfl
    | body hp hb => exact iff_of_true ((hp.withBody hb).liveBehind b) (hp.liveBehind b)

end Rewritten

end Piece

/-! ## The cleaned text in pieces -/

def Piece.written (numbering : Numbering) (quotations : Quotations) : Nat × Nat × Piece → Piece
  | (_, _, plain c) => plain c
  | (number, start, placeholder p) =>
    placeholder (if quotations.isQuoted start then p else p.written numbering number)

namespace Piece

variable {numbering : Numbering} {quotations : Quotations} {m : Nat × Nat × Piece}

theorem text_written : (written numbering quotations m).text =
    Segment.cleaned numbering (m.1, Segment.ofPiece quotations m.2) := by
  obtain ⟨number, start, piece⟩ := m
  cases piece with
  | plain c => rfl
  | placeholder p =>
    rw [written, text, Segment.ofPiece]
    by_cases hquoted : quotations.isQuoted start = true
    · rw [if_pos hquoted, if_pos hquoted]
      rfl
    · rw [if_neg hquoted, if_neg hquoted]
      exact p.text_written

theorem rewritten_written (m : Nat × Nat × Piece) (h : m.2.2.Formed) :
    Rewritten m.2.2 (written numbering quotations m) := by
  obtain ⟨number, start, piece⟩ := m
  cases piece with
  | plain c => exact Rewritten.plain c
  | placeholder p =>
    have hp : p.Formed := h p rfl
    rw [written]
    split
    · exact Rewritten.same hp
    · rw [Placeholder.written]
      cases hb : p.writtenBody? numbering number with
      | none => exact Rewritten.same hp
      | some b => exact Rewritten.body hp (Placeholder.literal_of_writtenBody?_eq_some hp hb)

theorem forall₂_rewritten (numbering : Numbering) (quotations : Quotations)
    (takes : Nat × Piece → Bool) (last start : Nat) {pieces : List Piece}
    (h : ∀ piece ∈ pieces, piece.Formed) :
    List.Forall₂ Rewritten pieces
      ((Numbering.assign takes last (locate start pieces)).map (written numbering quotations)) := by
  induction pieces generalizing last start with
  | nil => exact List.Forall₂.nil
  | cons piece pieces ih =>
    obtain ⟨hpiece, hpieces⟩ := List.forall_mem_cons.1 h
    exact List.Forall₂.cons (rewritten_written (_, start, piece) hpiece) (ih _ _ hpieces)

end Piece

/-- The place of a parameter with its number, and what the pieces around it become. -/
structure Survey.Site (survey : Survey) (text : List Char) (number : Nat) (p : Placeholder)
    (earlier later earlier' later' : List Piece) : Prop where
  pieces : Piece.ofText text = earlier ++ .placeholder p :: later
  rewritten_earlier : List.Forall₂ Piece.Rewritten earlier earlier'
  rewritten_later : List.Forall₂ Piece.Rewritten later later'
  cleaned : survey.cleaned text = earlier'.flatMap Piece.text ++
    ((p.written survey.numbering number).text ++ later'.flatMap Piece.text)
  /-- What stands in front of the decorated body, as it stands in the cleaned text. -/
  rewrite_front : Text.rewrite (survey.edits text) 0 (earlier.flatMap Piece.text ++ p.front) =
    earlier'.flatMap Piece.text ++ p.front

theorem Survey.cleaned_eq_flatMap_written (survey : Survey) (text : List Char) :
    survey.cleaned text = ((survey.numberedPieces text).map
      (Piece.written survey.numbering survey.quotations)).flatMap Piece.text := by
  rw [cleaned_eq_flatMap, List.flatMap_map]
  exact List.flatMap_congr fun m _ => Piece.text_written.symm

theorem Survey.isBlankText_cleaned {survey : Survey} {text : List Char}
    (h : Text.isBlankText text = false) : Text.isBlankText (survey.cleaned text) = false := by
  rw [cleaned_eq_flatMap_written]
  refine Piece.Rewritten.isBlankText_eq_false
    (Piece.forall₂_rewritten survey.numbering survey.quotations _ _ 0
      fun piece hpiece => Piece.formed_of_mem_ofText hpiece) ?_
  rw [Piece.flatMap_text_ofText]
  exact h

theorem Survey.exists_numberedPieces_eq {survey : Survey} {text : List Char} {number : Nat}
    {o : Occurrence} (h : (number, o) ∈ survey.numbered text) :
    survey.quotations.isQuoted o.start = false ∧
      ∃ takes earlier later, Piece.ofText text = earlier ++ .placeholder o.placeholder :: later ∧
        o.start = Text.width (earlier.flatMap Piece.text) ∧
        survey.numberedPieces text =
          Numbering.assign takes survey.greatest.toNat (Piece.locate 0 earlier) ++
            (number, o.start, .placeholder o.placeholder) ::
              Numbering.assign takes number
                (Piece.locate (o.start + Text.width o.placeholder.text) later) := by
  rw [numbered_eq_filterMap] at h
  obtain ⟨⟨number', start, piece⟩, hm, hpiece⟩ := List.mem_filterMap.1 h
  cases piece with
  | plain c => simp [Occurrence.ofPiece?] at hpiece
  | placeholder p =>
    obtain ⟨hlive, rfl, rfl⟩ : survey.quotations.isQuoted start = false ∧ number' = number ∧
        Occurrence.mk start p = o := by
      by_cases hquoted : survey.quotations.isQuoted start = true
      · simp [Occurrence.ofPiece?, hquoted] at hpiece
      · simpa [Occurrence.ofPiece?, hquoted] using hpiece
    obtain ⟨located, located', hlocate, hassign⟩ := Numbering.exists_of_mem_assign hm
    obtain ⟨earlier, later, hpieces, hstart, rfl, rfl⟩ := Piece.exists_of_locate_eq hlocate
    exact ⟨hlive, _, earlier, later, hpieces, by simpa using hstart, hassign⟩

theorem Piece.rewrite_front {numbering : Numbering} {quotations : Quotations}
    {takes : Nat × Piece → Bool} {last number start : Nat} {earlier later : List Piece}
    {p : Placeholder} (hstart : start = Text.width (earlier.flatMap text)) :
    Text.rewrite ((Numbering.assign takes last (locate 0 earlier) ++
        (number, start, placeholder p) ::
          Numbering.assign takes number (locate (start + Text.width p.text) later)).filterMap
            (edit? numbering quotations)) 0 (earlier.flatMap text ++ p.front) =
      ((Numbering.assign takes last (locate 0 earlier)).flatMap fun m =>
        Segment.cleaned numbering (m.1, Segment.ofPiece quotations m.2)) ++ p.front := by
  have hwidth := p.width_text
  have hlater : ∀ e ∈ ((number, start, placeholder p) ::
      Numbering.assign takes number (locate (start + Text.width p.text) later)).filterMap
        (edit? numbering quotations),
      e.span.start < e.span.stop ∧ start + Text.width p.front ≤ e.span.start := by
    intro e he
    rw [filterMap_cons_eq_append, List.mem_append] at he
    rcases he with he | he
    · obtain ⟨p', hp, hspan, -⟩ := exists_placeholder_of_edit?_eq_some (by simpa using he)
      cases hp
      have hpos := Text.width_pos_of_ne_nil p.decorated_ne_nil
      rw [hspan, Span.start_ofText, Span.stop_ofText]
      omega
    · have hbounds := bounds_of_mem_edits he
      omega
  rw [List.filterMap_append, Text.rewrite_append, Nat.zero_add, ← hstart]
  have hrun := @rewrite_flatMap_text numbering quotations 0 takes last earlier [] _ (by simp)
    fun e he => ⟨(hlater e he).1, by have hbound := (hlater e he).2; omega⟩
  rw [List.nil_append] at hrun
  rw [hrun, Text.rewrite_eq_self]
  intro e he
  rcases List.mem_append.1 he with he | he
  · have hbounds := bounds_of_mem_edits he
    exact ⟨hbounds.2.1, Or.inl (by omega)⟩
  · exact ⟨(hlater e he).1, Or.inr (hlater e he).2⟩

theorem Survey.exists_site {survey : Survey} {text : List Char} {number : Nat} {o : Occurrence}
    (h : (number, o) ∈ survey.numbered text) :
    ∃ earlier later earlier' later',
      o.start = Text.width (earlier.flatMap Piece.text) ∧
        survey.Site text number o.placeholder earlier later earlier' later' := by
  obtain ⟨hlive, takes, earlier, later, hpieces, hstart, hnumbered⟩ := exists_numberedPieces_eq h
  have hformed := fun piece (h : piece ∈ Piece.ofText text) => Piece.formed_of_mem_ofText h
  rw [hpieces] at hformed
  refine ⟨earlier, later, _, _, hstart, hpieces,
    Piece.forall₂_rewritten survey.numbering survey.quotations takes survey.greatest.toNat 0
      fun piece hpiece => hformed piece (by simp [hpiece]),
    Piece.forall₂_rewritten survey.numbering survey.quotations takes number
      (o.start + Text.width o.placeholder.text)
      fun piece hpiece => hformed piece (by simp [hpiece]), ?_, ?_⟩
  · rw [cleaned_eq_flatMap_written, hnumbered, List.map_append, List.map_cons,
      List.flatMap_append, List.flatMap_cons, Piece.written, hlive]
    rfl
  · rw [edits_eq_filterMap, hnumbered, Piece.rewrite_front hstart, List.flatMap_map]
    exact congrArg (· ++ o.placeholder.front)
      (List.flatMap_congr fun m _ => Piece.text_written.symm)

end QueryParams
