import QueryParams.Proofs.Canonical.Written
import QueryParams.Proofs.Extraction.Coverage

/-!
# Reading what has been written

Whether a body that is written in place of a parameter is read back from the cleaned text depends on
its two neighbours in the text of the query: the run must end behind the decorated body, and no
colon or backslash may stand in front of a name. Nothing else can go wrong, for no expression comes
about in the cleaned text.

Main statements: `Piece.exists_occurrence_withBody_iff` and
`ParsedQuery.exists_occurrence_of_edit_iff`.
-/

namespace QueryParams

open Placeholder Text

namespace Body

theorem standsAt_width_iff {before behind : List Char} {b : Body} :
    b.StandsAt (before ++ (b.text ++ behind)) (width before) ↔
      b.WellFormed ∧ b.EndsAt behind ∧ b.LiveBehind before.getLast? := by
  constructor
  · intro h
    obtain ⟨before', behind', htext, hwidth, hformed, hends, hlive⟩ := h
    rw [List.append_assoc] at htext
    obtain ⟨rfl, hbehind⟩ := eq_of_width_eq htext hwidth
    rw [List.append_cancel_left hbehind]
    exact ⟨hformed, hends, hlive⟩
  · intro h
    obtain ⟨hformed, hends, hlive⟩ := h
    exact ⟨before, behind, by rw [List.append_assoc], rfl, hformed, hends, hlive⟩

end Body

theorem Body.Literal.head?_tail_ne {b : Body} (hb : b.Literal) (behind : List Char) :
    (b.text.tail ++ behind).head? ≠ some '#' := by
  have hsharp : isNameChar '#' = false := by decide
  cases b with
  | index digits =>
    obtain ⟨hne, hdigits⟩ := hb.formed
    obtain ⟨d, digits, rfl⟩ := List.exists_cons_of_ne_nil hne
    have hd := ne_of_isNameChar (isNameChar_of_isDigit (hdigits d List.mem_cons_self)) hsharp
    simpa [Body.text] using hd
  | name identifier =>
    obtain ⟨hne, hname⟩ := hb.formed
    obtain ⟨c, identifier, rfl⟩ := List.exists_cons_of_ne_nil hne
    have hc := ne_of_isNameChar (hname c List.mem_cons_self) hsharp
    simpa [Body.text] using hc
  | expression sign source => cases hb.literal

/-- If an expression opens at a sign inside of a placeholder, its closing brace belongs to the
placeholder as well. -/
theorem Placeholder.Formed.brace_mem_of_text_eq {p : Placeholder} (hp : p.Formed) {s : Sign}
    {inner outer behind source : List Char} (h : p.text = inner ++ s.char :: outer)
    (hopen : outer ++ behind = '#' :: '{' :: source) : '}' ∈ outer := by
  rcases eq_lead_or_of_text_eq hp.keyword hp.body h with
    rfl | ⟨sign, sourceBefore, sourceBehind, hexpression, rfl⟩
  · rw [text_eq, List.append_assoc, p.body.text_eq_sign_cons] at h
    obtain ⟨-, houter⟩ := List.cons.inj (List.append_cancel_left h)
    cases hliteral : p.body.expression? with
    | none =>
      have hhead := Body.Literal.head?_tail_ne ⟨hp.body, hliteral⟩ (p.trail ++ behind)
      rw [← List.append_assoc, show p.body.text.tail ++ p.trail = outer from houter, hopen] at hhead
      exact absurd rfl hhead
    | some written =>
      cases hform : p.body with
      | index digits => simp [hform, Body.expression?] at hliteral
      | name identifier => simp [hform, Body.expression?] at hliteral
      | expression sign source =>
        rw [← houter, hform]
        simp [Body.text]
  · rw [text_eq, List.append_assoc, List.append_assoc, hexpression] at h
    have hinner := List.append_cancel_left h
    simp only [Body.text, List.cons_append, List.append_assoc, List.cons.injEq, true_and,
      List.append_cancel_left_eq] at hinner
    rw [← hinner]
    simp

namespace Piece.Rewritten

theorem ne_expression_of_plain {cs : List Char} {s : Sign} {earlier later later' : List Piece}
    (hpieces : ofText cs = earlier ++ Piece.plain s.char :: later)
    (hlater : List.Forall₂ Rewritten later later') {source rest : List Char} (hne : source ≠ [])
    (hbrace : '}' ∉ source) :
    later'.flatMap Piece.text ≠ '#' :: '{' :: source ++ '}' :: rest := by
  intro htext
  -- the two signs that open the expression are left over in the text as well
  obtain ⟨ps, ps', rfl, rfl, hps⟩ :=
    exists_plain_cons hlater (c := '#') (by decide) (Or.inr (by rw [htext]; rfl))
  have hbehind : ps'.flatMap Piece.text = '{' :: (source ++ '}' :: rest) := (List.cons.inj htext).2
  obtain ⟨qs, qs', rfl, rfl, hqs⟩ :=
    exists_plain_cons hps (c := '{') (by decide) (Or.inr (by rw [hbehind]; rfl))
  have hsource : qs'.flatMap Piece.text = source ++ '}' :: rest := (List.cons.inj hbehind).2
  have hclose : '}' ∈ qs.flatMap Piece.text := brace_mem_of_mem hqs (by rw [hsource]; simp)
  obtain ⟨written, behind, hwritten, hnot⟩ := List.eq_append_cons_of_mem hclose
  by_cases hnil : written = []
  · rw [hnil] at hwritten
    obtain ⟨rs, rs', -, rfl, -⟩ :=
      exists_plain_cons hqs (c := '}') (by decide) (Or.inl (by rw [hwritten]; rfl))
    obtain ⟨c, source, rfl⟩ := List.exists_cons_of_ne_nil hne
    obtain ⟨hc, -⟩ := List.cons.inj hsource
    exact hbrace (by rw [hc]; exact List.mem_cons_self)
  · have hnone := isReadAt_of_ofText_eq hpieces
    obtain ⟨p, rest', hread⟩ := @exists_readUnescaped?_of_body
      (earlier.flatMap Piece.text).getLast? (.expression s written) behind ⟨hnil, hnot⟩ trivial
      trivial
    have hsame : (Body.expression s written).text ++ behind = s.char ::
        (Piece.plain '#' :: Piece.plain '{' :: qs).flatMap Piece.text := by
      simp [Body.text, Piece.text, hwritten]
    rw [hsame] at hread
    cases hread.symm.trans hnone

end Piece.Rewritten

theorem Occurrence.exists_open_of_sourceSpan? {cs before behind : List Char} {o : Occurrence}
    {source : Span} (ho : o ∈ occurrences cs) (hcs : cs = before ++ behind)
    (hsource : source ∈ o.sourceSpan?) (hcontains : source.contains (width before) = true) :
    ∃ (earlier : List Char) (s : Sign) (inside between rest : List Char),
      before = earlier ++ s.char :: '#' :: '{' :: inside ∧ behind = between ++ '}' :: rest ∧
        between ≠ [] ∧ '}' ∉ inside ++ between := by
  obtain ⟨s, written, hbody, rfl⟩ := Occurrence.exists_body_of_sourceSpan? hsource
  obtain ⟨earlier, later, htext, hopen, hclosed⟩ := Occurrence.exists_text_eq_of_expression ho hbody
  rw [Span.contains_iff, Span.start_ofText, Span.stop_ofText, ← hopen] at hcontains
  obtain ⟨inside, rfl, hinside⟩ :=
    exists_append_of_width_le (htext.symm.trans hcs) hcontains.1
  rw [width_append _ inside] at hcontains
  obtain ⟨between, rfl, rfl⟩ := exists_append_of_width_le hinside.symm (by omega)
  refine ⟨earlier, s, inside, between, later, by simp, rfl, ?_, hclosed⟩
  rintro rfl
  rw [List.append_nil] at hcontains
  omega

namespace Piece

variable {cs : List Char} {earlier later earlier' later' : List Piece} {p : Placeholder} {b : Body}

/-- No expression opens in front of a body that has been written and is closed behind its sign. -/
theorem not_open_in_front (hpieces : ofText cs = earlier ++ placeholder p :: later)
    (hearlier : List.Forall₂ Rewritten earlier earlier')
    (hlater : List.Forall₂ Rewritten later later') (hb : b.Literal) {before : List Char} {s : Sign}
    {inside between rest : List Char}
    (hfront : earlier'.flatMap text ++ p.front = before ++ s.char :: '#' :: '{' :: inside)
    (hback : b.text ++ (p.back ++ later'.flatMap text) = between ++ '}' :: rest)
    (hne : between ≠ []) : '}' ∈ inside ++ between := by
  have hp : p.Formed := formed_of_mem_ofText (by rw [hpieces]; simp) p rfl
  have hsign : s.char ∉ p.front := by
    intro hmem
    exact sign_not_mem_lead hp.keyword s (List.mem_append_left _ hmem)
  obtain ⟨inner, hinner, hinside⟩ := exists_append_of_not_mem hfront hsign
  obtain ⟨before', piece', between', before'', outer, rfl, hpiece, -, rfl⟩ :=
    exists_piece_of_flatMap_text_eq hinner
  obtain ⟨as, piece, bs, rfl, -, hrewritten, hbs⟩ := Rewritten.exists_of_append hearlier
  -- the sign is one that was left over, or it belongs to a placeholder that keeps its closing brace
  have hplaceholder {p' : Placeholder} (hp' : p'.Formed)
      (hp'text : p'.text = before'' ++ s.char :: outer) : '}' ∈ inside ++ between := by
    rw [List.append_assoc] at hinside
    have hmem := hp'.brace_mem_of_text_eq hp'text hinside.symm
    have hall : '}' ∈ '#' :: '{' :: inside := by
      rw [hinside]
      exact List.mem_append_left _ hmem
    have hin : '}' ∈ inside := by simpa using hall
    exact List.mem_append_left _ hin
  cases hrewritten with
  | same hp' => exact hplaceholder hp' hpiece
  | body hp' hb' => exact hplaceholder (hp'.withBody hb') hpiece
  | plain c =>
    obtain ⟨rfl, rfl, rfl⟩ : before'' = [] ∧ c = s.char ∧ outer = [] := by
      cases before'' with
      | nil =>
        cases hpiece
        exact ⟨rfl, rfl, rfl⟩
      | cons => simp [text] at hpiece
    by_contra hbrace
    refine @Rewritten.ne_expression_of_plain cs s as (bs ++ placeholder p :: later) _
      (by rw [hpieces]; simp)
      (List.rel_append hbs (List.Forall₂.cons (Rewritten.body hp hb) hlater))
      (inside ++ between) rest (by simp [hne]) hbrace ?_
    rw [List.flatMap_append, List.flatMap_cons, text, text_withBody]
    rw [List.nil_append] at hinside
    calc
      _ = (between'.flatMap text ++ p.front) ++ (b.text ++ (p.back ++ later'.flatMap text)) := by
        simp
      _ = _ := by rw [← hinside, hback]; simp

/-- A body that is written in place of a parameter is read back exactly if its run ends behind the
decorated body and it counts behind what stands in front of it. -/
theorem exists_occurrence_withBody_iff (hpieces : ofText cs = earlier ++ placeholder p :: later)
    (hearlier : List.Forall₂ Rewritten earlier earlier')
    (hlater : List.Forall₂ Rewritten later later') (hb : b.Literal) :
    (∃ o ∈ occurrences (earlier'.flatMap text ++ ((p.withBody b).text ++ later'.flatMap text)),
        o.bodyStart = width (earlier'.flatMap text ++ p.front) ∧ o.placeholder.body = b) ↔
      b.EndsAt (p.back ++ later.flatMap text) ∧
        b.LiveBehind (earlier.flatMap text ++ p.front).getLast? := by
  have hp : p.Formed := formed_of_mem_ofText (by rw [hpieces]; simp) p rfl
  have htext : earlier'.flatMap text ++ ((p.withBody b).text ++ later'.flatMap text) =
      (earlier'.flatMap text ++ p.front) ++ (b.text ++ (p.back ++ later'.flatMap text)) := by
    rw [text_withBody]
    simp
  have hstands : b.StandsAt (earlier'.flatMap text ++ ((p.withBody b).text ++ later'.flatMap text))
      (width (earlier'.flatMap text ++ p.front)) ↔
        b.EndsAt (p.back ++ later.flatMap text) ∧
          b.LiveBehind (earlier.flatMap text ++ p.front).getLast? := by
    have hlive : b.LiveBehind (earlier'.flatMap text ++ p.front).getLast? ↔
        b.LiveBehind (earlier.flatMap text ++ p.front).getLast? := by
      rw [List.getLast?_append, List.getLast?_append]
      cases p.front.getLast? with
      | none => simpa using Rewritten.liveBehind_iff hearlier (Iff.refl (b.LiveBehind none))
      | some c => exact Iff.rfl
    rw [htext, Body.standsAt_width_iff, Rewritten.endsAt_iff hlater, hlive]
    exact and_iff_right hb.formed
  rw [← hstands]
  constructor
  · intro h
    obtain ⟨o, ho, hstart, rfl⟩ := h
    rw [← hstart]
    exact Body.standsAt_of_mem_occurrences ho
  · intro h
    obtain ⟨o, ho, haccounts⟩ := exists_accounts_of_body h
    rcases haccounts with hbody | ⟨source, hsource, hcontains⟩
    · exact ⟨o, ho, hbody⟩
    · obtain ⟨before, s, inside, between, rest, hfront, hback, hne, hbrace⟩ :=
        Occurrence.exists_open_of_sourceSpan? ho htext hsource hcontains
      exact absurd (not_open_in_front hpieces hearlier hlater hb hfront hback hne) hbrace

end Piece

/-- A parameter whose decorated body is replaced is read back from the cleaned text, with the key of
its binding, exactly if the run of what is written ends behind the decorated body and no colon or
backslash in front of it takes a name away. -/
theorem ParsedQuery.exists_occurrence_of_edit_iff {query : String} {survey : Survey}
    {q : ParsedQuery} {m : Nat × Occurrence} {e : Edit}
    (hsurvey : Survey.ofText query.toList = .ok survey) (hparse : parse query = .ok q)
    (hm : m ∈ survey.numbered query.toList)
    (hedit : Occurrence.edit? survey.numbering m = some e) :
    ∃ (b : Body) (before behind : List Char), b.Literal ∧ b.text = e.written ∧
      query.toList = before ++ (m.2.placeholder.decorated ++ behind) ∧ e.span.start = width before ∧
      (∃ copied, q.text.toList =
        rewrite (survey.edits query.toList) 0 before ++ (e.written ++ copied)) ∧
      ((∃ o ∈ occurrences q.text.toList,
          o.bodyStart = width (rewrite (survey.edits query.toList) 0 before) ∧
            o.placeholder.body.text = e.written ∧
            ∃ found ∈ q.bindings, found = m.2.placeholder.binding survey.numbering m.1 ∧
              found.key = o.placeholder.body.key survey.numbering 0) ↔
        b.EndsAt behind ∧ b.LiveBehind before.getLast?) := by
  obtain ⟨number, o⟩ := m
  obtain ⟨hextractable, htext, -⟩ := (parse_eq_ok_iff hsurvey).1 hparse
  obtain ⟨earlier, later, earlier', later', hstart, hsite⟩ := Survey.exists_site hm
  have hparameter := Numbering.mem_of_mem_assign hm
  have hformed : o.placeholder.Formed :=
    Piece.formed_of_mem_ofText (by rw [hsite.pieces]; simp) _ rfl
  obtain ⟨b, hb, rfl⟩ : ∃ b, o.placeholder.writtenBody? survey.numbering number = some b ∧
      Edit.mk o.decoratedSpan b.text = e := by
    unfold Occurrence.edit? at hedit
    rw [← map_text_writtenBody?, Option.map_map, Option.map_eq_some_iff] at hedit
    exact hedit
  have hliteral := literal_of_writtenBody?_eq_some hformed hb
  have hcleaned : q.text.toList = earlier'.flatMap Piece.text ++
      ((o.placeholder.withBody b).text ++ later'.flatMap Piece.text) := by
    rw [htext, String.toList_ofList, hsite.cleaned, written, hb]
  have hnumber : number < UInt32.size :=
    Nat.lt_of_le_of_lt (Numbering.le_of_mem_assign hm) hextractable.numbers
  have hbinding : o.placeholder.binding survey.numbering number ∈ q.bindings :=
    mem_bindings_of_parse hsurvey hparse (List.mem_map.2 ⟨_, hm, rfl⟩)
  have hread := Piece.exists_occurrence_withBody_iff hsite.pieces hsite.rewritten_earlier
    hsite.rewritten_later hliteral
  refine ⟨b, earlier.flatMap Piece.text ++ o.placeholder.front,
    o.placeholder.back ++ later.flatMap Piece.text, hliteral, rfl, ?_, ?_, ?_, ?_⟩
  · rw [Piece.eq_append_of_ofText_eq hsite.pieces, Piece.text, Placeholder.text]
    simp
  · rw [Occurrence.decoratedSpan, Span.start_ofText, hstart, width_append]
  · refine ⟨o.placeholder.back ++ later'.flatMap Piece.text, ?_⟩
    rw [hcleaned, hsite.rewrite_front, text_withBody]
    simp
  · rw [hsite.rewrite_front, ← hread, hcleaned]
    constructor
    · intro h
      obtain ⟨o', ho', hlanding, hbody, -⟩ := h
      obtain ⟨-, -, -, -, hformed', -⟩ := Body.standsAt_of_mem_occurrences ho'
      exact ⟨o', ho', hlanding, hformed'.eq_of_text_eq hliteral.formed hbody⟩
    · intro h
      obtain ⟨o', ho', hlanding, rfl⟩ := h
      exact ⟨o', ho', hlanding, rfl, _, hbinding, rfl, (key_of_writtenBody?_eq_some hb hnumber).symm⟩

theorem ParsedQuery.exists_occurrence_of_edit_expression :
    ∃ q, parse "a like :x% and b = ?#{y}" = .ok q ∧
      ∃ o ∈ occurrences q.text.toList, o.bodyStart = 18 ∧ o.placeholder.body.text = "?1".toList ∧
        ∃ found ∈ q.bindings, found.expression = some "y" ∧ found.key = .position 1 := by
  have hsurvey : Survey.ofText "a like :x% and b = ?#{y}".toList =
      .ok ⟨.positional, 0, { ranges := [], ascending := by simp }⟩ := by
    decide +kernel
  have hparse : parse "a like :x% and b = ?#{y}" = .ok
      { text := "a like :x and b = ?1"
        registry := ⟨[{ key := .name "x", kind := .like .startingWith },
          { key := .position 1, expression := some "y" }], by decide⟩
        usesPaging := false } := by
    decide +kernel
  obtain ⟨b, before, behind, hliteral, htext, hquery, hstart, -, hread⟩ :=
    exists_occurrence_of_edit_iff hsurvey hparse
      (m := (1, ⟨18, ⟨none, true, false, false, .expression .question ['y'], false, false⟩⟩))
      (by decide +kernel) rfl
  obtain ⟨rfl, hbehind⟩ : "a like :x% and b = ".toList = before ∧ "?#{y}".toList = _ :=
    eq_of_width_eq (by rw [← hquery]; decide +kernel) (by rw [← hstart]; decide +kernel)
  obtain rfl : [] = behind := @List.append_cancel_left _ "?#{y}".toList _ _ hbehind
  obtain rfl : b = .index ['1'] := hliteral.formed.eq_of_text_eq (by decide +kernel) htext
  obtain ⟨o, ho, hlanding, hbody, found, hfound, rfl, -⟩ := hread.2 (by decide +kernel)
  exact ⟨_, hparse, o, ho, hlanding.trans (by decide +kernel), hbody, _, hfound, rfl, rfl⟩

/-- A digit behind an expression goes on with the index that is written in its place, so the cleaned
text names another parameter than the one that is bound. -/
theorem ParsedQuery.index_runs_on_behind_expression :
    ∃ survey q m e, Survey.ofText "a = ?#{x}5".toList = .ok survey ∧
      parse "a = ?#{x}5" = .ok q ∧ m ∈ survey.numbered "a = ?#{x}5".toList ∧
      Occurrence.edit? survey.numbering m = some e ∧ e.written = "?1".toList ∧
      q.bindings = [{ key := .position 1, expression := some "x" }] ∧
      (occurrences q.text.toList).map (·.placeholder.body) = [.index "15".toList] ∧
      ¬∃ o ∈ occurrences q.text.toList, o.placeholder.body.text = e.written := by
  have hsurvey : Survey.ofText "a = ?#{x}5".toList =
      .ok ⟨.positional, 0, { ranges := [], ascending := by simp }⟩ := by
    decide +kernel
  have hparse : parse "a = ?#{x}5" = .ok
      { text := "a = ?15"
        registry := ⟨[{ key := .position 1, expression := some "x" }], by decide⟩
        usesPaging := false } := by
    decide +kernel
  refine ⟨_, _, (1, ⟨3, ⟨none, true, false, false, .expression .question ['x'], false, false⟩⟩), _,
    hsurvey, hparse, by decide +kernel, rfl, by decide +kernel, rfl, by decide +kernel,
    by decide +kernel⟩

end QueryParams
