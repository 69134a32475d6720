import QueryParams.Proofs.Extraction.Resolution
import QueryParams.Proofs.Placeholder.Division
import QueryParams.Proofs.Placeholder.Surrounding

/-!
# The division of a text without decorations

When LIKE placeholders lose the `%` on their sides, the rest of the text is still divided in the
same way. This needs one condition: behind a `%` that is left out there is neither another one,
which would belong to the placeholder now, nor a name character, which would go on with its body.

Main statement: `Piece.Stripped.split_eq`.
-/

namespace QueryParams

namespace Placeholder

def bare (p : Placeholder) : Placeholder := { p with leading := false, trailing := false }

def SetsApart (cs : List Char) : Prop := ∀ c ∈ cs.head?, c ≠ '%' ∧ isNameChar c = false

theorem text_bare (p : Placeholder) : p.bare.text = p.front ++ (p.body.text ++ p.back) := by
  show p.front ++ ([] ++ p.body.text ++ []) ++ p.back = _
  simp

theorem text_eq_front (p : Placeholder) :
    p.text = p.front ++ (Text.optional p.leading '%' ++
      (p.body.text ++ (Text.optional p.trailing '%' ++ p.back))) := by
  simp [text, decorated]

theorem exists_keyword_of_isLike {p : Placeholder} (h : p.isLike = true) :
    ∃ k, p.keyword = some k := by
  cases hk : p.keyword with
  | none => simp [isLike, hk] at h
  | some k => exact ⟨k, rfl⟩

theorem exists_front_eq {p : Placeholder} {k : Keyword} (h : p.keyword = some k) :
    ∃ gap, p.front = k.text ++ gap := by
  refine ⟨Text.optional p.spaced ' ' ++ Text.optional p.opened '(', ?_⟩
  simp [front, h]

theorem not_setsApart_of_keyword {p : Placeholder} {k : Keyword} (h : p.keyword = some k)
    (hk : k.WellFormed) (rest : List Char) : ¬SetsApart (p.text ++ rest) := by
  obtain ⟨gap, hgap⟩ := exists_front_eq h
  obtain ⟨c, cs, hword, hc⟩ := Keyword.exists_word_eq_cons hk
  intro hapart
  have hhead := hapart c (by simp [text, hgap, Keyword.text, hword])
  rw [Keyword.isNameChar_of_mem_letters hc] at hhead
  cases hhead.2

theorem head?_text_bare {p : Placeholder} (h : p.isLike = true) :
    p.bare.text.head? = p.text.head? := by
  obtain ⟨k, hk⟩ := exists_keyword_of_isLike h
  obtain ⟨gap, hgap⟩ := exists_front_eq hk
  have hne : p.front ≠ [] := by simp [hgap, Keyword.text]
  rw [text_bare, text_eq_front, List.head?_append_of_ne_nil _ hne,
    List.head?_append_of_ne_nil _ hne]

end Placeholder

namespace Piece

open Placeholder

/-- The second pieces are the first ones with some LIKE placeholders bare. -/
inductive Stripped : List Piece → List Piece → Prop where
  | nil : Stripped [] []
  | same (piece : Piece) {ps ps' : List Piece} (h : Stripped ps ps') :
    Stripped (piece :: ps) (piece :: ps')
  | bare (p : Placeholder) {ps ps' : List Piece} (hlike : p.isLike = true)
    (hliteral : p.isExpression = false)
    (hapart : p.trailing = true → SetsApart (p.back ++ ps.flatMap text)) (h : Stripped ps ps') :
    Stripped (placeholder p :: ps) (placeholder p.bare :: ps')

namespace Stripped

variable {ps ps' : List Piece}

theorem head?_flatMap_text (h : Stripped ps ps') :
    (ps'.flatMap text).head? = (ps.flatMap text).head? := by
  induction h with
  | nil => rfl
  | same piece _ ih =>
    rw [List.flatMap_cons, List.flatMap_cons, List.head?_append, List.head?_append, ih]
  | bare p hlike _ _ _ ih =>
    rw [List.flatMap_cons, List.flatMap_cons, List.head?_append, List.head?_append, ih, text, text,
      head?_text_bare hlike]

theorem sublist_flatMap_text (h : Stripped ps ps') :
    (ps'.flatMap text).Sublist (ps.flatMap text) := by
  induction h with
  | nil => exact List.Sublist.refl _
  | same piece _ ih => exact (List.Sublist.refl piece.text).append ih
  | bare p _ _ _ _ ih =>
    refine List.Sublist.append ?_ ih
    rw [text, text, text_bare, text_eq_front]
    exact (List.Sublist.refl _).append
      (((List.Sublist.refl _).append (List.sublist_append_right _ _)).trans
        (List.sublist_append_right _ _))

/-- Up to the keyword of the first bare placeholder both texts are the same. -/
theorem eq_or_exists_keyword (h : Stripped ps ps') :
    ps' = ps ∨ ∃ xs p ys k behind behind', ps = xs ++ placeholder p :: ys ∧ p.keyword = some k ∧
      ps.flatMap text = xs.flatMap text ++ (k.text ++ behind) ∧
        ps'.flatMap text = xs.flatMap text ++ (k.text ++ behind') ∧
          ('}' ∈ behind' → '}' ∈ behind) := by
  induction h with
  | nil => exact Or.inl rfl
  | same piece _ ih =>
    rcases ih with heq | ⟨xs, p, ys, k, behind, behind', hps, hk, htext, htext', hclose⟩
    · exact Or.inl (by rw [heq])
    · refine Or.inr ⟨piece :: xs, p, ys, k, behind, behind', by rw [hps]; rfl, hk, ?_, ?_, hclose⟩
      · rw [List.flatMap_cons, htext, List.flatMap_cons, List.append_assoc]
      · rw [List.flatMap_cons, htext', List.flatMap_cons, List.append_assoc]
  | @bare p ps ps' hlike _ _ hrest _ =>
    obtain ⟨k, hk⟩ := exists_keyword_of_isLike hlike
    obtain ⟨gap, hgap⟩ := exists_front_eq hk
    refine Or.inr ⟨[], p, ps, k, gap ++ (Text.optional p.leading '%' ++ (p.body.text ++
      (Text.optional p.trailing '%' ++ p.back))) ++ ps.flatMap text,
      gap ++ (p.body.text ++ p.back) ++ ps'.flatMap text, rfl, hk, ?_, ?_, ?_⟩
    · rw [List.flatMap_cons, text, text_eq_front, hgap]
      simp
    · rw [List.flatMap_cons, text, text_bare, hgap]
      simp
    · intro hmem
      have hsub : '}' ∈ ps'.flatMap text → '}' ∈ ps.flatMap text :=
        fun h => hrest.sublist_flatMap_text.subset h
      simp only [List.mem_append] at hmem ⊢
      tauto

/-- Where nothing is read in the text with decorations, nothing is read in the other one. -/
theorem readUnescaped?_plain_eq_none (h : Stripped ps ps') {before : Option Char} {c : Char}
    (hsplit : split before (c :: ps.flatMap text) = plain c :: ps) :
    readUnescaped? before (c :: ps'.flatMap text) = none := by
  have hread := @split_flatMap_text_eq_iff before (plain c :: ps)
  have hpieces := hread.1 hsplit
  have hnone : readUnescaped? before (c :: ps.flatMap text) = none := by
    simpa [IsReadAt] using hpieces [] (plain c) ps rfl
  rcases h.eq_or_exists_keyword with
    heq | ⟨xs, p, ys, k, behind, behind', hps, hk, htext, htext', hclose⟩
  · rw [heq]
    exact hnone
  · cases hread' : readUnescaped? before (c :: ps'.flatMap text) with
    | none => rfl
    | some found =>
      obtain ⟨p', rest'⟩ := found
      have hat := hpieces (plain c :: xs) (placeholder p) ys (by rw [hps]; rfl)
      obtain ⟨-, hfits, -⟩ := readUnescaped?_eq_some_iff.1 hat
      obtain ⟨hformed, hbegin⟩ := hfits.keyword k hk
      have hlast : ((plain c :: xs).flatMap text).getLast?.or before =
          (c :: xs.flatMap text).getLast? := by
        have hne : c :: xs.flatMap text ≠ [] := List.cons_ne_nil _ _
        show (c :: xs.flatMap text).getLast?.or before = _
        rw [List.getLast?_eq_some_getLast hne]
        rfl
      rw [hlast] at hbegin
      rw [htext'] at hread'
      obtain ⟨p'', rest'', hsome⟩ := exists_readUnescaped?_of_keyword hformed
        (List.cons_ne_nil c (xs.flatMap text)) hbegin hclose hread'
      rw [htext] at hnone
      rw [← List.cons_append, hsome] at hnone
      cases hnone

end Stripped

end Piece

/-! ## The character in front -/

theorem Body.EndsAt.of_setsApart {b : Body} {cs : List Char} (h : Placeholder.SetsApart cs) :
    b.EndsAt cs :=
  Body.endsAt_of_forall_head? (fun c hc => (h c hc).2) b

theorem Body.exists_getLast?_text {b : Body} (hformed : b.WellFormed)
    (hliteral : b.expression? = none) : ∃ c, b.text.getLast? = some c ∧ isNameChar c = true := by
  cases b with
  | index digits =>
    obtain ⟨hne, hdigits⟩ := hformed
    refine ⟨digits.getLast hne, ?_, isNameChar_of_isDigit (hdigits _ (List.getLast_mem hne))⟩
    rw [text, List.getLast?_cons, List.getLast?_eq_some_getLast hne]
    rfl
  | name identifier =>
    obtain ⟨hne, hname⟩ := hformed
    refine ⟨identifier.getLast hne, ?_, hname _ (List.getLast_mem hne)⟩
    rw [text, List.getLast?_cons, List.getLast?_eq_some_getLast hne]
    rfl
  | expression sign source => cases hliteral

theorem Body.getLast?_text_ne_percent {b : Body} (hformed : b.WellFormed) :
    b.text.getLast? ≠ some '%' := by
  cases hexpression : b.expression? with
  | none =>
    obtain ⟨c, hc, hname⟩ := exists_getLast?_text hformed hexpression
    rw [hc, ne_eq, Option.some.injEq]
    exact ne_of_isNameChar hname (by decide)
  | some source =>
    cases b with
    | index digits => cases hexpression
    | name identifier => cases hexpression
    | expression sign source => simp [text, List.getLast?_cons]

namespace Placeholder

/-- What stands in front of a text: the same character, or the last one of a body where there was
the `%` behind it. -/
def Neighbours (before before' : Option Char) (cs : List Char) : Prop :=
  before' = before ∨
    before = some '%' ∧ (∃ c, before' = some c ∧ isNameChar c = true) ∧ SetsApart cs

variable {before before' : Option Char} {p : Placeholder} {cs rest rest' : List Char}

theorem Neighbours.of_head?_eq (h : Neighbours before before' cs) (hhead : rest.head? = cs.head?) :
    Neighbours before before' rest := by
  rcases h with heq | ⟨hpercent, hname, hapart⟩
  · exact Or.inl heq
  · refine Or.inr ⟨hpercent, hname, ?_⟩
    intro c hc
    rw [hhead] at hc
    exact hapart c hc

theorem Neighbours.eq_of_keyword {k : Keyword} (h : Neighbours before before' (p.text ++ rest))
    (hk : p.keyword = some k) (hformed : k.WellFormed) : before' = before := by
  rcases h with heq | ⟨-, -, hapart⟩
  · exact heq
  · exact absurd hapart (not_setsApart_of_keyword hk hformed rest)

/-- Behind the last character of a body nothing more can be read than behind a `%`. -/
theorem Neighbours.readUnescaped?_eq_some (h : Neighbours before before' cs)
    (hread : readUnescaped? before' cs = some (p, rest)) :
    readUnescaped? before cs = some (p, rest) := by
  obtain ⟨htext, hfits, hlive⟩ := readUnescaped?_eq_some_iff.1 hread
  rcases h with heq | ⟨hpercent, -, -⟩
  · rw [← heq]
    exact hread
  · refine readUnescaped?_eq_some_iff.2 ⟨htext,
      ⟨?_, hfits.body, hfits.body_ends, hfits.trailing, hfits.closed⟩, ?_⟩
    · intro k hk
      refine ⟨(hfits.keyword k hk).1, ?_⟩
      rw [hpercent]
      decide +kernel
    · cases hlead : p.lead.getLast? with
      | none =>
        rw [hpercent]
        exact p.body.liveBehind_some (by decide) (by decide)
      | some c =>
        rw [hlead] at hlive
        exact hlive

theorem head?_append_congr (cs : List Char) (h : rest'.head? = rest.head?) :
    (cs ++ rest').head? = (cs ++ rest).head? := by
  rw [List.head?_append, List.head?_append, h]

theorem readUnescaped?_of_neighbours
    (hread : readUnescaped? before (p.text ++ rest) = some (p, rest))
    (h : Neighbours before before' (p.text ++ rest)) (hhead : rest'.head? = rest.head?) :
    readUnescaped? before' (p.text ++ rest') = some (p, rest') := by
  obtain ⟨-, hfits, hlive⟩ := readUnescaped?_eq_some_iff.1 hread
  refine readUnescaped?_eq_some_iff.2 ⟨rfl, ⟨?_, hfits.body, ?_, ?_, ?_⟩, ?_⟩
  · intro k hk
    obtain ⟨hformed, hbegin⟩ := hfits.keyword k hk
    rw [h.eq_of_keyword hk hformed]
    exact ⟨hformed, hbegin⟩
  · exact Body.EndsAt.of_head?_eq hfits.body_ends (head?_append_congr _ hhead)
  · intro htrailing
    rw [head?_append_congr _ hhead]
    exact hfits.trailing htrailing
  · intro hclosed
    rw [hhead]
    exact hfits.closed hclosed
  · rcases h with heq | ⟨-, ⟨c, hc, hname⟩, -⟩
    · rw [heq]
      exact hlive
    · cases hlead : p.lead.getLast? with
      | none =>
        have hcolon : isNameChar ':' = false := by decide
        have hbackslash : isNameChar '\\' = false := by decide
        rw [hc]
        exact p.body.liveBehind_some (ne_of_isNameChar hname hcolon)
          (ne_of_isNameChar hname hbackslash)
      | some d =>
        rw [hlead] at hlive
        exact hlive

theorem readUnescaped?_bare (hread : readUnescaped? before (p.text ++ rest) = some (p, rest))
    (hlike : p.isLike = true) (hapart : p.trailing = true → SetsApart (p.back ++ rest))
    (hhead : rest'.head? = rest.head?) :
    readUnescaped? before (p.bare.text ++ rest') = some (p.bare, rest') := by
  obtain ⟨-, hfits, hlive⟩ := readUnescaped?_eq_some_iff.1 hread
  have hback : (p.back ++ rest').head? = (p.back ++ rest).head? := head?_append_congr _ hhead
  refine readUnescaped?_eq_some_iff.2 ⟨rfl, ⟨hfits.keyword, hfits.body, ?_, ?_, ?_⟩, ?_⟩
  · show p.body.EndsAt (p.back ++ rest')
    refine Body.EndsAt.of_head?_eq ?_ hback
    cases htrailing : p.trailing with
    | true => exact Body.EndsAt.of_setsApart (hapart htrailing)
    | false =>
      have hends := hfits.body_ends
      rw [htrailing] at hends
      exact hends
  · intro _
    show (p.back ++ rest').head? ≠ some '%'
    rw [hback]
    cases htrailing : p.trailing with
    | true =>
      intro hpercent
      exact (hapart htrailing '%' hpercent).1 rfl
    | false => exact hfits.trailing htrailing
  · intro hclosed
    rw [hhead]
    exact hfits.closed hclosed
  -- the lead is not empty, and neither a colon nor a backslash is written in it
  · obtain ⟨k, hk⟩ := exists_keyword_of_isLike hlike
    obtain ⟨gap, hgap⟩ := exists_front_eq hk
    have hne : p.bare.lead ≠ [] := by
      show p.front ++ [] ≠ []
      simp [hgap, Keyword.text]
    have hkeyword : ∀ k ∈ p.bare.keyword, k.WellFormed := hfits.wellFormed_keyword
    have hlast := mem_lead hkeyword (List.getLast_mem hne)
    rw [List.getLast?_eq_some_getLast hne]
    apply Body.liveBehind_some
    · intro heq
      rw [heq] at hlast
      exact absurd hlast (by decide)
    · intro heq
      rw [heq] at hlast
      exact absurd hlast (by decide)

theorem neighbours_bare (hformed : p.body.WellFormed) (hliteral : p.isExpression = false)
    (hapart : p.trailing = true → SetsApart (p.back ++ rest)) :
    Neighbours p.text.getLast? p.bare.text.getLast? rest := by
  have hexpression := expression?_eq_none hliteral
  obtain ⟨c, hc, hname⟩ := Body.exists_getLast?_text hformed hexpression
  have hlast (cs : List Char) : (cs ++ p.body.text).getLast? = some c := by
    rw [List.getLast?_append, hc]
    rfl
  rw [text_bare, text_eq_front]
  cases hclosed : p.closed with
  | true =>
    left
    simp [back, hclosed, Text.optional]
  | false =>
    have hback : p.back = [] := by simp [back, hclosed, Text.optional]
    rw [hback, List.nil_append] at hapart
    rw [hback, List.append_nil, List.append_nil, hlast]
    cases htrailing : p.trailing with
    | true =>
      right
      refine ⟨?_, ⟨c, rfl, hname⟩, hapart htrailing⟩
      simp [Text.optional]
    | false =>
      left
      have hsame : p.front ++ (Text.optional p.leading '%' ++
          (p.body.text ++ Text.optional false '%')) =
            (p.front ++ Text.optional p.leading '%') ++ p.body.text := by
        simp [Text.optional]
      rw [hsame, hlast]

end Placeholder

/-! ## The division -/

namespace Piece

open Placeholder

/-- The text without the decorations is divided into the pieces without them. -/
theorem Stripped.split_eq {ps ps' : List Piece} (h : Stripped ps ps') {before before' : Option Char}
    (hneighbours : Neighbours before before' (ps.flatMap text))
    (hsplit : split before (ps.flatMap text) = ps) : split before' (ps'.flatMap text) = ps' := by
  induction h generalizing before before' with
  | nil => simp [split.eq_def]
  | @same piece ps ps' h ih =>
    obtain ⟨rest, hrest, hat, hlater⟩ := split_eq_cons_iff.1 hsplit
    rw [List.flatMap_cons] at hrest hneighbours
    obtain rfl : ps.flatMap text = rest := List.append_cancel_left hrest
    refine split_eq_cons_iff.2 ⟨ps'.flatMap text, List.flatMap_cons, ?_, ih (Or.inl rfl) hlater⟩
    cases piece with
    | plain c =>
      -- what could be read here without the decorations could have been read with them
      have hnone := h.readUnescaped?_plain_eq_none hsplit
      have hsame : Neighbours before before' (c :: ps'.flatMap text) :=
        hneighbours.of_head?_eq rfl
      show readUnescaped? before' (c :: ps'.flatMap text) = none
      cases hread : readUnescaped? before' (c :: ps'.flatMap text) with
      | none => rfl
      | some found =>
        rw [hsame.readUnescaped?_eq_some hread] at hnone
        cases hnone
    | placeholder p => exact readUnescaped?_of_neighbours hat hneighbours h.head?_flatMap_text
  | @bare p ps ps' hlike hliteral hapart h ih =>
    obtain ⟨rest, hrest, hat, hlater⟩ := split_eq_cons_iff.1 hsplit
    rw [List.flatMap_cons] at hrest hneighbours
    obtain rfl : ps.flatMap text = rest := List.append_cancel_left hrest
    have hread : readUnescaped? before (p.text ++ ps.flatMap text) =
        some (p, ps.flatMap text) := hat
    obtain ⟨-, hfits, -⟩ := readUnescaped?_eq_some_iff.1 hread
    obtain ⟨k, hk⟩ := exists_keyword_of_isLike hlike
    refine split_eq_cons_iff.2 ⟨ps'.flatMap text, List.flatMap_cons, ?_,
      ih (neighbours_bare hfits.body hliteral hapart) hlater⟩
    rw [hneighbours.eq_of_keyword hk (hfits.keyword k hk).1]
    exact readUnescaped?_bare hread hlike hapart h.head?_flatMap_text

end Piece

end QueryParams
