import QueryParams.Proofs.Canonical.Query
import QueryParams.Proofs.Canonical.Written
import QueryParams.Proofs.Count.Opening
import QueryParams.Proofs.Extraction.Alike
import QueryParams.Proofs.Extraction.Frame
import QueryParams.Proofs.Text.Search
import QueryParams.Query.Analyzer

/-!
# The bindings of a count query

A count query is the cleaned text of a query behind an opening, and the opening has no effect on how
it is parsed. So its bindings are those of the cleaned text, which does not tell any more which
sides of a LIKE parameter are open.

Main statements: `ParsedQuery.parse_opening_append` and `ParsedQuery.deriveCountQuery_bindings`.
-/

namespace QueryParams

open Quotations Extraction

variable {opening cs : List Char}

/-! ## The survey -/

namespace Text.Opening

theorem exists_eq_append (h : Text.Opening opening) :
    ∃ front, opening = front ++ [')'] ++ [' '] ∧ (∀ c ∈ front, c ≠ ':' ∧ c ≠ '?') ∧
      ∀ c ∈ front ++ [')'], isQuote c = false := by
  obtain ⟨front, rfl⟩ := h.closes
  have hmem : ∀ c ∈ front ++ [')'], c ∈ front ++ [')', ' '] := by
    simp only [List.mem_append, List.mem_cons]
    tauto
  exact ⟨front, by simp, fun c hc => h.signless c (List.mem_append_left _ hc),
    fun c hc => h.unquoted c (hmem c hc)⟩

theorem sign_not_mem (h : Text.Opening opening) : '?' ∉ opening :=
  fun hmem => (h.signless _ hmem).2 rfl

theorem openAfter_append (h : Text.Opening opening) (cs : List Char) :
    openAfter none (opening ++ cs) = openAfter none cs := by
  rw [Quotations.openAfter_append, openAfter_of_forall_not_isQuote h.unquoted]

theorem indexRuns_append (h : Text.Opening opening) (cs : List Char) :
    indexRuns (opening ++ cs) = indexRuns cs := by
  obtain ⟨front, rfl, -⟩ := h.exists_eq_append
  have hsign : '?' ∉ front ++ [')'] := fun hmem => h.sign_not_mem (List.mem_append_left _ hmem)
  rw [List.append_assoc (front ++ [')']), List.singleton_append,
    indexRuns_append_cons (by decide) (by decide), indexRuns_eq_nil hsign, List.nil_append]

theorem occursIn_append (h : Text.Opening opening) (cs : List Char) :
    occursIn Survey.positionalMark (opening ++ cs) = occursIn Survey.positionalMark cs := by
  obtain ⟨front, rfl, -⟩ := h.exists_eq_append
  have hsign : '?' ∉ front ++ [')'] := fun hmem => h.sign_not_mem (List.mem_append_left _ hmem)
  have hnone : occursIn Survey.positionalMark (front ++ [')']) = false :=
    occursIn_eq_false_of_not_mem hsign
  rw [List.append_assoc (front ++ [')']), List.singleton_append,
    occursIn_append_cons (by simp [Survey.positionalMark]) (by simp [Survey.positionalMark]), hnone,
    Bool.false_or]

theorem isBlankText_append (h : Text.Opening opening) (cs : List Char) :
    isBlankText (opening ++ cs) = false := by
  obtain ⟨front, rfl, -⟩ := h.exists_eq_append
  have hblank : isBlank ')' = false := by decide
  simp [isBlankText, hblank]

end Text.Opening

/-! ## The walk -/

variable {numbering : Numbering}

theorem Resolution.ofPlaceholder_indented {last : UInt32} {p : Placeholder}
    (hkeyword : p.keyword = none) (hspaced : p.spaced = false) :
    ofPlaceholder numbering last p.indented =
      (ofPlaceholder numbering last p).map fun r => { r with text := ' ' :: r.text } := by
  have hbody : p.indented.body = p.body := rfl
  have hkind : p.indented.kind = p.kind := rfl
  have hback : p.indented.back = p.back := rfl
  have hreplacement (kind : Kind) (key : Key) :
      replacement p.indented kind key = replacement p kind key := rfl
  unfold ofPlaceholder
  rw [hbody, hkind]
  cases keyOf numbering last p.body with
  | error e => rfl
  | ok resolved =>
    cases hk : p.kind with
    | error e => simp [bind, Except.bind, Except.map]
    | ok kind =>
      cases hb : Binding.ofKey kind resolved.1 (p.body.expression?.map String.ofList) with
      | error e => simp [bind, Except.bind, Except.map, hb]
      | ok binding =>
        simp [bind, Except.bind, Except.map, hb, pure, Except.pure, hreplacement, hback,
          Placeholder.front_indented hkeyword hspaced]

theorem Segment.parameter?_ofPieces_map_plain (quote? : Option Char) (cs : List Char) :
    ∀ s ∈ ofPieces quote? (cs.map .plain), s.parameter? = none := by
  induction cs generalizing quote? with
  | nil => simp [ofPieces]
  | cons c cs ih => exact List.forall_mem_cons.2 ⟨rfl, ih _⟩

namespace Extraction

theorem step_indented {done : Progress} {p : Placeholder} (hkeyword : p.keyword = none)
    (hspaced : p.spaced = false) :
    step numbering done (.parameter p.indented) =
      step numbering { done with text := done.text ++ String.ofList [' '] } (.parameter p) := by
  simp only [step, Resolution.ofPlaceholder_indented hkeyword hspaced]
  cases Resolution.ofPlaceholder numbering done.last p with
  | error e => rfl
  | ok resolved =>
    simp only [Except.map, bind, Except.bind, String.append_assoc, ← String.ofList_append,
      List.singleton_append]

theorem foldlM_step_opening (h : Text.Opening opening) (done : Progress) (cs : List Char) :
    (Segment.ofPieces none (Piece.ofText (opening ++ cs))).foldlM (step numbering) done =
      (Segment.ofPieces none (Piece.ofText cs)).foldlM (step numbering)
        { done with text := done.text ++ String.ofList opening } := by
  obtain ⟨front, rfl, hfront, hunquoted⟩ := h.exists_eq_append
  have htext : ((front ++ [')']).map Piece.plain).flatMap Piece.text = front ++ [')'] := by
    rw [List.flatMap_map]
    exact List.flatMap_singleton' _
  have hdivision : Piece.ofText (front ++ [')'] ++ [' '] ++ cs) =
      (front ++ [')']).map Piece.plain ++ Piece.split (some ')') (' ' :: cs) := by
    simpa [Piece.ofText] using Piece.split_append_paren hfront none (' ' :: cs)
  have hwritten : done.text ++ String.ofList (front ++ [')'] ++ [' ']) =
      done.text ++ String.ofList (front ++ [')']) ++ String.ofList [' '] := by
    simp only [String.ofList_append, String.append_assoc]
  have hspace : openAfter none [' '] = none := by decide
  rw [hdivision, Segment.ofPieces_append, htext, openAfter_of_forall_not_isQuote hunquoted,
    List.foldlM_append, foldlM_step_verbatim (Segment.parameter?_ofPieces_map_plain none _),
    Segment.flatMap_text_ofPieces, htext, hwritten]
  rcases Piece.split_space (some ')') cs with hplain | ⟨p, pieces, hkeyword, hspaced, hcs, hsplit⟩
  · rw [hplain, Segment.ofPieces, Piece.text, hspace]
    rfl
  · have hopen : openAfter none p.indented.text = openAfter none p.text := by
      rw [Placeholder.text_indented hkeyword hspaced]
      rfl
    rw [hsplit, hcs, Segment.ofPieces, Segment.ofPieces, Piece.text, Piece.text, hopen]
    show step numbering _ (.parameter p.indented) >>= _ = step numbering _ (.parameter p) >>= _
    rw [step_indented hkeyword hspaced]

theorem ofSurvey_opening {survey survey' : Survey} (h : Text.Opening opening)
    (hquotations : Quotations.ofText (opening ++ cs) = .ok survey.quotations)
    (hquotations' : Quotations.ofText cs = .ok survey'.quotations)
    (hnumbering : survey'.numbering = survey.numbering)
    (hgreatest : survey'.greatest = survey.greatest) :
    ofSurvey survey (opening ++ cs) =
      (ofSurvey survey' cs).map fun e => { e with text := String.ofList opening ++ e.text } := by
  have hstart : ({ last := survey.greatest, text := "" ++ String.ofList opening } : Progress) =
      Progress.behind (String.ofList opening) { last := survey.greatest } := by
    simp [Progress.behind]
  rw [ofSurvey, ofSurvey, Segment.ofText_eq_ofPieces hquotations,
    Segment.ofText_eq_ofPieces hquotations', foldlM_step_opening h, hstart, foldlM_step_behind,
    hnumbering, hgreatest]
  cases (Segment.ofPieces none (Piece.ofText cs)).foldlM (step survey.numbering)
      { last := survey.greatest } with
  | error e => rfl
  | ok done => rfl

end Extraction

/-- A text behind an opening is refused like the text itself, or it is parsed to the same bindings
and to the same text behind the opening. -/
theorem ParsedQuery.parse_opening_append {opening text : String}
    (h : Text.Opening opening.toList) (hblank : Text.isBlankText text.toList = false) :
    (∃ e e', parse (opening ++ text) = .error e ∧ parse text = .error e' ∧ e.SameKind e') ∨
      ∃ q q', parse (opening ++ text) = .ok q ∧ parse text = .ok q' ∧
        q.bindings = q'.bindings ∧ q.text = opening ++ q'.text := by
  have htoList : (opening ++ text).toList = opening.toList ++ text.toList := String.toList_append
  rcases Survey.ofText_alike (h.isBlankText_append text.toList) hblank
      (h.indexRuns_append text.toList).symm (h.occursIn_append text.toList).symm
      (h.openAfter_append text.toList).symm with
    ⟨e, e', hsurvey, hsurvey', hkind⟩ | ⟨survey, survey', hsurvey, hsurvey', hnumbering, hgreatest⟩
  · rw [← htoList] at hsurvey
    exact Or.inl ⟨e, e', parse_eq_error_of_survey hsurvey, parse_eq_error_of_survey hsurvey', hkind⟩
  · obtain ⟨-, hquotations, -⟩ := Survey.ofText_eq_ok_iff.1 hsurvey
    obtain ⟨-, hquotations', -⟩ := Survey.ofText_eq_ok_iff.1 hsurvey'
    have hwalk : Extraction.ofSurvey survey (opening ++ text).toList =
        (Extraction.ofSurvey survey' text.toList).map
          fun e => { e with text := opening ++ e.text } := by
      rw [htoList, Extraction.ofSurvey_opening h hquotations hquotations' hnumbering hgreatest,
        String.ofList_toList]
    rw [← htoList] at hsurvey
    rw [parse_eq_of_survey hsurvey, parse_eq_of_survey hsurvey', hwalk]
    cases Extraction.ofSurvey survey' text.toList with
    | error e => exact Or.inl ⟨e, e, rfl, rfl, Or.inl rfl⟩
    | ok e => exact Or.inr ⟨_, _, rfl, rfl, rfl, rfl⟩

/-! ## The bindings -/

theorem Binding.exact_eq_self_iff {b : Binding} :
    b.exact = b ↔ ∀ w ∈ b.wildcard?, w = .exact := by
  obtain ⟨key, kind, expression⟩ := b
  cases kind <;> simp [exact, Kind.exact, wildcard?, eq_comm]

theorem Binding.map_exact_eq_self_iff {bindings : List Binding} :
    bindings.map Binding.exact = bindings ↔ ∀ b ∈ bindings, ∀ w ∈ b.wildcard?, w = .exact := by
  have hmap := @List.map_inj_left _ _ bindings Binding.exact id
  rw [List.map_id] at hmap
  rw [hmap]
  exact forall₂_congr fun b _ => Binding.exact_eq_self_iff

theorem Placeholder.ofDecorated_ne_exact {p : Placeholder} (hformed : p.body.WellFormed)
    (h : p.trailing = true) : Wildcard.ofDecorated p.decorated ≠ .exact := by
  rw [ofDecorated_decorated hformed, h]
  cases p.leading <;> simp [Wildcard.ofSides]

namespace ParsedQuery

variable {query : String} {survey : Survey} {q : ParsedQuery}

theorem literal_of_bindings (hsurvey : Survey.ofText query.toList = .ok survey)
    (hparse : parse query = .ok q) (h : ∀ b ∈ q.bindings, b.isExpression = false) :
    survey.Literal query.toList := by
  intro o ho
  obtain ⟨number, hb⟩ := Survey.mem_bindings_of_mem_parameters ho
  have hliteral := h _ (mem_bindings_of_parse hsurvey hparse hb)
  simpa [Placeholder.binding, Binding.isExpression, Placeholder.isExpression] using hliteral

theorem separated_of_bindings (hsurvey : Survey.ofText query.toList = .ok survey)
    (hparse : parse query = .ok q) (h : ∀ b ∈ q.bindings, ∀ w ∈ b.wildcard?, w = .exact) :
    survey.Separated query.toList := by
  intro o ho hlike htrailing
  obtain ⟨number, hb⟩ := Survey.mem_bindings_of_mem_parameters ho
  have hformed := Placeholder.wellFormed_of_mem_parameters ho
  refine absurd (h _ (mem_bindings_of_parse hsurvey hparse hb) _ ?_)
    (Placeholder.ofDecorated_ne_exact hformed htrailing)
  simp [Placeholder.binding, Placeholder.boundKind, hlike, Binding.wildcard?]

/-- The count query of a query is refused like the cleaned text of the query, or it has the bindings
of the cleaned text. -/
theorem deriveCountQuery_opening {analyzer : QueryAnalyzer} {projection : Option String}
    {opening : String} (hsurvey : Survey.ofText query.toList = .ok survey)
    (hparse : parse query = .ok q)
    (hcount : analyzer.countQuery q.text projection = opening ++ q.text)
    (hopening : Text.Opening opening.toList) :
    (∃ e e', q.deriveCountQuery analyzer none projection = .error e ∧ parse q.text = .error e' ∧
        e.SameKind e') ∨
      ∃ count again, q.deriveCountQuery analyzer none projection = .ok count ∧
        parse q.text = .ok again ∧ count.bindings = again.bindings ∧
        count.text = opening ++ again.text := by
  obtain ⟨hblank, -⟩ := Survey.ofText_eq_ok_iff.1 hsurvey
  rw [deriveCountQuery, hcount]
  apply parse_opening_append hopening
  rw [toList_text_of_parse hsurvey hparse]
  exact Survey.isBlankText_cleaned hblank

theorem exists_deriveCountQuery_exact {analyzer : QueryAnalyzer} {projection : Option String}
    {opening : String} (hsurvey : Survey.ofText query.toList = .ok survey)
    (hparse : parse query = .ok q)
    (hcount : analyzer.countQuery q.text projection = opening ++ q.text)
    (hopening : Text.Opening opening.toList) (hliteral : survey.Literal query.toList)
    (hseparated : survey.Separated query.toList) :
    ∃ count, q.deriveCountQuery analyzer none projection = .ok count ∧
      count.text = opening ++ q.text ∧ count.bindings = q.bindings.map Binding.exact := by
  obtain ⟨survey', hsurvey', hrecasts⟩ := Survey.exists_recasts hsurvey hliteral hseparated
  rw [← toList_text_of_parse hsurvey hparse] at hsurvey' hrecasts
  obtain ⟨again, hagain, htext, hbindings⟩ :=
    exists_parse_of_recasts hsurvey hparse hliteral hsurvey' hrecasts
  rcases deriveCountQuery_opening hsurvey hparse hcount hopening with
    ⟨e, e', -, herror, -⟩ | ⟨count, again', hderive, hagain', hsame, hwritten⟩
  · cases hagain.symm.trans herror
  · cases hagain.symm.trans hagain'
    exact ⟨count, hderive, by rw [hwritten, htext], by rw [hsame, hbindings]⟩

/-- A count query is parsed as the cleaned text of its query is. So it has the bindings of the query
as long as there is neither an expression nor a LIKE parameter with an open side among them. Where
the cleaned text still tells the parameters apart, the open sides are what is lost. -/
theorem deriveCountQuery_bindings {analyzer : QueryAnalyzer} {projection : Option String}
    {opening : String} (hsurvey : Survey.ofText query.toList = .ok survey)
    (hparse : parse query = .ok q)
    (hcount : analyzer.countQuery q.text projection = opening ++ q.text)
    (hopening : Text.Opening opening.toList) :
    ((∃ e e', q.deriveCountQuery analyzer none projection = .error e ∧ parse q.text = .error e' ∧
          e.SameKind e') ∨
        ∃ count again, q.deriveCountQuery analyzer none projection = .ok count ∧
          parse q.text = .ok again ∧ count.bindings = again.bindings ∧
          count.text = opening ++ again.text) ∧
      ((∀ b ∈ q.bindings, b.isExpression = false) →
        ((∀ b ∈ q.bindings, ∀ w ∈ b.wildcard?, w = .exact) →
          ∃ count, q.deriveCountQuery analyzer none projection = .ok count ∧
            count.text = opening ++ q.text ∧ count.bindings = q.bindings) ∧
        (survey.Separated query.toList →
          ∃ count, q.deriveCountQuery analyzer none projection = .ok count ∧
            count.text = opening ++ q.text ∧ count.bindings = q.bindings.map Binding.exact ∧
            (count.bindings = q.bindings ↔ ∀ b ∈ q.bindings, ∀ w ∈ b.wildcard?, w = .exact))) := by
  refine ⟨deriveCountQuery_opening hsurvey hparse hcount hopening, ?_⟩
  intro hfree
  have hliteral := literal_of_bindings hsurvey hparse hfree
  constructor
  · intro hexact
    obtain ⟨count, hderive, htext, hbindings⟩ := exists_deriveCountQuery_exact hsurvey hparse hcount
      hopening hliteral (separated_of_bindings hsurvey hparse hexact)
    exact ⟨count, hderive, htext, hbindings.trans (Binding.map_exact_eq_self_iff.2 hexact)⟩
  · intro hseparated
    obtain ⟨count, hderive, htext, hbindings⟩ := exists_deriveCountQuery_exact hsurvey hparse hcount
      hopening hliteral hseparated
    exact ⟨count, hderive, htext, hbindings, by rw [hbindings, Binding.map_exact_eq_self_iff]⟩

theorem deriveCountQuery_bindings_in_and_exact :
    ∃ (analyzer : QueryAnalyzer) (q count : ParsedQuery),
      parse "a like (:x) or b in (?1) or c = '?2'" = .ok q ∧
      analyzer.countQuery q.text (some "u") = "select count(u) " ++ q.text ∧
      q.deriveCountQuery analyzer none (some "u") = .ok count ∧
      count.text = "select count(u) a like (:x) or b in (?1) or c = '?2'" ∧
      count.bindings = [{ key := .name "x", kind := .like .exact },
        { key := .position 1, kind := .collection }] := by
  have hsurvey : Survey.ofText "a like (:x) or b in (?1) or c = '?2'".toList =
      .ok ⟨.positional, 2, { ranges := [⟨32, 36, by decide⟩], ascending := by simp }⟩ := by
    decide +kernel
  have hparse : parse "a like (:x) or b in (?1) or c = '?2'" = .ok
      { text := "a like (:x) or b in (?1) or c = '?2'"
        registry := ⟨[{ key := .name "x", kind := .like .exact },
          { key := .position 1, kind := .collection }], by decide⟩
        usesPaging := false } := by
    decide +kernel
  obtain ⟨count, hderive, htext, hbindings⟩ := ((@deriveCountQuery_bindings _ _ _
    ⟨fun _ => none, fun _ => false, id, fun text projection =>
      "select count(" ++ projection.getD "*" ++ ") " ++ text⟩ (some "u") "select count(u) "
    hsurvey hparse (by decide +kernel) (by decide +kernel)).2 (by decide)).1 (by decide)
  exact ⟨_, _, count, hparse, by decide +kernel, hderive, by rw [htext]; decide +kernel, hbindings⟩

/-- The `%` of a LIKE parameter are not written in the cleaned text, so its count query matches
another pattern. -/
theorem wildcard_lost_in_count_query :
    ∃ (analyzer : QueryAnalyzer) (q count : ParsedQuery), parse "a like %:x%" = .ok q ∧
      analyzer.countQuery q.text none = "count(*) " ++ q.text ∧
      Text.Opening "count(*) ".toList ∧
      q.deriveCountQuery analyzer none none = .ok count ∧
      q.bindings = [{ key := .name "x", kind := .like .containing }] ∧
      count.bindings = [{ key := .name "x", kind := .like .exact }] := by
  have hparse : parse "a like %:x%" = .ok
      { text := "a like :x"
        registry := ⟨[{ key := .name "x", kind := .like .containing }], by decide⟩
        usesPaging := false } := by
    decide +kernel
  have hcount : parse ("count(*) " ++ "a like :x") = .ok
      { text := "count(*) a like :x"
        registry := ⟨[{ key := .name "x", kind := .like .exact }], by decide⟩
        usesPaging := false } := by
    decide +kernel
  exact ⟨⟨fun _ => none, fun _ => false, id, fun text _ => "count(*) " ++ text⟩, _, _, hparse, rfl,
    by decide +kernel, hcount, rfl, rfl⟩

end ParsedQuery

end QueryParams
