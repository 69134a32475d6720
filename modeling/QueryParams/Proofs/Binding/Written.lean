import QueryParams.Proofs.Canonical.Form
import QueryParams.Proofs.Canonical.Written
import QueryParams.Proofs.Refusal.Query

/-!
# Bindings read back

A binding without an expression is written as one placeholder, and a text that is one placeholder
has its binding as the only one. The two meet in `Binding.placeholder`.

Main statement: `ParsedQuery.parse_written`.
-/

namespace QueryParams

/-! ## A text that is one placeholder -/

namespace Placeholder

variable {p : Placeholder}

/-- The placeholder can stand alone, and has a literal index or name. -/
structure StandsAlone (p : Placeholder) : Prop where
  fits : p.Fits none []
  live : p.body.LiveBehind p.lead.getLast?
  literal : p.isExpression = false
  word : p.body.FitsWord

theorem StandsAlone.ofText_text (h : p.StandsAlone) : Piece.ofText p.text = [.placeholder p] := by
  refine Piece.split_eq_cons_iff.2 ⟨[], (List.append_nil _).symm, ?_, by simp [Piece.split.eq_def]⟩
  exact readUnescaped?_eq_some_iff.2 ⟨rfl, h.fits, by simpa using h.live⟩

theorem StandsAlone.occurrences_text (h : p.StandsAlone) : occurrences p.text = [⟨0, p⟩] := by
  rw [occurrences, h.ofText_text]
  rfl

theorem StandsAlone.keyword (h : p.StandsAlone) : ∀ k ∈ p.keyword, k.WellFormed :=
  h.fits.wellFormed_keyword

theorem StandsAlone.indicesFit (h : p.StandsAlone) : IndicesFit p.text := by
  intro offset digits hstands
  obtain ⟨o, ho, haccounts⟩ := exists_accounts_of_body hstands
  rw [h.occurrences_text, List.mem_singleton] at ho
  subst ho
  rcases haccounts with ⟨-, hbody⟩ | ⟨source, hsource, -⟩
  · exact h.word digits hbody
  · obtain ⟨written, hwritten, -⟩ := Option.map_eq_some_iff.1 hsource
    rw [expression?_eq_none h.literal] at hwritten
    cases hwritten

theorem StandsAlone.exists_survey (h : p.StandsAlone) :
    ∃ survey, Survey.ofText p.text = .ok survey ∧
      parameters survey.quotations p.text = [⟨0, p⟩] := by
  have hquotes : ∀ c ∈ p.text, Quotations.isQuote c = false := fun c hc =>
    isQuote_eq_false_of_mem_text h.keyword h.fits.body (expression?_eq_none h.literal) hc
  have hinhabited : ∃ c ∈ p.text, Text.isBlank c = false := by
    refine ⟨p.body.sign.char, ?_, ?_⟩
    · rw [text_eq, p.body.text_eq_sign_cons]
      simp
    · cases p.body.sign <;> decide
  obtain ⟨survey, hsurvey⟩ := Survey.exists_ofText_eq_ok_iff.2
    ⟨hinhabited, h.indicesFit, Quotations.openAfter_of_forall_not_isQuote hquotes none⟩
  obtain ⟨-, hquotations, -⟩ := Survey.ofText_eq_ok_iff.1 hsurvey
  obtain ⟨c, cs, htext, hc⟩ := exists_text_eq_cons h.keyword
  have hunquoted : survey.quotations.isQuoted 0 = false := by
    rw [htext] at hquotations
    have hquoted := @Quotations.isQuoted_width_iff _ [] cs c hquotations hc
    simpa using hquoted
  refine ⟨survey, hsurvey, ?_⟩
  rw [parameters, h.occurrences_text]
  simp [hunquoted]

theorem StandsAlone.exists_parse (h : p.StandsAlone) (hadmissible : p.Admissible) :
    ∃ q, ParsedQuery.parse (String.ofList p.text) = .ok q ∧ q.bindings = [p.binding .named 0] := by
  obtain ⟨survey, hsurvey, hparameters⟩ := h.exists_survey
  rw [← String.toList_ofList (l := p.text)] at hsurvey hparameters
  have hbindings : survey.bindings (String.ofList p.text).toList = [p.binding .named 0] := by
    rw [Survey.bindings, Survey.numbered, hparameters]
    exact congrArg (fun b => [b]) (binding_eq_of_literal h.literal)
  have hextractable : survey.Extractable (String.ofList p.text).toList := by
    refine ⟨?_, ?_, ?_⟩
    · rw [hparameters]
      simpa using hadmissible
    · rw [hparameters]
      simpa [h.literal] using survey.greatest.toNat_lt
    · rw [hbindings]
      simp [Binding.Agree]
  obtain ⟨q, hq⟩ := ParsedQuery.exists_parse_of_extractable hsurvey hextractable
  refine ⟨q, hq, ?_⟩
  rw [((ParsedQuery.parse_eq_ok_iff hsurvey).1 hq).2.2.1, hbindings]
  rfl

end Placeholder

/-! ## Bindings as placeholders -/

namespace Wildcard

def leading : Wildcard → Bool
  | containing | endingWith => true
  | startingWith | exact => false

def trailing : Wildcard → Bool
  | containing | startingWith => true
  | endingWith | exact => false

theorem ofSides_leading_trailing (w : Wildcard) : ofSides w.leading w.trailing = w := by
  cases w <;> rfl

theorem toList_surround (w : Wildcard) (text : String) :
    (w.surround text).toList =
      Text.optional w.leading '%' ++ text.toList ++ Text.optional w.trailing '%' := by
  cases w <;> simp [surround, leading, trailing, Text.optional]

end Wildcard

namespace Key

def body : Key → Body
  | .name identifier => .name identifier.toList
  | .position index => .index (Text.numeral index.toNat)

theorem text_body (key : Key) : key.body.text = key.written.toList := by
  cases key <;> simp [body, Body.text, written, Text.numeral]

theorem key_body (key : Key) (numbering : Numbering) (number : Nat) :
    key.body.key numbering number = key := by
  cases key <;> simp [body, Body.key]

/-- A position, or a name that can be read in a query. -/
def Readable (key : Key) : Prop :=
  ∀ identifier, key = .name identifier →
    identifier ≠ "" ∧ ∀ c ∈ identifier.toList, isNameChar c = true

theorem Readable.wellFormed_body {key : Key} (h : key.Readable) : key.body.WellFormed := by
  cases key with
  | name identifier =>
    obtain ⟨hne, hname⟩ := h identifier rfl
    exact ⟨by simpa using hne, hname⟩
  | position index => exact (Numbering.literal_body .positional index.toNat).formed

theorem fitsWord_body (key : Key) : key.body.FitsWord := by
  intro digits hbody
  cases key with
  | name identifier => cases hbody
  | position index =>
    cases hbody
    rw [Text.numeralValue_numeral]
    exact index.toNat_lt

end Key

def Kind.keyword? : Kind → Option Keyword
  | .plain => none
  | .like _ => some ⟨['l', 'i', 'k', 'e'], ' '⟩
  | .collection => some ⟨['i', 'n'], ' '⟩

theorem Kind.wellFormed_of_mem_keyword? {kind : Kind} {k : Keyword} (hk : k ∈ kind.keyword?) :
    k.WellFormed ∧ (k.isLike = true ∨ k.isIn = true) := by
  have hblank : Text.isBlank ' ' = true := by decide
  cases kind with
  | plain => cases hk
  | like wildcard =>
    cases hk
    exact ⟨⟨⟨_, List.mem_cons_self, by simp [Keyword.Spells, Keyword.foldings]⟩, hblank⟩,
      Or.inl rfl⟩
  | collection =>
    cases hk
    exact ⟨⟨⟨['i', 'n'], by simp [Keyword.words], by simp [Keyword.Spells, Keyword.foldings]⟩,
      hblank⟩, Or.inr rfl⟩

namespace Binding

def placeholder (b : Binding) : Placeholder where
  keyword := b.kind.keyword?
  spaced := false
  opened := false
  leading := (b.wildcard?.getD .exact).leading
  body := b.key.body
  trailing := (b.wildcard?.getD .exact).trailing
  closed := false

variable {b : Binding}

theorem decorated_placeholder (b : Binding) :
    b.placeholder.decorated = ((b.wildcard?.getD .exact).surround b.key.written).toList := by
  rw [Wildcard.toList_surround, ← Key.text_body]
  rfl

theorem text_placeholder (h : b.expression = none) : b.placeholder.text = b.written.toList := by
  have htext : b.placeholder.text =
      b.kind.keyword?.elim [] Keyword.text ++ b.placeholder.decorated := by
    simp [Placeholder.text, Placeholder.front, Placeholder.back, placeholder, Text.optional]
  rw [htext, decorated_placeholder]
  obtain ⟨key, kind, expression⟩ := b
  cases h
  cases kind <;> simp [written, wildcard?, Kind.keyword?, Keyword.text, Wildcard.surround]

theorem boundKind_placeholder (hformed : b.key.body.WellFormed) :
    b.placeholder.boundKind = b.kind := by
  obtain ⟨key, kind, expression⟩ := b
  cases kind with
  | plain => rfl
  | like wildcard =>
    have hlike : (placeholder ⟨key, .like wildcard, expression⟩).isLike = true := rfl
    rw [Placeholder.boundKind, if_pos hlike, Placeholder.ofDecorated_decorated hformed]
    exact congrArg Kind.like wildcard.ofSides_leading_trailing
  | collection => rfl

theorem expression?_body_placeholder (b : Binding) : b.placeholder.body.expression? = none := by
  obtain ⟨key, kind, expression⟩ := b
  cases key <;> rfl

/-- The binding can be written in a query: it has no expression and a key that can be read, which
is not the position zero if it is a LIKE binding. -/
structure Writable (b : Binding) : Prop where
  literal : b.expression = none
  readable : b.key.Readable
  positive : ∀ wildcard, b.kind = .like wildcard → b.key ≠ .position 0

theorem Writable.binding_placeholder (h : b.Writable) (numbering : Numbering) (number : Nat) :
    b.placeholder.binding numbering number = b := by
  rw [Placeholder.binding, boundKind_placeholder h.readable.wellFormed_body,
    expression?_body_placeholder, Option.map_none, ← h.literal]
  change Binding.mk (b.key.body.key numbering number) _ _ = _
  rw [Key.key_body]

theorem eq_of_mem_getLast?_lead_placeholder {c : Char}
    (hc : c ∈ b.placeholder.lead.getLast?) : c = ' ' ∨ c = '%' := by
  obtain ⟨key, kind, expression⟩ := b
  cases kind with
  | plain => cases hc
  | like wildcard =>
    cases wildcard with
    | containing | endingWith => exact Or.inr (Option.some.inj hc).symm
    | startingWith | exact => exact Or.inl (Option.some.inj hc).symm
  | collection => exact Or.inl (Option.some.inj hc).symm

theorem Writable.standsAlone (h : b.Writable) : b.placeholder.StandsAlone where
  fits := by
    have hback : b.placeholder.back = [] := rfl
    refine ⟨?_, h.readable.wellFormed_body, ?_, ?_, ?_⟩
    · intro k hk
      exact ⟨(Kind.wellFormed_of_mem_keyword? hk).1, rfl⟩
    · apply Body.endsAt_of_forall_head?
      have hpercent : isNameChar '%' = false := by decide
      rw [hback]
      cases b.placeholder.trailing <;> simp [Text.optional, hpercent]
    · intro _
      rw [hback]
      simp
    · intro _
      simp
  live := by
    cases hlast : b.placeholder.lead.getLast? with
    | none => cases b.placeholder.body <;> simp [Body.LiveBehind]
    | some c =>
      obtain rfl | rfl := eq_of_mem_getLast?_lead_placeholder hlast
      · exact Body.liveBehind_some (by decide) (by decide) _
      · exact Body.liveBehind_some (by decide) (by decide) _
  literal := by
    rw [Placeholder.isExpression, expression?_body_placeholder]
    rfl
  word := b.key.fitsWord_body

theorem Writable.admissible (h : b.Writable) : b.placeholder.Admissible where
  classified _ hk := (Kind.wellFormed_of_mem_keyword? hk).2
  positive hlike digits hbody := by
    have hkind := Placeholder.isLike_iff_boundKind.1 hlike
    rw [boundKind_placeholder h.readable.wellFormed_body] at hkind
    obtain ⟨wildcard, hwildcard⟩ := hkind
    have hpositive := h.positive wildcard hwildcard
    have hkey : b.key.body = .index digits := hbody
    rw [← b.key.key_body .positional 0, hkey] at hpositive
    intro hzero
    rw [Body.key, hzero] at hpositive
    exact hpositive rfl

end Binding

/-! ## The bindings of a query -/

theorem Body.WellFormed.readable_key {b : Body} (h : b.WellFormed) (numbering : Numbering)
    (number : Nat) : (b.key numbering number).Readable := by
  intro identifier hkey
  cases b with
  | index digits => cases hkey
  | name written =>
    obtain ⟨hne, hname⟩ := h
    cases hkey
    exact ⟨by simpa using hne, by simpa using hname⟩
  | expression sign source =>
    cases numbering with
    | positional => cases hkey
    | named =>
      obtain ⟨⟨hne, hname⟩, -⟩ := Numbering.literal_body .named (UInt32.ofNat number).toNat
      have hidentifier : identifier.toList =
          Numbering.syntheticPrefix.toList ++ Text.numeral (UInt32.ofNat number).toNat := by
        rw [← Key.name.inj hkey, String.toList_append]
        simp [Text.numeral]
      rw [← hidentifier] at hne hname
      exact ⟨by simpa using hne, hname⟩

theorem Placeholder.writable_binding {p : Placeholder} {numbering : Numbering} {number : Nat}
    (hformed : p.body.WellFormed) (hfits : p.body.FitsWord) (hadmissible : p.Admissible)
    (hliteral : (p.binding numbering number).expression = none) :
    (p.binding numbering number).Writable where
  literal := hliteral
  readable := hformed.readable_key numbering number
  positive := by
    intro wildcard hkind hkey
    change p.body.key numbering number = _ at hkey
    cases hbody : p.body with
    | name written =>
      rw [hbody] at hkey
      cases hkey
    | index digits =>
      rw [hbody] at hkey
      have hzero := (word_eq_zero_iff (hfits digits hbody)).1 (Key.position.inj hkey)
      exact hadmissible.positive (isLike_iff_boundKind.2 ⟨wildcard, hkind⟩) digits hbody hzero
    | expression sign source => simp [binding, hbody, Body.expression?] at hliteral

namespace ParsedQuery

variable {query : String} {q : ParsedQuery} {b : Binding}

theorem exists_parameter_of_mem_bindings (hparse : parse query = .ok q) (hb : b ∈ q.bindings) :
    ∃ survey, Survey.ofText query.toList = .ok survey ∧
      ∃ o ∈ Placeholder.parameters survey.quotations query.toList, o.placeholder.Admissible ∧
        ∃ number, b = o.placeholder.binding survey.numbering number := by
  obtain ⟨survey, hsurvey⟩ := exists_survey_of_parse hparse
  obtain ⟨hextractable, -, hbindings, -⟩ := (parse_eq_ok_iff hsurvey).1 hparse
  rw [hbindings] at hb
  obtain ⟨m, hm, rfl⟩ := List.mem_map.1 (Binding.mem_of_mem_firstOfEachKey hb)
  have ho := Numbering.mem_of_mem_assign hm
  exact ⟨survey, hsurvey, m.2, ho, hextractable.admissible m.2 ho, m.1, rfl⟩

theorem writable_of_mem_bindings (hparse : parse query = .ok q) (hb : b ∈ q.bindings)
    (hliteral : b.expression = none) : b.Writable := by
  obtain ⟨survey, hsurvey, o, ho, hadmissible, number, rfl⟩ :=
    exists_parameter_of_mem_bindings hparse hb
  exact Placeholder.writable_binding (Placeholder.wellFormed_of_mem_parameters ho)
    (Placeholder.fitsWord_of_mem_parameters hsurvey ho) hadmissible hliteral

theorem readable_of_mem_bindings (hparse : parse query = .ok q) (hb : b ∈ q.bindings) :
    b.key.Readable := by
  obtain ⟨survey, -, o, ho, -, number, rfl⟩ := exists_parameter_of_mem_bindings hparse hb
  exact (Placeholder.wellFormed_of_mem_parameters ho).readable_key survey.numbering number

theorem exists_parse_of_writable (h : b.Writable) :
    ∃ q, parse b.written = .ok q ∧ q.bindings = [b] := by
  obtain ⟨q, hparse, hbindings⟩ := h.standsAlone.exists_parse h.admissible
  rw [Binding.text_placeholder h.literal, String.ofList_toList] at hparse
  rw [h.binding_placeholder] at hbindings
  exact ⟨q, hparse, hbindings⟩

/-- A binding that is written is read back as the only one, and the bindings without expression of
every query are such bindings. -/
theorem parse_written :
    (∀ b : Binding, b.Writable → ∃ q, parse b.written = .ok q ∧ q.bindings = [b]) ∧
      ∀ query q, parse query = .ok q → ∀ b ∈ q.bindings, b.expression = none →
        ∃ q', parse b.written = .ok q' ∧ q'.bindings = [b] := by
  refine ⟨fun _ => exists_parse_of_writable, ?_⟩
  intro query q hparse b hb hliteral
  exact exists_parse_of_writable (writable_of_mem_bindings hparse hb hliteral)

theorem parse_written_like_named_like :
    ∃ q, parse "like %:like%" = .ok q ∧
      q.bindings = [{ key := .name "like", kind := .like .containing }] := by
  have hname : ['l', 'i', 'k', 'e'].all isNameChar = true := by decide
  have hreadable : Key.Readable (.name "like") := by
    rintro _ ⟨⟩
    exact ⟨by simp, by simpa using hname⟩
  exact parse_written.1 { key := .name "like", kind := .like .containing }
    ⟨rfl, hreadable, fun _ _ => Key.noConfusion⟩

end ParsedQuery

end QueryParams
