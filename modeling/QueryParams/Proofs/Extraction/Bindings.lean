import QueryParams.Proofs.Extraction.Parameters
import QueryParams.Query

/-!
# The bindings of a query

The bindings that the parameters of a query stand for, said without the walk: every parameter has
its binding, where the expressions are numbered in the order of the text. The walk goes through
exactly if the parameters are admissible, the numbers suffice and no two parameters differ under one
key, and it leaves the first binding of each key.

Main statements: `Extraction.ofSurvey_eq_ok_iff` and `ParsedQuery.parse_bindings`.
-/

namespace QueryParams

namespace Survey

def numbered (survey : Survey) (text : List Char) : List (Nat × Occurrence) :=
  Numbering.assign (·.placeholder.isExpression) survey.greatest.toNat
    (Placeholder.parameters survey.quotations text)

def bindings (survey : Survey) (text : List Char) : List Binding :=
  (survey.numbered text).map fun m => m.2.placeholder.binding survey.numbering m.1

def cleaned (survey : Survey) (text : List Char) : List Char :=
  (Numbering.assign Segment.takesNumber survey.greatest.toNat
    (Segment.ofText survey.quotations text)).flatMap (Segment.cleaned survey.numbering)

/-- What the parameters of a text have to satisfy in order that it can be parsed. -/
structure Extractable (survey : Survey) (text : List Char) : Prop where
  admissible : ∀ o ∈ Placeholder.parameters survey.quotations text, o.placeholder.Admissible
  /-- The last number given is a word of 32 bits. -/
  numbers : survey.greatest.toNat + (Placeholder.parameters survey.quotations text).countP
    (·.placeholder.isExpression) < UInt32.size
  agree : Binding.Agree (survey.bindings text)

end Survey

theorem Extraction.ofSurvey_eq_ok_iff {survey : Survey} {text : List Char} {e : Extraction}
    (hsurvey : Survey.ofText text = .ok survey) :
    ofSurvey survey text = .ok e ↔
      survey.Extractable text ∧ e.text = String.ofList (survey.cleaned text) ∧
        e.registry.bindings = Binding.firstOfEachKey (survey.bindings text) ∧
        e.numbering = survey.numbering := by
  unfold ofSurvey
  simp only [bind_eq_ok_iff, foldlM_step_eq_ok_iff (Segment.sound_of_mem_ofText hsurvey),
    Segment.forall_parameter?_ofText_iff, Segment.countP_takesNumber_ofText,
    Segment.filterMap_binding?_assign_ofText]
  constructor
  · intro h
    obtain ⟨done, ⟨hadmissible, hnumbers, hbindings, htext, -⟩, h⟩ := h
    obtain ⟨hagree, hfirst⟩ := Registry.foldlM_register_empty_eq_ok_iff.1 hbindings
    cases h
    refine ⟨⟨hadmissible, hnumbers, hagree⟩, ?_, hfirst, rfl⟩
    rw [htext, String.empty_append]
    rfl
  · intro h
    obtain ⟨⟨hadmissible, hnumbers, hagree⟩, htext, hfirst, hnumbering⟩ := h
    have hbindings := Registry.foldlM_register_empty_eq_ok_iff.2 ⟨hagree, hfirst⟩
    refine ⟨⟨_, e.registry, e.text⟩, ⟨hadmissible, hnumbers, hbindings, ?_, rfl⟩, ?_⟩
    · rw [htext, String.empty_append]
      rfl
    · rw [← hnumbering]
      rfl

theorem Survey.exists_mem_numbered {survey : Survey} {text : List Char} {o : Occurrence}
    (ho : o ∈ Placeholder.parameters survey.quotations text) :
    ∃ number, (number, o) ∈ survey.numbered text := by
  have hsnd : (survey.numbered text).map Prod.snd =
      Placeholder.parameters survey.quotations text :=
    Numbering.map_snd_assign _ _ _
  rw [← hsnd] at ho
  obtain ⟨m, hm, rfl⟩ := List.mem_map.1 ho
  exact ⟨m.1, hm⟩

theorem Survey.mem_bindings_of_mem_parameters {survey : Survey} {text : List Char}
    {o : Occurrence} (ho : o ∈ Placeholder.parameters survey.quotations text) :
    ∃ number, o.placeholder.binding survey.numbering number ∈ survey.bindings text := by
  obtain ⟨number, hm⟩ := exists_mem_numbered ho
  exact ⟨number, List.mem_map.2 ⟨_, hm, rfl⟩⟩

namespace ParsedQuery

def bindingWith? (q : ParsedQuery) : Key → Option Binding
  | .name identifier => q.bindingNamed? identifier
  | .position index => q.bindingAt? index

theorem bindingWith?_eq_find? (q : ParsedQuery) (key : Key) :
    q.bindingWith? key = q.bindings.find? (·.key = key) := by
  have hname (identifier : String) (b : Binding) :
      b.hasName identifier = true ↔ b.key = .name identifier := by
    cases hb : b.key <;> simp [Binding.hasName, Binding.name?, hb]
  have hposition (index : UInt32) (b : Binding) :
      b.hasPosition index = true ↔ b.key = .position index := by
    cases hb : b.key <;> simp [Binding.hasPosition, Binding.position?, hb]
  cases key with
  | name identifier =>
    refine congrArg (fun p => q.bindings.find? p) (funext fun b => ?_)
    rw [Bool.eq_iff_iff, hname, decide_eq_true_iff]
  | position index =>
    refine congrArg (fun p => q.bindings.find? p) (funext fun b => ?_)
    rw [Bool.eq_iff_iff, hposition, decide_eq_true_iff]

theorem parse_eq_error_of_survey {query : String} {e : BindingError}
    (hsurvey : Survey.ofText query.toList = .error e) : parse query = .error e := by
  rw [parse, Extraction.ofQuery, hsurvey]
  rfl

theorem exists_survey_of_parse {query : String} {q : ParsedQuery} (hparse : parse query = .ok q) :
    ∃ survey, Survey.ofText query.toList = .ok survey := by
  cases hsurvey : Survey.ofText query.toList with
  | error e =>
    rw [parse_eq_error_of_survey hsurvey] at hparse
    cases hparse
  | ok survey => exact ⟨survey, rfl⟩

theorem parse_eq_of_survey {query : String} {survey : Survey}
    (hsurvey : Survey.ofText query.toList = .ok survey) :
    parse query = do
      let e ← Extraction.ofSurvey survey query.toList
      return ⟨e.text, e.registry, Text.occursIn pagingMark query.toList⟩ := by
  rw [parse, Extraction.ofQuery, hsurvey]
  rfl

theorem parse_eq_ok_iff {query : String} {survey : Survey} {q : ParsedQuery}
    (hsurvey : Survey.ofText query.toList = .ok survey) :
    parse query = .ok q ↔
      survey.Extractable query.toList ∧ q.text = String.ofList (survey.cleaned query.toList) ∧
        q.bindings = Binding.firstOfEachKey (survey.bindings query.toList) ∧
        q.usesPaging = Text.occursIn pagingMark query.toList := by
  rw [parse_eq_of_survey hsurvey]
  simp only [bind_eq_ok_iff, Extraction.ofSurvey_eq_ok_iff hsurvey]
  constructor
  · intro h
    obtain ⟨e, ⟨hextractable, htext, hfirst, -⟩, h⟩ := h
    cases h
    exact ⟨hextractable, htext, hfirst, rfl⟩
  · intro h
    obtain ⟨hextractable, htext, hfirst, hpaging⟩ := h
    refine ⟨⟨q.text, q.registry, survey.numbering⟩, ⟨hextractable, htext, hfirst, rfl⟩, ?_⟩
    rw [← hpaging]
    rfl

theorem exists_parse_of_extractable {query : String} {survey : Survey}
    (hsurvey : Survey.ofText query.toList = .ok survey) (h : survey.Extractable query.toList) :
    ∃ q, parse query = .ok q := by
  have hnodup := Binding.nodup_keys_firstOfEachKey (survey.bindings query.toList)
  exact ⟨⟨String.ofList (survey.cleaned query.toList), ⟨_, hnodup⟩, _⟩,
    (parse_eq_ok_iff hsurvey).2 ⟨h, rfl, rfl, rfl⟩⟩

theorem mem_bindings_of_parse {query : String} {survey : Survey} {q : ParsedQuery} {b : Binding}
    (hsurvey : Survey.ofText query.toList = .ok survey) (hparse : parse query = .ok q)
    (hb : b ∈ survey.bindings query.toList) : b ∈ q.bindings := by
  obtain ⟨hextractable, -, hbindings, -⟩ := (parse_eq_ok_iff hsurvey).1 hparse
  have hfind : q.bindings.find? (·.key = b.key) = some b := by
    rw [hbindings, Binding.find?_firstOfEachKey]
    exact Binding.find?_key_of_agree hextractable.agree hb
  exact List.mem_of_find?_eq_some hfind

/-- Exactly the extractable queries are parsed. The bindings are the first ones of each key, and
every parameter finds its own binding under its key. -/
theorem parse_bindings {query : String} {survey : Survey}
    (hsurvey : Survey.ofText query.toList = .ok survey) :
    ((∃ q, parse query = .ok q) ↔ survey.Extractable query.toList) ∧
      ∀ q, parse query = .ok q →
        q.bindings = Binding.firstOfEachKey (survey.bindings query.toList) ∧
          (q.bindings.map Binding.key).Nodup ∧
          ∀ b ∈ survey.bindings query.toList, q.bindingWith? b.key = some b := by
  constructor
  · constructor
    · intro h
      obtain ⟨q, hq⟩ := h
      exact ((parse_eq_ok_iff hsurvey).1 hq).1
    · intro h
      have hnodup := Binding.nodup_keys_firstOfEachKey (survey.bindings query.toList)
      exact ⟨⟨String.ofList (survey.cleaned query.toList), ⟨_, hnodup⟩, _⟩,
        (parse_eq_ok_iff hsurvey).2 ⟨h, rfl, rfl, rfl⟩⟩
  · intro q hq
    obtain ⟨hextractable, -, hfirst, -⟩ := (parse_eq_ok_iff hsurvey).1 hq
    refine ⟨hfirst, q.registry.keys_nodup, ?_⟩
    intro b hb
    rw [bindingWith?_eq_find?, hfirst, Binding.find?_firstOfEachKey]
    exact Binding.find?_key_of_agree hextractable.agree hb

theorem parse_bindings_like_twice :
    ∃ q, parse "a like :x% or b = '?1' or c = :#{e} or d like :x%" = .ok q ∧
      q.bindings = [{ key := .name "x", kind := .like .startingWith },
        { key := .position 2, expression := some "e" }] ∧
      q.bindingWith? (.name "x") = some { key := .name "x", kind := .like .startingWith } := by
  have hsurvey : Survey.ofText "a like :x% or b = '?1' or c = :#{e} or d like :x%".toList =
      .ok ⟨.positional, 1, { ranges := [⟨18, 22, by decide⟩], ascending := by simp }⟩ := by
    decide +kernel
  have hparse : parse "a like :x% or b = '?1' or c = :#{e} or d like :x%" = .ok
      { text := "a like :x or b = '?1' or c = ?2 or d like :x"
        registry := ⟨[{ key := .name "x", kind := .like .startingWith },
          { key := .position 2, expression := some "e" }], by decide⟩
        usesPaging := false } := by
    decide +kernel
  refine ⟨_, hparse, rfl, ?_⟩
  exact ((parse_bindings hsurvey).2 _ hparse).2.2 { key := .name "x", kind := .like .startingWith }
    (by decide +kernel)

end ParsedQuery

end QueryParams
