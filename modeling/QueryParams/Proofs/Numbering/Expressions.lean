import QueryParams.Proofs.Extraction.Cleaning
import QueryParams.Proofs.Refusal.Query

/-!
# The keys of expressions

The expressions among the parameters of a text are numbered without a gap, so no two of them have
one key. A conflict in which an expression takes part is always one between an expression and a
literal parameter, and in a query that is parsed every expression has its key for itself.

Main statements: `ParsedQuery.bindsTo_of_parse` and `ParsedQuery.exists_literal_of_conflict`.
-/

namespace QueryParams

namespace Numbering

theorem key_injective (numbering : Numbering) {word word' : UInt32}
    (h : numbering.key word = numbering.key word') : word = word' := by
  cases numbering with
  | positional =>
    cases h
    rfl
  | named =>
    have htext := congrArg String.toList (Key.name.inj h)
    rw [String.toList_append, String.toList_append] at htext
    have hnumeral : Text.numeral word.toNat = Text.numeral word'.toNat := by
      simpa [Text.numeral] using List.append_cancel_left htext
    rw [← UInt32.toNat_inj, ← Text.numeralValue_numeral word.toNat, hnumeral,
      Text.numeralValue_numeral]

theorem eq_of_key_ofNat_eq (numbering : Numbering) {number number' : Nat}
    (hnumber : number < UInt32.size) (hnumber' : number' < UInt32.size)
    (h : numbering.key (UInt32.ofNat number) = numbering.key (UInt32.ofNat number')) :
    number = number' := by
  have hwords := congrArg UInt32.toNat (numbering.key_injective h)
  rwa [UInt32.toNat_ofNat_of_lt' hnumber, UInt32.toNat_ofNat_of_lt' hnumber'] at hwords

theorem named_key_ofNat {number : Nat} (h : number < UInt32.size) :
    named.key (UInt32.ofNat number) = .name ("__synthetic__" ++ toString number) := by
  rw [key, UInt32.toNat_ofNat_of_lt' h]
  rfl

end Numbering

namespace Placeholder

theorem exists_body_of_isExpression {p : Placeholder} (h : p.isExpression = true) :
    ∃ sign source, p.body = .expression sign source := by
  unfold isExpression at h
  cases hbody : p.body with
  | expression sign source => exact ⟨sign, source, rfl⟩
  | index digits => simp [hbody, Body.expression?] at h
  | name identifier => simp [hbody, Body.expression?] at h

theorem key_of_isExpression {p : Placeholder} (h : p.isExpression = true) (numbering : Numbering)
    (number : Nat) : p.body.key numbering number = numbering.key (UInt32.ofNat number) := by
  obtain ⟨sign, source, hbody⟩ := exists_body_of_isExpression h
  rw [hbody]
  rfl

theorem lt_of_defect?_eq_none {p : Placeholder} {number : Nat} (h : p.defect? number = none)
    (hexpression : p.isExpression = true) : number < UInt32.size := by
  by_contra hnumber
  simp [defect?, hexpression, Nat.le_of_not_lt hnumber] at h

end Placeholder

namespace Survey

variable {survey : Survey} {text : List Char} {m m' : Nat × Occurrence}

def expressions (survey : Survey) (text : List Char) : List Occurrence :=
  (Placeholder.parameters survey.quotations text).filter (·.placeholder.isExpression)

theorem mem_numbered_iff_of_isExpression {number : Nat} {o : Occurrence}
    (ho : o.placeholder.isExpression = true) :
    (number, o) ∈ survey.numbered text ↔
      ∃ i, (survey.expressions text)[i]? = some o ∧ number = survey.greatest.toNat + i + 1 :=
  Numbering.mem_assign_iff_of_takes ho

def HasWord (m : Nat × Occurrence) : Prop :=
  m.2.placeholder.isExpression = true → m.1 < UInt32.size

def binding (survey : Survey) (m : Nat × Occurrence) : Binding :=
  m.2.placeholder.binding survey.numbering m.1

theorem expression_binding_eq_none_iff :
    (survey.binding m).expression = none ↔ m.2.placeholder.isExpression = false := by
  simp [binding, Placeholder.binding, Placeholder.isExpression]

theorem eq_of_key_eq (hm : m ∈ survey.numbered text) (hm' : m' ∈ survey.numbered text)
    (hexpression : m.2.placeholder.isExpression = true)
    (hexpression' : m'.2.placeholder.isExpression = true) (hword : HasWord m) (hword' : HasWord m')
    (h : (survey.binding m).key = (survey.binding m').key) : m = m' := by
  obtain ⟨number, o⟩ := m
  obtain ⟨number', o'⟩ := m'
  change o.placeholder.body.key survey.numbering number =
    o'.placeholder.body.key survey.numbering number' at h
  rw [Placeholder.key_of_isExpression hexpression,
    Placeholder.key_of_isExpression hexpression'] at h
  obtain rfl := survey.numbering.eq_of_key_ofNat_eq (hword hexpression) (hword' hexpression') h
  obtain ⟨i, hi, hnumber⟩ := (mem_numbered_iff_of_isExpression hexpression).1 hm
  obtain ⟨i', hi', hnumber'⟩ := (mem_numbered_iff_of_isExpression hexpression').1 hm'
  obtain rfl : i = i' := by omega
  rw [hi] at hi'
  cases hi'
  rfl

end Survey

namespace ParsedQuery

variable {query : String} {survey : Survey} {existing found : Binding}

/-! ## Queries that are parsed -/

/-- The parameter is bound under this key, no other one is, and this is written in its place. -/
structure BindsTo (q : ParsedQuery) (survey : Survey) (text : List Char) (o : Occurrence)
    (key : Key) (token : List Char) : Prop where
  bound : { key := key
            kind := o.placeholder.boundKind
            expression := o.placeholder.body.expression?.map String.ofList : Binding } ∈ q.bindings
  owned : ∀ m ∈ survey.numbered text, (survey.binding m).key = key → m.2 = o
  written : survey.Writes text q.text.toList o token

/-- In a query that is parsed, an expression is bound to the next number behind the greatest index
and the expressions in front of it. -/
theorem bindsTo_of_parse {q : ParsedQuery} {i : Nat} {o : Occurrence}
    (hsurvey : Survey.ofText query.toList = .ok survey) (hparse : parse query = .ok q)
    (hi : (survey.expressions query.toList)[i]? = some o) :
    survey.greatest.toNat + i + 1 < UInt32.size ∧
      q.BindsTo survey query.toList o
        (survey.numbering.key (UInt32.ofNat (survey.greatest.toNat + i + 1)))
        (survey.numbering.token (survey.greatest.toNat + i + 1)) := by
  obtain ⟨hextractable, htext, -⟩ := (parse_eq_ok_iff hsurvey).1 hparse
  have hexpression : o.placeholder.isExpression = true :=
    (List.mem_filter.1 (List.mem_of_getElem? hi)).2
  have hm : (survey.greatest.toNat + i + 1, o) ∈ survey.numbered query.toList :=
    (Survey.mem_numbered_iff_of_isExpression hexpression).2 ⟨i, hi, rfl⟩
  have hword {m : Nat × Occurrence} (hm : m ∈ survey.numbered query.toList) : Survey.HasWord m :=
    fun _ => Nat.lt_of_le_of_lt (Numbering.le_of_mem_assign hm) hextractable.numbers
  have hkey : (survey.binding (survey.greatest.toNat + i + 1, o)).key =
      survey.numbering.key (UInt32.ofNat (survey.greatest.toNat + i + 1)) :=
    Placeholder.key_of_isExpression hexpression _ _
  have hmem {m : Nat × Occurrence} (hm : m ∈ survey.numbered query.toList) :
      survey.binding m ∈ survey.bindings query.toList := List.mem_map.2 ⟨m, hm, rfl⟩
  refine ⟨hword hm hexpression, ?_, ?_, ?_⟩
  · rw [← hkey]
    exact mem_bindings_of_parse hsurvey hparse (hmem hm)
  · intro m' hm' hkey'
    have hsame := hextractable.agree _ (hmem hm') _ (hmem hm) (hkey'.trans hkey.symm)
    have hexpression' : m'.2.placeholder.isExpression = true := by
      rw [← Bool.not_eq_false, ← Survey.expression_binding_eq_none_iff, hsame,
        Survey.expression_binding_eq_none_iff]
      simp [hexpression]
    rw [Survey.eq_of_key_eq hm' hm hexpression' hexpression (hword hm') (hword hm)
      (hkey'.trans hkey.symm)]
  · rw [htext, String.toList_ofList]
    exact survey.writes_of_mem_numbered hm (by simp [Placeholder.replacement?, hexpression])

/-! ## Conflicts -/

theorem exists_parameters_of_conflict (hsurvey : Survey.ofText query.toList = .ok survey)
    (h : parse query = .error (.conflictingBinding existing found)) :
    ∃ m ∈ survey.numbered query.toList, ∃ m' ∈ survey.numbered query.toList,
      Survey.HasWord m ∧ Survey.HasWord m' ∧ existing = survey.binding m ∧
        found = survey.binding m' ∧ existing.key = found.key ∧ existing ≠ found := by
  cases refused_iff_parse.1 h with
  | @parameter survey' earlier later m' _ hsurvey' hnumbered hpassed hrefused =>
    cases hsurvey.symm.trans hsurvey'
    rcases Option.or_eq_some_iff.1 hrefused with hdefect | ⟨hdefect, hconflict⟩
    · rcases Placeholder.defect?_cases hdefect with ⟨-, -, he⟩ | ⟨k, -, -, he⟩ | ⟨-, -, he⟩ <;>
        cases he
    · obtain ⟨existing', hfind, hne, he⟩ := Binding.conflict?_eq_some_iff.1 hconflict
      cases he
      obtain ⟨m, hm, rfl⟩ := List.mem_map.1 (List.mem_of_find?_eq_some hfind)
      obtain ⟨front, between, hearlier⟩ := List.append_of_mem hm
      have hpassed := (Option.or_eq_none_iff.1 (hpassed front m between hearlier)).1
      have hkey := List.find?_some hfind
      refine ⟨m, ?_, m', ?_, Placeholder.lt_of_defect?_eq_none hpassed,
        Placeholder.lt_of_defect?_eq_none hdefect, rfl, rfl, by simpa using hkey, hne⟩
      · rw [hnumbered]
        exact List.mem_append_left _ hm
      · rw [hnumbered]
        simp

/-- A conflict in which an expression takes part is one of an expression with a literal
parameter. -/
theorem exists_literal_of_conflict (hsurvey : Survey.ofText query.toList = .ok survey)
    (h : parse query = .error (.conflictingBinding existing found))
    (hexpression : ¬ (existing.expression = none ∧ found.expression = none)) :
    ∃ m ∈ survey.numbered query.toList, ∃ m' ∈ survey.numbered query.toList,
      m.2.placeholder.isExpression = true ∧ m'.2.placeholder.isExpression = false ∧
        Survey.HasWord m ∧ (survey.binding m).key = (survey.binding m').key ∧
        (existing = survey.binding m ∧ found = survey.binding m' ∨
          existing = survey.binding m' ∧ found = survey.binding m) := by
  obtain ⟨m, hm, m', hm', hword, hword', rfl, rfl, hkey, hne⟩ :=
    exists_parameters_of_conflict hsurvey h
  rw [Survey.expression_binding_eq_none_iff, Survey.expression_binding_eq_none_iff] at hexpression
  cases hfirst : m.2.placeholder.isExpression with
  | true =>
    cases hsecond : m'.2.placeholder.isExpression with
    | true =>
      rw [Survey.eq_of_key_eq hm hm' hfirst hsecond hword hword' hkey] at hne
      exact absurd rfl hne
    | false => exact ⟨m, hm, m', hm', hfirst, hsecond, hword, hkey, Or.inl ⟨rfl, rfl⟩⟩
  | false =>
    cases hsecond : m'.2.placeholder.isExpression with
    | true => exact ⟨m', hm', m, hm, hsecond, hfirst, hword', hkey.symm, Or.inr ⟨rfl, rfl⟩⟩
    | false => exact absurd ⟨hfirst, hsecond⟩ hexpression

end ParsedQuery

end QueryParams
