import QueryParams.Proofs.Numbering.Positions

/-!
# Names for expressions

The names that are given to expressions count from one, whatever names the text has. A literal
parameter can have one of them, and then the query is refused; this is the only way in which an
expression takes part in a conflict.

Main statements: `ParsedQuery.parse_synthetic_names` and
`ParsedQuery.synthetic_name_taken_by_literal`.
-/

namespace QueryParams

def Survey.Collides (survey : Survey) (text : List Char) : Prop :=
  ∃ o ∈ Placeholder.parameters survey.quotations text, ∃ identifier,
    o.placeholder.body = .name identifier ∧
      ∃ i < (survey.expressions text).length,
        String.ofList identifier = "__synthetic__" ++ toString (i + 1)

namespace Survey

variable {survey : Survey} {text : List Char}

theorem exists_key_eq_of_named (hsurvey : Survey.ofText text = .ok survey)
    (hnamed : survey.numbering = .named) {m : Nat × Occurrence} (hm : m ∈ survey.numbered text)
    (hexpression : m.2.placeholder.isExpression = true) (hword : HasWord m) :
    ∃ i < (survey.expressions text).length,
      (survey.binding m).key = .name ("__synthetic__" ++ toString (i + 1)) := by
  obtain ⟨number, o⟩ := m
  obtain ⟨i, hi, rfl⟩ := (mem_numbered_iff_of_isExpression hexpression).1 hm
  have hnumber := hword hexpression
  obtain ⟨hlength, -⟩ := List.getElem?_eq_some_iff.1 hi
  refine ⟨i, hlength, ?_⟩
  change o.placeholder.body.key survey.numbering _ = _
  rw [Placeholder.key_of_isExpression hexpression, hnamed, Numbering.named_key_ofNat hnumber,
    toNat_greatest_of_named hsurvey hnamed, Nat.zero_add]

end Survey

namespace ParsedQuery

/-- Where expressions have names, an expression takes part in a conflict only if a literal parameter
has a name that is made for an expression, and it is this name that the conflict is about. With such
a parameter no query is parsed. -/
theorem parse_synthetic_names {query : String} {survey : Survey}
    (hsurvey : Survey.ofText query.toList = .ok survey) (hnamed : survey.numbering = .named) :
    (∀ existing found, parse query = .error (.conflictingBinding existing found) →
      ¬ (existing.expression = none ∧ found.expression = none) →
        survey.Collides query.toList ∧
        (existing.expression = none ∨ found.expression = none) ∧
        ∃ i < (survey.expressions query.toList).length,
          existing.key = .name ("__synthetic__" ++ toString (i + 1)) ∧
          found.key = .name ("__synthetic__" ++ toString (i + 1))) ∧
    (survey.Collides query.toList → ∀ q, parse query ≠ .ok q) := by
  constructor
  · intro existing found herror hexpression
    obtain ⟨m, hm, m', hm', hfirst, hsecond, hword, hkey, hsides⟩ :=
      exists_literal_of_conflict hsurvey herror hexpression
    obtain ⟨i, hi, hname⟩ := Survey.exists_key_eq_of_named hsurvey hnamed hm hfirst hword
    have hliteral : (survey.binding m').expression = none :=
      Survey.expression_binding_eq_none_iff.2 hsecond
    have hcollides : survey.Collides query.toList := by
      refine ⟨m'.2, Numbering.mem_of_mem_assign hm', ?_⟩
      have hbody : m'.2.placeholder.body.key survey.numbering m'.1 = _ := hkey.symm.trans hname
      cases hliteralBody : m'.2.placeholder.body with
      | name identifier =>
        rw [hliteralBody] at hbody
        exact ⟨identifier, rfl, i, hi, Key.name.inj hbody⟩
      | index digits =>
        rw [hliteralBody] at hbody
        cases hbody
      | expression sign source =>
        simp [Placeholder.isExpression, hliteralBody, Body.expression?] at hsecond
    rcases hsides with ⟨rfl, rfl⟩ | ⟨rfl, rfl⟩
    · exact ⟨hcollides, Or.inr hliteral, i, hi, hname, hkey.symm.trans hname⟩
    · exact ⟨hcollides, Or.inl hliteral, i, hi, hkey.symm.trans hname, hname⟩
  · intro hcollides q hparse
    obtain ⟨o, ho, identifier, hbody, i, hi, hname⟩ := hcollides
    obtain ⟨number, hm⟩ := Survey.exists_mem_numbered ho
    obtain ⟨hword, hbinds⟩ :=
      bindsTo_of_parse hsurvey hparse (List.getElem?_eq_getElem hi)
    have hexpression : ((survey.expressions query.toList)[i]).placeholder.isExpression = true :=
      (List.mem_filter.1 (List.getElem_mem hi)).2
    have hkey : (survey.binding (number, o)).key =
        survey.numbering.key (UInt32.ofNat (survey.greatest.toNat + i + 1)) := by
      have hzero := Survey.toNat_greatest_of_named hsurvey hnamed
      rw [hzero, Nat.zero_add] at hword
      change o.placeholder.body.key survey.numbering number = _
      rw [hbody, Body.key, hname, hnamed, hzero, Nat.zero_add, Numbering.named_key_ofNat hword]
    -- the key belongs to the expression alone, so the literal parameter would be the expression
    rw [← hbinds.owned _ hm hkey] at hexpression
    simp [Placeholder.isExpression, hbody, Body.expression?] at hexpression

theorem parse_synthetic_names_second_expression :
    ∃ survey, Survey.ofText "a = :__synthetic__2 and b = :#{x} and c = :#{y}".toList =
        .ok survey ∧
      survey.numbering = .named ∧
      survey.Collides "a = :__synthetic__2 and b = :#{x} and c = :#{y}".toList ∧
      ∀ q, parse "a = :__synthetic__2 and b = :#{x} and c = :#{y}" ≠ .ok q := by
  have hsurvey : Survey.ofText "a = :__synthetic__2 and b = :#{x} and c = :#{y}".toList =
      .ok ⟨.named, 0, {}⟩ := by
    decide +kernel
  have hcollides : Survey.Collides ⟨.named, 0, {}⟩
      "a = :__synthetic__2 and b = :#{x} and c = :#{y}".toList :=
    ⟨⟨3, ⟨none, true, false, false, .name "__synthetic__2".toList, false, false⟩⟩,
      by decide +kernel, _, rfl, 1, by decide +kernel, by decide +kernel⟩
  exact ⟨_, hsurvey, rfl, hcollides, (parse_synthetic_names hsurvey rfl).2 hcollides⟩

/-- The name that is made for the expression belongs to a literal parameter behind it. -/
theorem synthetic_name_taken_by_literal :
    ∃ survey, Survey.ofText "a = :#{x} and b = :__synthetic__1".toList = .ok survey ∧
      survey.numbering = .named ∧
      parse "a = :#{x} and b = :__synthetic__1" = .error (.conflictingBinding
        { key := .name "__synthetic__1", expression := some "x" }
        { key := .name "__synthetic__1" }) := by
  have hsurvey : Survey.ofText "a = :#{x} and b = :__synthetic__1".toList =
      .ok ⟨.named, 0, {}⟩ := by
    decide +kernel
  exact ⟨_, hsurvey, rfl, by decide +kernel⟩

end ParsedQuery

end QueryParams
