import QueryParams.Proofs.Numbering.Expressions
import QueryParams.Proofs.Text.Search

/-!
# Positions for expressions

The search for the greatest index sees every index that the walk can come across, so the positions
that are given to expressions lie behind all literal ones, and no parameter shares them.

Main statement: `ParsedQuery.parse_expressions`.
-/

namespace QueryParams

namespace Survey

variable {survey : Survey} {text : List Char}

theorem numbering_eq_positional_iff (hsurvey : Survey.ofText text = .ok survey) :
    survey.numbering = .positional ↔
      (∃ d, d.isDigit = true ∧ ['?', d] <:+: text) ∨ ['?', '#', '{'] <:+: text := by
  obtain ⟨-, -, greatest, hgreatest, -, hnumbering⟩ := ofText_eq_ok_iff.1 hsurvey
  rw [hnumbering, ← isSome_greatestIndex_iff hgreatest, ← Text.occursIn_iff, numberingOf,
    positionalMark, ← Bool.or_eq_true]
  split <;> simp_all

theorem isGreatestIndex_greatest (hsurvey : Survey.ofText text = .ok survey) :
    IsGreatestIndex text survey.greatest.toNat := by
  obtain ⟨-, -, greatest, hgreatest, hsome, -⟩ := ofText_eq_ok_iff.1 hsurvey
  rw [hsome]
  exact isGreatestIndex_of_greatestIndex hgreatest

/-- Where names are given to expressions, the text has no index at all. -/
theorem toNat_greatest_of_named (hsurvey : Survey.ofText text = .ok survey)
    (hnamed : survey.numbering = .named) : survey.greatest.toNat = 0 := by
  obtain ⟨-, -, greatest, -, hsome, hnumbering⟩ := ofText_eq_ok_iff.1 hsurvey
  cases greatest with
  | none =>
    rw [hsome]
    rfl
  | some position =>
    rw [hnumbering] at hnamed
    cases hnamed

theorem key_ne_of_positional (hsurvey : Survey.ofText text = .ok survey)
    (hpositional : survey.numbering = .positional) {m m' : Nat × Occurrence}
    (hm : m ∈ survey.numbered text) (hm' : m' ∈ survey.numbered text)
    (hexpression : m.2.placeholder.isExpression = true)
    (hliteral : m'.2.placeholder.isExpression = false) (hword : HasWord m) :
    (survey.binding m).key ≠ (survey.binding m').key := by
  obtain ⟨number, o⟩ := m
  obtain ⟨number', o'⟩ := m'
  obtain ⟨i, -, rfl⟩ := (mem_numbered_iff_of_isExpression hexpression).1 hm
  have hparameter : o' ∈ Placeholder.parameters survey.quotations text :=
    Numbering.mem_of_mem_assign hm'
  have hfits := Placeholder.fitsWord_of_mem_parameters hsurvey hparameter
  intro hkey
  change o.placeholder.body.key survey.numbering _ = o'.placeholder.body.key _ _ at hkey
  rw [Placeholder.key_of_isExpression hexpression, hpositional] at hkey
  cases hbody : o'.placeholder.body with
  | index digits =>
    rw [hbody] at hkey
    have hposition := Numbering.positional.eq_of_key_ofNat_eq (hword hexpression)
      (hfits digits hbody) hkey
    -- the index is among those of which the greatest one has been taken
    have hruns := Placeholder.digits_mem_indexRuns
      (Placeholder.mem_occurrences_of_mem_parameters hparameter) hbody
    obtain ⟨offset, hstands⟩ := mem_indexRuns_iff.1 hruns
    have hbound := (isGreatestIndex_greatest hsurvey).bound offset digits hstands
    omega
  | name identifier =>
    rw [hbody] at hkey
    cases hkey
  | expression sign source => simp [Placeholder.isExpression, hbody, Body.expression?] at hliteral

end Survey

namespace ParsedQuery

/-- Expressions are numbered by position as soon as the text has an index or an expression with a
question mark, and by name otherwise. In a query that is parsed, each of them is bound to the next
position behind the greatest index, or to the next name, which no other parameter shares. Positions
given to expressions exceed all literal ones, so no expression ever takes part in a conflict. -/
theorem parse_expressions {query : String} {survey : Survey}
    (hsurvey : Survey.ofText query.toList = .ok survey) :
    (survey.numbering = .positional ↔
      (∃ d, d.isDigit = true ∧ ['?', d] <:+: query.toList) ∨ ['?', '#', '{'] <:+: query.toList) ∧
    IsGreatestIndex query.toList survey.greatest.toNat ∧
    (∀ e, Extraction.ofQuery query = .ok e → e.numbering = survey.numbering) ∧
    (∀ q, parse query = .ok q → ∀ i o, (survey.expressions query.toList)[i]? = some o →
      (survey.numbering = .positional →
        survey.greatest.toNat + i + 1 < UInt32.size ∧
        (∀ offset digits, (Body.index digits).StandsAt query.toList offset →
          Text.numeralValue digits < survey.greatest.toNat + i + 1) ∧
        q.BindsTo survey query.toList o
          (.position (UInt32.ofNat (survey.greatest.toNat + i + 1)))
          ('?' :: Text.numeral (survey.greatest.toNat + i + 1))) ∧
      (survey.numbering = .named →
        q.BindsTo survey query.toList o (.name ("__synthetic__" ++ toString (i + 1)))
          (":__synthetic__".toList ++ Text.numeral (i + 1)))) ∧
    (survey.numbering = .positional → ∀ existing found,
      parse query = .error (.conflictingBinding existing found) →
        existing.expression = none ∧ found.expression = none) := by
  have hgreatest := Survey.isGreatestIndex_greatest hsurvey
  refine ⟨Survey.numbering_eq_positional_iff hsurvey, hgreatest, ?_, ?_, ?_⟩
  · intro e he
    obtain ⟨survey', hsurvey', he⟩ := bind_eq_ok_iff.1 he
    cases hsurvey.symm.trans hsurvey'
    obtain ⟨-, -, -, hnumbering⟩ := (Extraction.ofSurvey_eq_ok_iff hsurvey).1 he
    exact hnumbering
  · intro q hparse i o hi
    obtain ⟨hword, hbinds⟩ := bindsTo_of_parse hsurvey hparse hi
    constructor
    · intro hpositional
      rw [hpositional] at hbinds
      refine ⟨hword, ?_, hbinds⟩
      intro offset digits hstands
      have hbound := hgreatest.bound offset digits hstands
      omega
    · intro hnamed
      have hzero := Survey.toNat_greatest_of_named hsurvey hnamed
      rw [hzero, Nat.zero_add] at hword
      rw [hnamed, hzero, Nat.zero_add, Numbering.named_key_ofNat hword] at hbinds
      exact hbinds
  · intro hpositional existing found herror
    by_contra hexpression
    obtain ⟨m, hm, m', hm', hfirst, hsecond, hword, hkey, -⟩ :=
      exists_literal_of_conflict hsurvey herror hexpression
    exact Survey.key_ne_of_positional hsurvey hpositional hm hm' hfirst hsecond hword hkey

theorem parse_expressions_behind_literal_index :
    ∃ survey q o, Survey.ofText "a = '?3' and b = ?#{x} and c = ?1 and d = :#{y}".toList =
        .ok survey ∧
      parse "a = '?3' and b = ?#{x} and c = ?1 and d = :#{y}" = .ok q ∧
      IsGreatestIndex "a = '?3' and b = ?#{x} and c = ?1 and d = :#{y}".toList 3 ∧
      q.BindsTo survey "a = '?3' and b = ?#{x} and c = ?1 and d = :#{y}".toList o (.position 5)
        ['?', '5'] := by
  have hsurvey : Survey.ofText "a = '?3' and b = ?#{x} and c = ?1 and d = :#{y}".toList =
      .ok ⟨.positional, 3, { ranges := [⟨4, 8, by decide⟩], ascending := by simp }⟩ := by
    decide +kernel
  have hparse : parse "a = '?3' and b = ?#{x} and c = ?1 and d = :#{y}" = .ok
      { text := "a = '?3' and b = ?4 and c = ?1 and d = ?5"
        registry := ⟨[{ key := .position 4, expression := some "x" }, { key := .position 1 },
          { key := .position 5, expression := some "y" }], by decide⟩
        usesPaging := false } := by
    decide +kernel
  obtain ⟨-, hgreatest, -, hbinds, -⟩ := parse_expressions hsurvey
  have hsecond := hbinds _ hparse 1
    ⟨41, ⟨none, true, false, false, .expression .colon ['y'], false, false⟩⟩ (by decide +kernel)
  exact ⟨_, _, _, hsurvey, hparse, hgreatest, (hsecond.1 rfl).2.2⟩

end ParsedQuery

end QueryParams
