import QueryParams.Proofs.Binding.Written

/-!
# Decorations that are put back

No body begins or ends with `%`, and on each side at most one `%` belongs to a placeholder. So the
`%` on the sides of a placeholder can be told from the text between them: the wildcard that is
inferred from a decorated body puts the same decoration around the bare body, and no other wildcard
does.

Main statements: `Placeholder.surround_eq_decorated_iff` and `Placeholder.surround_ofDecorated`.
-/

namespace QueryParams

namespace Wildcard

theorem leading_ofSides (leading trailing : Bool) :
    (ofSides leading trailing).leading = leading := by
  cases leading <;> cases trailing <;> rfl

theorem trailing_ofSides (leading trailing : Bool) :
    (ofSides leading trailing).trailing = trailing := by
  cases leading <;> cases trailing <;> rfl

end Wildcard

namespace Placeholder

variable {p : Placeholder} {w : Wildcard}

def withWildcard (p : Placeholder) (w : Wildcard) : Placeholder :=
  { p with leading := w.leading, trailing := w.trailing }

theorem surround_text_body (p : Placeholder) (w : Wildcard) :
    w.surround (String.ofList p.body.text) = String.ofList (p.withWildcard w).decorated := by
  rw [← String.toList_inj, Wildcard.toList_surround, String.toList_ofList, String.toList_ofList]
  rfl

theorem ofDecorated_withWildcard (hformed : p.body.WellFormed) (w : Wildcard) :
    Wildcard.ofDecorated (p.withWildcard w).decorated = w :=
  calc
    Wildcard.ofDecorated (p.withWildcard w).decorated = Wildcard.ofSides w.leading w.trailing :=
      @ofDecorated_decorated (p.withWildcard w) hformed
    _ = w := w.ofSides_leading_trailing

theorem withWildcard_ofDecorated (hformed : p.body.WellFormed) :
    p.withWildcard (Wildcard.ofDecorated p.decorated) = p := by
  rw [ofDecorated_decorated hformed, withWildcard, Wildcard.leading_ofSides,
    Wildcard.trailing_ofSides]

theorem surround_eq_decorated_iff (hformed : p.body.WellFormed) :
    w.surround (String.ofList p.body.text) = String.ofList p.decorated ↔
      w = Wildcard.ofDecorated p.decorated := by
  rw [surround_text_body]
  constructor
  · intro h
    rw [← String.ofList_injective h, ofDecorated_withWildcard hformed]
  · rintro rfl
    rw [withWildcard_ofDecorated hformed]

/-- The decoration of a placeholder is inferred without loss: the wildcard that is inferred from the
decorated body, and no other one, makes it out of the bare body. This is the wildcard that a query
has in the binding of its LIKE parameter. -/
theorem surround_ofDecorated {query : String} {o : Occurrence}
    (ho : o ∈ occurrences query.toList) :
    (Wildcard.ofDecorated o.placeholder.decorated).surround
        (String.ofList o.placeholder.body.text) = String.ofList o.placeholder.decorated ∧
      (∀ w : Wildcard, w.surround (String.ofList o.placeholder.body.text) =
        String.ofList o.placeholder.decorated → w = Wildcard.ofDecorated o.placeholder.decorated) ∧
      ∀ survey q, Survey.ofText query.toList = .ok survey → ParsedQuery.parse query = .ok q →
        survey.quotations.isQuoted o.start = false → o.placeholder.isLike = true →
          ∃ number, (number, o) ∈ survey.numbered query.toList ∧
            ∃ b ∈ q.bindings, b.key = o.placeholder.body.key survey.numbering number ∧
              ∃ w, b.kind = .like w ∧ w.surround (String.ofList o.placeholder.body.text) =
                String.ofList o.placeholder.decorated := by
  have hformed := wellFormed_body_of_mem_occurrences ho
  have hinferred := (surround_eq_decorated_iff hformed).2 rfl
  refine ⟨hinferred, fun w => (surround_eq_decorated_iff hformed).1, ?_⟩
  intro survey q hsurvey hparse hunquoted hlike
  obtain ⟨number, hm⟩ := Survey.exists_mem_numbered (mem_parameters_iff.2 ⟨ho, hunquoted⟩)
  have hbinding : o.placeholder.binding survey.numbering number ∈ survey.bindings query.toList :=
    List.mem_map.2 ⟨_, hm, rfl⟩
  exact ⟨number, hm, _, ParsedQuery.mem_bindings_of_parse hsurvey hparse hbinding, rfl, _,
    if_pos hlike, hinferred⟩

/-- Of the two `%` behind the expression one belongs to the placeholder, and those inside do not
count. -/
theorem surround_ofDecorated_expression :
    ∃ survey q o, Survey.ofText "a like :#\x7b%e%\x7d%%".toList = .ok survey ∧
      ParsedQuery.parse "a like :#\x7b%e%\x7d%%" = .ok q ∧
      o ∈ occurrences "a like :#\x7b%e%\x7d%%".toList ∧
      survey.quotations.isQuoted o.start = false ∧ o.placeholder.isLike = true ∧
      (Wildcard.ofDecorated o.placeholder.decorated).surround ":#\x7b%e%\x7d" = ":#\x7b%e%\x7d%" ∧
      ∃ b ∈ q.bindings, ∃ w, b.kind = .like w ∧ w.surround ":#\x7b%e%\x7d" = ":#\x7b%e%\x7d%" := by
  have hsurvey : Survey.ofText "a like :#\x7b%e%\x7d%%".toList = .ok ⟨.named, 0, {}⟩ := by
    decide +kernel
  have hparse : ParsedQuery.parse "a like :#\x7b%e%\x7d%%" = .ok
      { text := "a like :__synthetic__1%"
        registry := ⟨[{ key := .name "__synthetic__1", kind := .like .startingWith,
                        expression := some "%e%" }], by decide⟩
        usesPaging := false } := by
    decide +kernel
  have ho : (⟨2, ⟨some ⟨['l', 'i', 'k', 'e'], ' '⟩, false, false, false,
      .expression .colon ['%', 'e', '%'], true, false⟩⟩ : Occurrence) ∈
        occurrences "a like :#\x7b%e%\x7d%%".toList := by
    decide +kernel
  obtain ⟨hinferred, -, hbound⟩ := surround_ofDecorated ho
  obtain ⟨-, -, b, hb, -, w, hkind, hw⟩ := hbound _ _ hsurvey hparse (by decide +kernel) rfl
  exact ⟨_, _, _, hsurvey, hparse, ho, by decide +kernel, rfl, hinferred, b, hb, w, hkind, hw⟩

end Placeholder

end QueryParams
