import QueryParams.Command.Arguments

/-!
# Values on the command line

The assignments of an invocation are those of the values that the command line gives, one for each
of them and in their order.

Main statement: `Invocation.exists_gives_of_ofArguments?`.
-/

namespace QueryParams.Command

namespace Operands

inductive Gives : List (List Char) → List (List Char) → Prop
  | nil : Gives [] []
  | ended {arguments} : Gives (endOfOptions :: arguments) []
  | value {value arguments values} (h : Gives arguments values) :
    Gives (valueOption :: value :: arguments) (value :: values)
  | joined {value arguments values} (h : Gives arguments values) :
    Gives ((valueOption ++ '=' :: value) :: arguments) (value :: values)
  | query {argument arguments values} (hoption : isOption argument = false)
    (h : Gives arguments values) : Gives (argument :: arguments) values

/-- The assignments of the second operands are those of the first ones and those of these values
behind them. -/
def Adds (o o' : Operands) (values : List (List Char)) : Prop :=
  ∃ new, values.map Assignment.ofArgument? = new.map some ∧ o'.assignments = o.assignments ++ new

variable {o o₁ o' : Operands} {argument : List Char} {arguments values later : List (List Char)}

theorem Adds.of_eq (h : o'.assignments = o.assignments) : o.Adds o' [] :=
  ⟨[], rfl, by rw [h, List.append_nil]⟩

theorem Adds.trans (h : o.Adds o₁ values) (hlater : o₁.Adds o' later) :
    o.Adds o' (values ++ later) := by
  obtain ⟨new, hvalues, hnew⟩ := h
  obtain ⟨new', hvalues', hnew'⟩ := hlater
  refine ⟨new ++ new', ?_, ?_⟩
  · rw [List.map_append, List.map_append, hvalues, hvalues']
  · rw [hnew', hnew, List.append_assoc]

theorem adds_of_addAssignment? (h : o.addAssignment? argument = some o') :
    o.Adds o' [argument] := by
  obtain ⟨a, ha, rfl⟩ := Option.map_eq_some_iff.1 h
  exact ⟨[a], by rw [List.map_singleton, ha, List.map_singleton], rfl⟩

theorem adds_of_addQuery? (h : o.addQuery? argument = some o') : o.Adds o' [] := by
  unfold addQuery? at h
  split at h
  · cases h
  · cases h
    exact .of_eq rfl

theorem adds_of_foldlM_addQuery? (h : arguments.foldlM addQuery? o = some o') :
    o.Adds o' [] := by
  induction arguments generalizing o with
  | nil => cases h; exact .of_eq rfl
  | cons argument arguments ih =>
    obtain ⟨o₁, hfirst, h⟩ := Option.bind_eq_some_iff.1 h
    exact (adds_of_addQuery? hfirst).trans (ih h)

theorem adds_of_readOne? (h : o.readOne? true argument = some o') :
    ∃ values, o.Adds o' values ∧ ∀ {arguments later}, Gives arguments later →
      Gives (argument :: arguments) (values ++ later) := by
  unfold readOne? at h
  split at h
  case isTrue hjoined =>
    rw [Bool.true_and, List.isPrefixOf_iff_prefix] at hjoined
    obtain ⟨value, rfl⟩ := hjoined
    have hdrop : (valueOption ++ ['='] ++ value).drop (valueOption.length + 1) = value := rfl
    rw [hdrop] at h
    exact ⟨[value], adds_of_addAssignment? h, fun h => by simpa using h.joined⟩
  case isFalse =>
    split at h
    case isTrue => cases h
    case isFalse hoption =>
      exact ⟨[], adds_of_addQuery? h, fun h => h.query (Bool.eq_false_iff.2 hoption)⟩

theorem exists_gives_of_read? (h : read? true o arguments = some o') :
    ∃ values, Gives arguments values ∧ o.Adds o' values := by
  fun_induction read? true o arguments with
  | case1 => cases h; exact ⟨[], .nil, .of_eq rfl⟩
  | case2 => cases h; exact ⟨[], .ended, .of_eq rfl⟩
  | case3 o argument =>
    obtain ⟨values, hadds, hgives⟩ := adds_of_readOne? h
    exact ⟨values, by simpa using hgives .nil, hadds⟩
  | case4 => exact ⟨[], .ended, adds_of_foldlM_addQuery? h⟩
  | case5 => cases h
  | case6 o argument next arguments _ hvalue _ ih =>
    obtain rfl : argument = valueOption := by simpa using hvalue
    obtain ⟨o₁, hfirst, h⟩ := Option.bind_eq_some_iff.1 h
    obtain ⟨values, hgives, hadds⟩ := ih o₁ h
    exact ⟨next :: values, hgives.value, (adds_of_addAssignment? hfirst).trans hadds⟩
  | case7 o argument next arguments _ _ ih =>
    obtain ⟨o₁, hfirst, h⟩ := Option.bind_eq_some_iff.1 h
    obtain ⟨values, hadds, hgives⟩ := adds_of_readOne? hfirst
    obtain ⟨later, hlater, hadds'⟩ := ih o₁ h
    exact ⟨values ++ later, hgives hlater, hadds.trans hadds'⟩

end Operands

namespace Invocation

variable {arguments : List String} {environment : Option String} {format : Format}
  {query? : Option String} {assignments : List Assignment}

theorem exists_read?_of_readAction? {arguments : List (List Char)}
    (h : readAction? arguments = some (.prepare query? assignments)) :
    ∃ operands, arguments = "prepare".toList :: operands ∧
      Operands.read? true {} operands = some ⟨query?, assignments⟩ := by
  unfold readAction? at h
  split at h
  · simp at h
  · next operands =>
    obtain ⟨o, hread, ho⟩ := Option.map_eq_some_iff.1 h
    cases ho
    exact ⟨operands, rfl, hread⟩
  · cases h

/-- The assignments of an invocation are those of the values that stand behind the name of its
action. -/
theorem exists_gives_of_ofArguments?
    (h : ofArguments? arguments environment = some ⟨format, .prepare query? assignments⟩) :
    ∃ options operands values,
      Options.read? {} (arguments.map String.toList) =
          some (options, "prepare".toList :: operands) ∧
        Operands.Gives operands values ∧
        values.map Assignment.ofArgument? = assignments.map some := by
  obtain ⟨⟨options, behind⟩, hoptions, h⟩ := Option.bind_eq_some_iff.1 h
  obtain ⟨action, haction, h⟩ := Option.bind_eq_some_iff.1 h
  obtain rfl : action = .prepare query? assignments := by
    split at h
    · cases h; rfl
    · obtain ⟨_, -, h⟩ := Option.bind_eq_some_iff.1 h
      cases h
      rfl
    · cases h; rfl
  obtain ⟨operands, rfl, hread⟩ := exists_read?_of_readAction? haction
  obtain ⟨values, hgives, new, hvalues, hnew⟩ := Operands.exists_gives_of_read? hread
  obtain rfl : assignments = new := hnew
  exact ⟨options, operands, values, hoptions, hgives, hvalues⟩

end Invocation

end QueryParams.Command
