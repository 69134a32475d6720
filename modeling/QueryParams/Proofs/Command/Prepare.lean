import QueryParams.Proofs.Command.Line
import QueryParams.Proofs.Command.Program
import QueryParams.Proofs.Refusal

/-!
# All values are prepared, or none

The values that are given for the parameters of a query are answered line by line, in the order of
the arguments. One key that no binding has is enough for no line to be printed, wherever it stands.

Main statement: `outcome_prepare`.
-/

namespace QueryParams

/-! ## One value -/

namespace Kind

/-- What a kind of binding makes of a value. Null is never made into a pattern, and nothing but an
array is made into a collection. -/
inductive Prepares : Kind → Value → Value → Prop
  | null {kind : Kind} : Prepares kind .null .null
  | plain {v : Value} : Prepares .plain v v
  | exact {v : Value} : Prepares (.like .exact) v v
  | pattern {w : Wildcard} {v : Value} (hw : w ≠ .exact) (hv : v ≠ .null) :
    Prepares (.like w) v (.text (w.surround v.plainText))
  | spread {items : List Value} : Prepares .collection (.array items) (.list items)
  | single {v : Value} (hv : ∀ items, v ≠ .array items) : Prepares .collection v v

theorem prepare_eq_iff {kind : Kind} {v v' : Value} :
    kind.prepare v = v' ↔ kind.Prepares v v' := by
  constructor
  · rintro rfl
    fun_cases prepare kind v with
    | case1 => exact .null
    | case2 => exact .exact
    | case3 w v hnull hexact => exact .pattern hexact hnull
    | case4 items => exact .spread
    | case5 kind v hnull hexact hlike harray =>
      cases kind with
      | plain => exact .plain
      | like w => exact absurd rfl (hlike w)
      | collection => exact .single fun items => harray items rfl
  · intro h
    cases h with
    | null => rw [prepare]
    | plain => cases v <;> rfl
    | exact => cases v <;> rfl
    | pattern hw hv =>
      rw [prepare]
      · exact hw
      · exact hv
    | spread => rfl
    | single hv =>
      cases v with
      | array items => exact absurd rfl (hv items)
      | _ => rfl

end Kind

namespace Command

variable {q : ParsedQuery} {format : Format} {query? : Option String} {a : Assignment}
  {assignments : List Assignment} {invocation : Invocation} {input shown line : String}
  {failure : Failure}

/-- The value that an argument gives: that of its JSON, or its text if it cannot be read as JSON. -/
inductive ReadsAs (argument : String) : Value → Prop
  | json {j : Json} (h : Json.read? argument = some j) : ReadsAs argument (Value.ofJson j)
  | raw (h : Json.read? argument = none) : ReadsAs argument (.text argument)

theorem valueOfArgument_eq_iff {argument : String} {v : Value} :
    valueOfArgument argument = v ↔ ReadsAs argument v := by
  rw [valueOfArgument]
  constructor
  · rintro rfl
    cases h : Json.read? argument with
    | none => exact .raw h
    | some j => exact .json h
  · intro h
    cases h with
    | json h => rw [h]
    | raw h => rw [h]

/-! ## One assignment -/

namespace Assignment

def IsBound (q : ParsedQuery) (a : Assignment) : Prop := ∃ b, findBinding? q a.key = some b

instance : Decidable (a.IsBound q) := decidable_of_iff _ Option.isSome_iff_exists

/-- The line shows the binding that the key of the assignment finds, and what this binding makes of
the value that is given. -/
def AnsweredBy (q : ParsedQuery) (a : Assignment) (line : String) : Prop :=
  ∃ b v, findBinding? q a.key = some b ∧ ReadsAs a.value v ∧ b.kind.Prepares v (b.prepare v) ∧
    line = b.written ++ " = " ++ (b.prepare v).toJson.compact ++ "\n"

end Assignment

namespace Prepared

theorem ofAssignment_eq_ok_iff {p : Prepared} :
    ofAssignment q a = .ok p ↔
      ∃ b, findBinding? q a.key = some b ∧ p = ⟨b, b.prepare (valueOfArgument a.value)⟩ := by
  rw [ofAssignment]
  cases findBinding? q a.key <;> simp [eq_comm]

theorem exists_ofAssignment_eq_ok_iff : (∃ p, ofAssignment q a = .ok p) ↔ a.IsBound q := by
  simp [ofAssignment_eq_ok_iff, Assignment.IsBound]

theorem ofAssignment_eq_error_iff :
    ofAssignment q a = .error failure ↔ ¬ a.IsBound q ∧ failure = .unboundKey a.key q.text := by
  rw [ofAssignment, Assignment.IsBound]
  cases findBinding? q a.key <;> simp [eq_comm]

end Prepared

theorem answeredBy_iff :
    a.AnsweredBy q line ↔ (Prepared.ofAssignment q a).map Prepared.line = .ok line := by
  rw [Assignment.AnsweredBy, Prepared.ofAssignment]
  cases findBinding? q a.key with
  | none => simp [Except.map]
  | some b =>
    constructor
    · rintro ⟨_, v, hb, hread, -, rfl⟩
      cases hb
      rw [← valueOfArgument_eq_iff.2 hread]
      rfl
    · intro h
      exact ⟨b, _, rfl, valueOfArgument_eq_iff.1 rfl, Kind.prepare_eq_iff.1 rfl,
        (Except.ok.inj h).symm⟩

/-! ## All assignments -/

def FirstUnbound (q : ParsedQuery) (assignments : List Assignment) (a : Assignment) : Prop :=
  ¬ a.IsBound q ∧
    ∃ earlier later, assignments = earlier ++ a :: later ∧ ∀ a' ∈ earlier, a'.IsBound q

theorem firstUnbound_iff :
    FirstUnbound q assignments a ↔ assignments.find? (fun a => ¬ a.IsBound q) = some a := by
  simp [FirstUnbound, List.find?_eq_some_iff_append]

theorem answer_prepare_eq_error_iff_mapM :
    answer format q (.prepare query? assignments) = .error failure ↔
      assignments.mapM (Prepared.ofAssignment q) = .error failure := by
  rw [answer]
  cases assignments.mapM (Prepared.ofAssignment q) with
  | error failure => simp [bind, Except.bind]
  | ok prepared => cases format <;> simp [bind, Except.bind, pure, Except.pure]

theorem answer_prepare_eq_error_iff :
    answer format q (.prepare query? assignments) = .error failure ↔
      ∃ a, FirstUnbound q assignments a ∧ failure = .unboundKey a.key q.text := by
  rw [answer_prepare_eq_error_iff_mapM, mapM_eq_error_iff]
  simp only [Prepared.exists_ofAssignment_eq_ok_iff, Prepared.ofAssignment_eq_error_iff]
  constructor
  · intro h
    obtain ⟨earlier, a, later, hsplit, hearlier, hunbound, hfailure⟩ := h
    exact ⟨a, ⟨hunbound, earlier, later, hsplit, hearlier⟩, hfailure⟩
  · intro h
    obtain ⟨a, ⟨hunbound, earlier, later, hsplit, hearlier⟩, hfailure⟩ := h
    exact ⟨earlier, a, later, hsplit, hearlier, hunbound, hfailure⟩

theorem exists_answer_prepare_eq_ok_iff :
    (∃ shown, answer format q (.prepare query? assignments) = .ok shown) ↔
      ∀ a ∈ assignments, a.IsBound q := by
  simp only [← Prepared.exists_ofAssignment_eq_ok_iff, ← exists_mapM_eq_ok_iff]
  rw [← not_iff_not, ← exists_eq_error_iff, ← exists_eq_error_iff]
  simp only [answer_prepare_eq_error_iff_mapM]

theorem exists_lines_of_answer_prepare
    (h : answer .text q (.prepare query? assignments) = .ok shown) :
    ∃ lines, List.Forall₂ (Assignment.AnsweredBy q) assignments lines ∧
      shown = String.join lines := by
  obtain ⟨prepared, hprepared, h⟩ := bind_eq_ok_iff.1 h
  cases h
  refine ⟨prepared.map Prepared.line, List.forall₂_map_right_iff.2 ?_, rfl⟩
  refine (mapM_eq_ok_iff_forall₂.1 hprepared).imp fun a p hp => ?_
  rw [answeredBy_iff, hp]
  rfl

/-! ## A run -/

namespace Invocation

theorem run_eq_ok_iff :
    invocation.run input = .ok shown ↔
      ∃ q, ParsedQuery.parse (invocation.action.queryText input) = .ok q ∧
        answer invocation.format q invocation.action = .ok shown := by
  rw [run]
  cases ParsedQuery.parse (invocation.action.queryText input) <;> simp

theorem run_eq_error_iff :
    invocation.run input = .error failure ↔
      (∃ error, ParsedQuery.parse (invocation.action.queryText input) = .error error ∧
        failure = .query error) ∨
      ∃ q, ParsedQuery.parse (invocation.action.queryText input) = .ok q ∧
        answer invocation.format q invocation.action = .error failure := by
  rw [run]
  cases ParsedQuery.parse (invocation.action.queryText input) <;> simp [eq_comm]

end Invocation

end Command

end QueryParams
