import QueryParams.Proofs.Binding.Registry

/-!
# Registering in place

Registration as the change of a list that is kept in place: a refusal undoes nothing, and further
bindings may be offered behind it. Whatever has come of the earlier ones, the list holds the first
binding of each key that was offered, and a binding is refused exactly if it differs from the first
one with its key. So it does not depend on the order whether any binding is refused.

Main statements: `Registry.attempts_of_offered` and `Registry.foldlM_register_perm`.
-/

namespace QueryParams

namespace Binding

/-- `firsts` are the offered bindings with no other one of their key in front of them, in the order
in which they were offered. -/
structure AreFirsts (offered firsts : List Binding) : Prop where
  mem_iff : ∀ b, b ∈ firsts ↔ offered.find? (·.key = b.key) = some b
  ordered : firsts.Pairwise fun b later => offered.idxOf b < offered.idxOf later

theorem mem_firstOfEachKey_iff {bs : List Binding} {b : Binding} :
    b ∈ firstOfEachKey bs ↔ bs.find? (·.key = b.key) = some b := by
  rw [← find?_firstOfEachKey]
  constructor
  · intro hb
    exact find?_key_of_agree (agree_of_nodup_keys (nodup_keys_firstOfEachKey bs)) hb
  · intro hfind
    exact List.mem_of_find?_eq_some hfind

theorem pairwise_idxOf_firstOfEachKey (bs : List Binding) :
    (firstOfEachKey bs).Pairwise fun b later => bs.idxOf b < bs.idxOf later := by
  induction bs with
  | nil => exact List.Pairwise.nil
  | cons first bs ih =>
    -- a binding with another key stands one place further behind `first`
    have hidx {b : Binding} (hb : b ∈ (firstOfEachKey bs).filter (·.key ≠ first.key)) :
        (first :: bs).idxOf b = bs.idxOf b + 1 := by
      have hkey : b.key ≠ first.key := by simpa using (List.mem_filter.1 hb).2
      have hne : first ≠ b := fun h => hkey (by rw [h])
      simp [hne]
    rw [firstOfEachKey, List.pairwise_cons]
    constructor
    · intro b hb
      rw [hidx hb, List.idxOf_cons_self]
      omega
    · refine (ih.sublist List.filter_sublist).imp_of_mem ?_
      intro b later hb hlater hlt
      rw [hidx hb, hidx hlater]
      omega

theorem areFirsts_iff {offered firsts : List Binding} :
    AreFirsts offered firsts ↔ firsts = firstOfEachKey offered := by
  have hfirsts : AreFirsts offered (firstOfEachKey offered) :=
    ⟨fun _ => mem_firstOfEachKey_iff, pairwise_idxOf_firstOfEachKey offered⟩
  constructor
  · intro h
    have hnodup {bs : List Binding} (hbs : AreFirsts offered bs) : bs.Nodup :=
      hbs.ordered.imp fun hlt heq => by rw [heq] at hlt; omega
    apply List.Perm.eq_of_pairwise _ h.ordered hfirsts.ordered
    · rw [List.perm_ext_iff_of_nodup (hnodup h) (hnodup hfirsts)]
      intro b
      rw [h.mem_iff, hfirsts.mem_iff]
    · intro b later _ _ hlt hgt
      omega
  · rintro rfl
    exact hfirsts

theorem firstOfEachKey_concat_of_known {bs : List Binding} {b : Binding}
    (h : ∃ other ∈ bs, other.key = b.key) : firstOfEachKey (bs ++ [b]) = firstOfEachKey bs := by
  rw [firstOfEachKey_concat]
  cases hfirst : bs.find? (·.key = b.key) with
  | none =>
    obtain ⟨other, hother, hkey⟩ := h
    exact absurd hkey (by simpa using List.find?_eq_none.1 hfirst other hother)
  | some first => rfl

theorem Agree.perm {bs bs' : List Binding} (hagree : Agree bs) (h : bs.Perm bs') : Agree bs' := by
  intro b hb b' hb'
  exact hagree b (h.mem_iff.2 hb) b' (h.mem_iff.2 hb')

theorem Agree.mem_firstOfEachKey {bs : List Binding} (hagree : Agree bs) {b : Binding} :
    b ∈ firstOfEachKey bs ↔ b ∈ bs := by
  constructor
  · exact mem_of_mem_firstOfEachKey
  · intro hb
    exact mem_firstOfEachKey_iff.2 (find?_key_of_agree hagree hb)

theorem Agree.firstOfEachKey_perm {bs bs' : List Binding} (hagree : Agree bs)
    (h : bs.Perm bs') : (firstOfEachKey bs).Perm (firstOfEachKey bs') := by
  have hnodup (bs : List Binding) : (firstOfEachKey bs).Nodup :=
    (nodup_keys_firstOfEachKey bs).of_map
  rw [List.perm_ext_iff_of_nodup (hnodup bs) (hnodup bs')]
  intro b
  rw [hagree.mem_firstOfEachKey, (hagree.perm h).mem_firstOfEachKey, h.mem_iff]

end Binding

namespace Registry

open Binding

/-! ## One step -/

/-- Registers a binding in a list that is kept in place. What is done to the list before a refusal
stays done. -/
def enter (b : Binding) : ExceptT BindingError (StateM (List Binding)) Unit := do
  match (← get).find? (·.key = b.key) with
  | some existing => unless existing = b do throw (.conflictingBinding existing b)
  | none => modify (· ++ [b])

def attempt (registered : List Binding) (b : Binding) : Except BindingError Unit × List Binding :=
  (enter b).run.run registered

theorem attempt_eq (registered : List Binding) (b : Binding) :
    attempt registered b =
      match registered.find? (·.key = b.key) with
      | some existing =>
        (if existing = b then .ok () else .error (.conflictingBinding existing b), registered)
      | none => (.ok (), registered ++ [b]) := by
  have hread : attempt registered b =
      (match registered.find? (·.key = b.key) with
        | some existing => unless existing = b do throw (.conflictingBinding existing b)
        | none => modify (· ++ [b]) :
          ExceptT BindingError (StateM (List Binding)) Unit).run.run registered := rfl
  rw [hread]
  cases registered.find? (·.key = b.key) with
  | none => rfl
  | some existing => by_cases hsame : existing = b <;> simp [hsame] <;> rfl

theorem attempt_bindings (r : Registry) (b : Binding) :
    attempt r.bindings b =
      match r.register b with
      | .ok r' => (.ok (), r'.bindings)
      | .error e => (.error e, r.bindings) := by
  have hlist : r.bindings.find? (·.key = b.key) = r.find? b.key := rfl
  rw [attempt_eq, hlist]
  cases hfind : r.find? b.key with
  | none =>
    rw [register_of_find?_eq_none hfind]
    rfl
  | some existing =>
    rw [register_of_find?_eq_some hfind]
    by_cases hsame : existing = b <;> simp [hsame]

theorem map_bindings_register (r : Registry) (b : Binding) :
    (r.register b).map bindings =
      (attempt r.bindings b).1.map fun _ => (attempt r.bindings b).2 := by
  rw [attempt_bindings]
  cases r.register b <;> rfl

def outcome (earlier : List Binding) (b : Binding) : Except BindingError Unit :=
  match conflict? earlier b with
  | some e => .error e
  | none => .ok ()

theorem outcome_eq_ok_iff {earlier : List Binding} {b : Binding} :
    outcome earlier b = .ok () ↔
      (∀ other ∈ earlier, other.key ≠ b.key) ∨ earlier.find? (·.key = b.key) = some b := by
  unfold outcome conflict?
  cases hfirst : earlier.find? (·.key = b.key) with
  | none => simpa using hfirst
  | some first =>
    have hmem := List.mem_of_find?_eq_some hfirst
    have hkey : first.key = b.key := by simpa using List.find?_some hfirst
    have hknown : ¬ ∀ other ∈ earlier, other.key ≠ b.key := fun hnew => hnew first hmem hkey
    by_cases hsame : first = b <;> simp [hsame, hknown]

theorem outcome_eq_error {earlier : List Binding} {b first : Binding}
    (hfirst : earlier.find? (·.key = b.key) = some first) (hne : first ≠ b) :
    outcome earlier b = .error (.conflictingBinding first b) := by
  have hconflict : conflict? earlier b = some (.conflictingBinding first b) :=
    conflict?_eq_some_iff.2 ⟨first, hfirst, hne, rfl⟩
  rw [outcome, hconflict]

theorem attempt_firstOfEachKey (earlier : List Binding) (b : Binding) :
    attempt (firstOfEachKey earlier) b = (outcome earlier b, firstOfEachKey (earlier ++ [b])) := by
  rw [attempt_eq, find?_firstOfEachKey, firstOfEachKey_concat, outcome, conflict?]
  cases earlier.find? (·.key = b.key) with
  | none => rfl
  | some existing => by_cases hsame : existing = b <;> simp [hsame]

/-! ## A run -/

/-- What comes of the bindings that are offered one after another, and the list behind each of them.
A refusal does not end the run. -/
def attempts (registered : List Binding) :
    List Binding → List (Except BindingError Unit × List Binding)
  | [] => []
  | b :: bs => attempt registered b :: attempts (attempt registered b).2 bs

theorem length_attempts (registered bs : List Binding) :
    (attempts registered bs).length = bs.length := by
  induction bs generalizing registered with
  | nil => rfl
  | cons b bs ih => rw [attempts, List.length_cons, List.length_cons, ih]

theorem attempts_append (earlier bs bs' : List Binding) :
    attempts (firstOfEachKey earlier) (bs ++ bs') =
      attempts (firstOfEachKey earlier) bs ++ attempts (firstOfEachKey (earlier ++ bs)) bs' := by
  induction bs generalizing earlier with
  | nil => simp [attempts]
  | cons b bs ih =>
    rw [List.cons_append, attempts, attempts, attempt_firstOfEachKey, ih, List.append_assoc]
    rfl

/-- A step anywhere in a run over an empty list, whatever has come of the steps before it. In front
of it and behind it the list holds the first binding of each key that was offered so far. The step
goes through exactly if its binding has a new key or is the first one with its key; otherwise it
reports both. Only a binding with a new key changes the list. A registry with these bindings answers
alike. -/
theorem attempts_of_offered (earlier later : List Binding) (b : Binding) :
    ∃ before outcome after,
      AreFirsts earlier before ∧ AreFirsts (earlier ++ [b]) after ∧
        (attempts [] (earlier ++ b :: later))[earlier.length]? = some (outcome, after) ∧
        attempt before b = (outcome, after) ∧
        (outcome = .ok () ↔
          (∀ other ∈ earlier, other.key ≠ b.key) ∨ earlier.find? (·.key = b.key) = some b) ∧
        (∀ first, earlier.find? (·.key = b.key) = some first → first ≠ b →
          outcome = .error (.conflictingBinding first b)) ∧
        ((∃ other ∈ earlier, other.key = b.key) → after = before) ∧
        ∃ r : Registry, r.bindings = before ∧
          (r.register b).map bindings = outcome.map fun _ => after := by
  have hstep := attempt_firstOfEachKey earlier b
  refine ⟨firstOfEachKey earlier, outcome earlier b, firstOfEachKey (earlier ++ [b]),
    areFirsts_iff.2 rfl, areFirsts_iff.2 rfl, ?_, hstep, outcome_eq_ok_iff, ?_,
    firstOfEachKey_concat_of_known, ?_⟩
  · have hrun := attempts_append [] earlier (b :: later)
    rw [firstOfEachKey, List.nil_append, attempts, hstep] at hrun
    rw [hrun, List.getElem?_append_right (Nat.le_of_eq (length_attempts _ _)), length_attempts,
      Nat.sub_self]
    rfl
  · intro first hfirst hne
    exact outcome_eq_error hfirst hne
  · refine ⟨⟨firstOfEachKey earlier, nodup_keys_firstOfEachKey earlier⟩, rfl, ?_⟩
    rw [map_bindings_register, hstep]

/-! ## The order does not matter -/

/-- Bindings that are registered in another order are refused alike, and where they are not, the
registry holds the same bindings in some order. -/
theorem foldlM_register_perm {bs bs' : List Binding} (h : bs.Perm bs') :
    ((∃ r, bs.foldlM register .empty = .ok r) ↔ ∃ r, bs'.foldlM register .empty = .ok r) ∧
      ∀ r r', bs.foldlM register .empty = .ok r → bs'.foldlM register .empty = .ok r' →
        r.bindings.Perm r'.bindings := by
  constructor
  · rw [exists_foldlM_register_empty_iff, exists_foldlM_register_empty_iff]
    constructor
    · intro hagree
      exact hagree.perm h
    · intro hagree
      exact hagree.perm h.symm
  · intro r r' hr hr'
    obtain ⟨hagree, hfirst⟩ := foldlM_register_empty_eq_ok_iff.1 hr
    obtain ⟨-, hfirst'⟩ := foldlM_register_empty_eq_ok_iff.1 hr'
    rw [hfirst, hfirst']
    exact hagree.firstOfEachKey_perm h

theorem foldlM_register_perm_name_and_position :
    ∃ r r', [⟨.name "1", .like .containing, none⟩, ⟨.position 1, .plain, none⟩,
        ⟨.name "1", .like .containing, none⟩].foldlM register .empty = .ok r ∧
      [⟨.position 1, .plain, none⟩, ⟨.name "1", .like .containing, none⟩,
        ⟨.name "1", .like .containing, none⟩].foldlM register .empty = .ok r' ∧
      r.bindings.length = 2 ∧ r.bindings.Perm r'.bindings := by
  have hperm : List.Perm
      [⟨.name "1", .like .containing, none⟩, ⟨.position 1, .plain, none⟩,
        ⟨.name "1", .like .containing, none⟩]
      [(⟨.position 1, .plain, none⟩ : Binding), ⟨.name "1", .like .containing, none⟩,
        ⟨.name "1", .like .containing, none⟩] := by
    decide
  obtain ⟨r, hr⟩ : ∃ r, [⟨.name "1", .like .containing, none⟩, ⟨.position 1, .plain, none⟩,
      ⟨.name "1", .like .containing, none⟩].foldlM register .empty = .ok r :=
    exists_foldlM_register_empty_iff.2 (by simp [Binding.Agree])
  obtain ⟨r', hr'⟩ := (foldlM_register_perm hperm).1.1 ⟨r, hr⟩
  refine ⟨r, r', hr, hr', ?_, (foldlM_register_perm hperm).2 r r' hr hr'⟩
  rw [(foldlM_register_empty_eq_ok_iff.1 hr).2]
  decide

end Registry

end QueryParams
