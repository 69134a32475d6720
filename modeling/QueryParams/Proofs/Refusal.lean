import Mathlib.Data.List.Forall2

/-!
# Computations that may be refused

A chain of steps goes through exactly if each of its steps does. Of the members of a list that are
refused it is the first one that counts, where it may matter which members stand in front of it.
-/

namespace QueryParams

variable {α β ε : Type}

theorem exists_eq_error_iff {x : Except ε α} : (∃ e, x = .error e) ↔ ¬ ∃ a, x = .ok a := by
  cases x <;> simp

theorem bind_eq_ok_iff {x : Except ε α} {f : α → Except ε β} {b : β} :
    x >>= f = .ok b ↔ ∃ a, x = .ok a ∧ f a = .ok b := by
  cases x with
  | error e =>
    constructor
    · intro h
      cases h
    · intro h
      obtain ⟨a, ha, -⟩ := h
      cases ha
  | ok a =>
    constructor
    · intro h
      exact ⟨a, rfl, h⟩
    · intro h
      obtain ⟨a', ha, hf⟩ := h
      cases ha
      exact hf

theorem bind_eq_error_iff {x : Except ε α} {f : α → Except ε β} {e : ε} :
    x >>= f = .error e ↔ x = .error e ∨ ∃ a, x = .ok a ∧ f a = .error e := by
  cases x with
  | error e' =>
    constructor
    · intro h
      cases h
      exact Or.inl rfl
    · intro h
      rcases h with h | ⟨a, ha, -⟩
      · cases h
        rfl
      · cases ha
  | ok a =>
    constructor
    · intro h
      exact Or.inr ⟨a, rfl, h⟩
    · intro h
      rcases h with h | ⟨a', ha, hf⟩
      · cases h
      · cases ha
        exact hf

/-- Steps that do not depend on each other go through exactly if each of them does. -/
theorem mapM_eq_ok_iff {f : α → Except ε β} {P : α → Prop} {g : α → β}
    (hf : ∀ a b, f a = .ok b ↔ P a ∧ b = g a) {as : List α} {bs : List β} :
    as.mapM f = .ok bs ↔ (∀ a ∈ as, P a) ∧ bs = as.map g := by
  induction as generalizing bs with
  | nil => simp [pure, Except.pure, eq_comm]
  | cons first as ih =>
    simp only [List.mapM_cons, bind_eq_ok_iff, hf, ih, List.forall_mem_cons, List.map_cons]
    constructor
    · intro h
      obtain ⟨b, ⟨hfirst, rfl⟩, rest, ⟨hrest, rfl⟩, h⟩ := h
      cases h
      exact ⟨⟨hfirst, hrest⟩, rfl⟩
    · intro h
      obtain ⟨⟨hfirst, hrest⟩, rfl⟩ := h
      exact ⟨_, ⟨hfirst, rfl⟩, _, ⟨hrest, rfl⟩, rfl⟩

theorem mapM_eq_ok_iff_forall₂ {f : α → Except ε β} {as : List α} {bs : List β} :
    as.mapM f = .ok bs ↔ List.Forall₂ (fun a b => f a = .ok b) as bs := by
  induction as generalizing bs with
  | nil => simp [pure, Except.pure, eq_comm]
  | cons a as ih =>
    simp only [List.mapM_cons, bind_eq_ok_iff, ih, List.forall₂_cons_left_iff]
    constructor
    · intro h
      obtain ⟨b, hb, bs', hbs, h⟩ := h
      cases h
      exact ⟨b, bs', hb, hbs, rfl⟩
    · intro h
      obtain ⟨b, bs', hb, hbs, rfl⟩ := h
      exact ⟨b, hb, bs', hbs, rfl⟩

/-- It is the first member that is refused for which the steps are. -/
theorem mapM_eq_error_iff {f : α → Except ε β} {as : List α} {e : ε} :
    as.mapM f = .error e ↔ ∃ earlier a later, as = earlier ++ a :: later ∧
      (∀ a' ∈ earlier, ∃ b, f a' = .ok b) ∧ f a = .error e := by
  induction as with
  | nil => simp [pure, Except.pure]
  | cons first as ih =>
    have hpure (b : β) (bs : List β) : (pure (b :: bs) : Except ε (List β)) ≠ .error e := nofun
    simp only [List.mapM_cons, bind_eq_error_iff, ih, hpure, and_false, exists_false, or_false]
    constructor
    · intro h
      rcases h with hfirst | ⟨b, hb, earlier, a, later, rfl, hearlier, ha⟩
      · exact ⟨[], first, as, rfl, by simp, hfirst⟩
      · exact ⟨first :: earlier, a, later, rfl, by simpa using ⟨⟨b, hb⟩, hearlier⟩, ha⟩
    · intro h
      obtain ⟨earlier, a, later, heq, hearlier, ha⟩ := h
      cases earlier with
      | nil =>
        cases heq
        exact Or.inl ha
      | cons _ earlier =>
        cases heq
        obtain ⟨⟨b, hb⟩, hearlier⟩ := List.forall_mem_cons.1 hearlier
        exact Or.inr ⟨b, hb, earlier, a, later, rfl, hearlier, ha⟩

theorem exists_mapM_eq_ok_iff {f : α → Except ε β} {as : List α} :
    (∃ bs, as.mapM f = .ok bs) ↔ ∀ a ∈ as, ∃ b, f a = .ok b := by
  induction as with
  | nil => simp [pure, Except.pure]
  | cons first as ih =>
    simp only [List.mapM_cons, bind_eq_ok_iff, List.forall_mem_cons, ← ih]
    constructor
    · intro h
      obtain ⟨_, b, hb, bs, hbs, -⟩ := h
      exact ⟨⟨b, hb⟩, bs, hbs⟩
    · intro h
      obtain ⟨⟨b, hb⟩, bs, hbs⟩ := h
      exact ⟨_, b, hb, bs, hbs, rfl⟩

/-- Why the first member of a list that is refused is so, if there is one. The list stands behind
some earlier members. -/
def firstRefusal? (refusal? : List α → α → Option ε) : List α → List α → Option ε
  | _, [] => none
  | earlier, a :: as => (refusal? earlier a).or (firstRefusal? refusal? (earlier ++ [a]) as)

theorem firstRefusal?_map (f : α → β) (refusal? : List β → β → Option ε) (earlier as : List α) :
    firstRefusal? refusal? (earlier.map f) (as.map f) =
      firstRefusal? (fun earlier a => refusal? (earlier.map f) (f a)) earlier as := by
  induction as generalizing earlier with
  | nil => rfl
  | cons a as ih =>
    rw [List.map_cons, firstRefusal?, firstRefusal?, ← ih, List.map_append]
    rfl

theorem firstRefusal?_eq_some_iff {refusal? : List α → α → Option ε} {earlier as : List α} {e : ε} :
    firstRefusal? refusal? earlier as = some e ↔
      ∃ before a behind, as = before ++ a :: behind ∧ refusal? (earlier ++ before) a = some e ∧
        ∀ front a' between, before = front ++ a' :: between →
          refusal? (earlier ++ front) a' = none := by
  induction as generalizing earlier with
  | nil => simp [firstRefusal?]
  | cons first as ih =>
    rw [firstRefusal?, Option.or_eq_some_iff, ih]
    constructor
    · intro h
      rcases h with hfirst | ⟨hfirst, before, a, behind, rfl, ha, hnone⟩
      · exact ⟨[], first, as, rfl, by simpa using hfirst, by simp⟩
      · refine ⟨first :: before, a, behind, rfl, by simpa using ha, ?_⟩
        intro front a' between heq
        cases front with
        | nil =>
          cases heq
          simpa using hfirst
        | cons _ front =>
          cases heq
          simpa using hnone front a' between rfl
    · intro h
      obtain ⟨before, a, behind, heq, ha, hnone⟩ := h
      cases before with
      | nil =>
        cases heq
        exact Or.inl (by simpa using ha)
      | cons _ before =>
        cases heq
        refine Or.inr ⟨by simpa using hnone [] first before rfl, before, a, behind, rfl,
          by simpa using ha, ?_⟩
        intro front a' between hfront
        simpa using hnone (first :: front) a' between (by rw [hfront]; rfl)

end QueryParams
