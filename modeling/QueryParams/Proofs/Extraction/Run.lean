import QueryParams.Extraction
import QueryParams.Proofs.Binding.Registry
import QueryParams.Proofs.Extraction.Resolution

/-!
# The walk through a text

What a whole walk does, from what each of its steps does. The number that an expression is given
counts the expressions up to it, so the bindings and the cleaned text of all segments are known
before the walk begins.

Main statement: `Extraction.foldlM_step_eq_ok_iff`.
-/

namespace QueryParams

theorem filterMap_cons_eq_append {α β : Type} (f : α → Option β) (a : α) (as : List α) :
    (a :: as).filterMap f = (f a).toList ++ as.filterMap f := by
  cases hf : f a <;> simp [hf]

namespace Numbering

/-- The members of a list with the last number that has been given when they are reached. A member
that takes a number is given the one behind the last. -/
def assign {α : Type} (takes : α → Bool) : Nat → List α → List (Nat × α)
  | _, [] => []
  | last, a :: as =>
    (last + (takes a).toNat, a) :: assign takes (last + (takes a).toNat) as

variable {α β : Type}

theorem assign_filterMap {takes : α → Bool} {takes' : β → Bool} {f : α → Option β}
    (hnone : ∀ a, f a = none → takes a = false) (hsome : ∀ a b, f a = some b → takes' b = takes a)
    (last : Nat) (as : List α) :
    assign takes' last (as.filterMap f) =
      (assign takes last as).filterMap fun m => (f m.2).map fun b => (m.1, b) := by
  induction as generalizing last with
  | nil => rfl
  | cons a as ih =>
    rw [assign, List.filterMap_cons, List.filterMap_cons]
    cases hf : f a with
    | none =>
      simp only [Option.map_none]
      rw [hnone a hf]
      exact ih last
    | some b =>
      simp only [Option.map_some]
      rw [assign, hsome a b hf, ih]

theorem assign_map {takes : α → Bool} {takes' : β → Bool} {f : α → β}
    (h : ∀ a, takes' (f a) = takes a) (last : Nat) (as : List α) :
    assign takes' last (as.map f) = (assign takes last as).map fun m => (m.1, f m.2) := by
  induction as generalizing last with
  | nil => rfl
  | cons a as ih => rw [List.map_cons, assign, assign, List.map_cons, h a, ih]

theorem map_snd_assign (takes : α → Bool) (last : Nat) (as : List α) :
    (assign takes last as).map Prod.snd = as := by
  induction as generalizing last with
  | nil => rfl
  | cons a as ih => rw [assign, List.map_cons, ih]

theorem mem_of_mem_assign {takes : α → Bool} {last : Nat} {as : List α} {m : Nat × α}
    (h : m ∈ assign takes last as) : m.2 ∈ as := by
  rw [← map_snd_assign takes last as]
  exact List.mem_map_of_mem h

theorem exists_of_mem_assign {takes : α → Bool} {last : Nat} {as : List α} {m : Nat × α}
    (h : m ∈ assign takes last as) :
    ∃ earlier later, as = earlier ++ m.2 :: later ∧
      assign takes last as = assign takes last earlier ++ m :: assign takes m.1 later := by
  induction as generalizing last with
  | nil => cases h
  | cons a as ih =>
    rw [assign] at h ⊢
    rcases List.mem_cons.1 h with rfl | h
    · exact ⟨[], as, rfl, rfl⟩
    · obtain ⟨earlier, later, has, hassign⟩ := ih h
      exact ⟨a :: earlier, later, by rw [has]; rfl, by rw [hassign]; rfl⟩

theorem le_of_mem_assign {takes : α → Bool} {last : Nat} {as : List α} {m : Nat × α}
    (h : m ∈ assign takes last as) : m.1 ≤ last + as.countP takes := by
  induction as generalizing last with
  | nil => cases h
  | cons a as ih =>
    have hcount : (a :: as).countP takes = as.countP takes + (takes a).toNat := by
      cases htakes : takes a <;> simp [htakes]
    rcases List.mem_cons.1 h with rfl | h
    · rw [hcount]
      omega
    · have hle := ih h
      omega

/-- The members that take a number are given the next ones in their order. -/
theorem mem_assign_iff_of_takes {takes : α → Bool} {last number : Nat} {as : List α} {a : α}
    (ha : takes a = true) :
    (number, a) ∈ assign takes last as ↔
      ∃ i, (as.filter takes)[i]? = some a ∧ number = last + i + 1 := by
  induction as generalizing last with
  | nil => simp [assign]
  | cons first as ih =>
    rw [assign, List.mem_cons, ih]
    cases htakes : takes first with
    | true =>
      rw [List.filter_cons_of_pos htakes]
      constructor
      · intro h
        rcases h with h | ⟨i, hi, rfl⟩
        · cases h
          exact ⟨0, rfl, rfl⟩
        · exact ⟨i + 1, hi, by simp only [Bool.toNat_true]; omega⟩
      · intro h
        obtain ⟨i, hi, rfl⟩ := h
        cases i with
        | zero =>
          cases hi
          exact Or.inl rfl
        | succ i => exact Or.inr ⟨i, hi, by simp only [Bool.toNat_true]; omega⟩
    | false =>
      have hne : a ≠ first := by
        rintro rfl
        rw [ha] at htakes
        cases htakes
      rw [List.filter_cons_of_neg (by simpa using htakes)]
      simp [hne]

end Numbering

namespace Segment

def parameter? : Segment → Option Placeholder
  | verbatim _ => none
  | parameter p => some p

def takesNumber (s : Segment) : Bool := s.parameter?.any Placeholder.isExpression

def cleaned (numbering : Numbering) : Nat × Segment → List Char
  | (_, verbatim text) => text
  | (number, parameter p) => p.cleaned numbering number

def binding? (numbering : Numbering) (m : Nat × Segment) : Option Binding :=
  m.2.parameter?.map (Placeholder.binding numbering m.1)

/-- The parameter, if the segment is one, has the body of a placeholder that the scan has found and
the survey has let through. -/
def Sound (s : Segment) : Prop :=
  ∀ p ∈ s.parameter?, p.body.WellFormed ∧ p.body.FitsWord

end Segment

namespace Extraction

open Registry Segment

variable {numbering : Numbering}

theorem step_eq_ok_iff {done next : Progress} {s : Segment} (hs : s.Sound) :
    step numbering done s = .ok next ↔
      (∀ p ∈ s.parameter?, p.Admissible) ∧
        done.last.toNat + s.takesNumber.toNat < UInt32.size ∧
        (binding? numbering (done.last.toNat + s.takesNumber.toNat, s)).toList.foldlM register
          done.registry = .ok next.registry ∧
        next.text = done.text ++
          String.ofList (cleaned numbering (done.last.toNat + s.takesNumber.toNat, s)) ∧
        next.last = UInt32.ofNat (done.last.toNat + s.takesNumber.toNat) := by
  obtain ⟨last, registry, text⟩ := next
  cases s with
  | verbatim written =>
    have hlast : UInt32.ofNat (done.last.toNat + (verbatim written).takesNumber.toNat) =
        done.last := UInt32.ofNat_toNat
    have hbound : done.last.toNat + (verbatim written).takesNumber.toNat < UInt32.size :=
      done.last.toNat_lt
    rw [hlast]
    constructor
    · intro h
      cases h
      exact ⟨by simp [parameter?], hbound, rfl, rfl, rfl⟩
    · intro h
      obtain ⟨-, -, hregistry, htext, hlast⟩ := h
      cases hregistry
      cases htext
      cases hlast
      rfl
  | parameter p =>
    obtain ⟨hformed, hfits⟩ := hs p rfl
    have htakes : (parameter p).takesNumber = p.isExpression := rfl
    rw [htakes]
    simp only [step, bind_eq_ok_iff, Resolution.ofPlaceholder_eq_ok_iff hformed hfits]
    constructor
    · intro h
      obtain ⟨r, ⟨hadmissible, hnumber, rfl⟩, registry', hregister, h⟩ := h
      cases h
      refine ⟨by simpa [parameter?] using hadmissible, hnumber, ?_, rfl, rfl⟩
      simpa [binding?, parameter?] using hregister
    · intro h
      obtain ⟨hadmissible, hnumber, hregister, rfl, rfl⟩ := h
      refine ⟨_, ⟨hadmissible p rfl, hnumber, rfl⟩, registry, ?_, rfl⟩
      simpa [binding?, parameter?] using hregister

/-- What a run of steps does. It goes through exactly if every parameter is admissible, the numbers
for the expressions do not run out and the bindings can be registered one after another. -/
theorem foldlM_step_eq_ok_iff {done result : Progress} {segments : List Segment}
    (hsound : ∀ s ∈ segments, s.Sound) :
    segments.foldlM (step numbering) done = .ok result ↔
      (∀ s ∈ segments, ∀ p ∈ s.parameter?, p.Admissible) ∧
        done.last.toNat + segments.countP takesNumber < UInt32.size ∧
        ((Numbering.assign takesNumber done.last.toNat segments).filterMap
          (binding? numbering)).foldlM register done.registry = .ok result.registry ∧
        result.text = done.text ++ String.ofList
          ((Numbering.assign takesNumber done.last.toNat segments).flatMap (cleaned numbering)) ∧
        result.last = UInt32.ofNat (done.last.toNat + segments.countP takesNumber) := by
  induction segments generalizing done with
  | nil =>
    have hbound := done.last.toNat_lt
    obtain ⟨last, registry, text⟩ := result
    constructor
    · intro h
      cases h
      exact ⟨by simp, hbound, rfl, by simp [Numbering.assign], UInt32.ofNat_toNat.symm⟩
    · intro h
      obtain ⟨-, -, hregistry, htext, hlast⟩ := h
      have hsame : last = done.last := hlast.trans UInt32.ofNat_toNat
      cases hregistry
      simp only [Numbering.assign, List.flatMap_nil, String.ofList_nil,
        String.append_empty] at htext
      rw [hsame, htext]
      rfl
  | cons s segments ih =>
    have hs : s.Sound := hsound s (by simp)
    have hrest : ∀ s ∈ segments, s.Sound := fun s' hs' => hsound s' (by simp [hs'])
    have hcount : (s :: segments).countP takesNumber =
        s.takesNumber.toNat + segments.countP takesNumber := by
      cases htakes : s.takesNumber <;> simp [htakes, Nat.add_comm]
    rw [List.foldlM_cons, bind_eq_ok_iff, hcount, Numbering.assign, filterMap_cons_eq_append,
      List.foldlM_append, List.flatMap_cons, ← Nat.add_assoc]
    constructor
    · intro h
      obtain ⟨next, hstep, hrun⟩ := h
      obtain ⟨hadmissible, hnumber, hregister, htext, hlast⟩ := (step_eq_ok_iff hs).1 hstep
      have hnext : next.last.toNat = done.last.toNat + s.takesNumber.toNat := by
        rw [hlast, UInt32.toNat_ofNat_of_lt' hnumber]
      obtain ⟨hadmissibles, htotal, hregisters, hresult, hend⟩ := (ih hrest).1 hrun
      rw [hnext] at htotal hregisters hresult hend
      refine ⟨List.forall_mem_cons.2 ⟨hadmissible, hadmissibles⟩, htotal,
        bind_eq_ok_iff.2 ⟨_, hregister, hregisters⟩, ?_, hend⟩
      rw [hresult, htext, String.append_assoc, String.ofList_append]
    · intro h
      obtain ⟨hadmissible, htotal, hregisters, hresult, hend⟩ := h
      obtain ⟨registry, hregister, hregisters⟩ := bind_eq_ok_iff.1 hregisters
      obtain ⟨hfirst, hlater⟩ := List.forall_mem_cons.1 hadmissible
      have hnumber : done.last.toNat + s.takesNumber.toNat < UInt32.size := by omega
      -- what is known of the whole run determines the progress behind its first step
      obtain ⟨next, hnext⟩ : ∃ next : Progress, next =
          { last := UInt32.ofNat (done.last.toNat + s.takesNumber.toNat)
            registry := registry
            text := done.text ++ String.ofList
              (cleaned numbering (done.last.toNat + s.takesNumber.toNat, s)) } := ⟨_, rfl⟩
      have hlast : next.last.toNat = done.last.toNat + s.takesNumber.toNat := by
        rw [hnext]
        exact UInt32.toNat_ofNat_of_lt' hnumber
      refine ⟨next, (step_eq_ok_iff hs).2 ⟨hfirst, hnumber, ?_, ?_, ?_⟩, (ih hrest).2 ?_⟩
      · rw [hnext]
        exact hregister
      · rw [hnext]
      · rw [hnext]
      · rw [hlast]
        refine ⟨hlater, htotal, ?_, ?_, hend⟩
        · rw [hnext]
          exact hregisters
        · rw [hresult, hnext, String.append_assoc, String.ofList_append]

end Extraction

end QueryParams
