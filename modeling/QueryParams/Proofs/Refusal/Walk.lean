import QueryParams.Proofs.Extraction.Parameters
import QueryParams.Proofs.Refusal.Placeholder

/-!
# Where the walk ends early

The walk through a text ends with the first parameter that is refused: for what is wrong with it by
itself, or else because it differs from the first parameter with its key.

Main statement: `Extraction.foldlM_step_eq_error_iff`.
-/

namespace QueryParams

def Placeholder.numberedBinding (numbering : Numbering) (m : Nat × Placeholder) : Binding :=
  m.2.binding numbering m.1

def Placeholder.refusal? (numbering : Numbering) (earlier : List (Nat × Placeholder))
    (m : Nat × Placeholder) : Option BindingError :=
  (m.2.defect? m.1).or
    (Binding.conflict? (earlier.map (numberedBinding numbering)) (numberedBinding numbering m))

namespace Extraction

open Placeholder Registry Segment

variable {numbering : Numbering} {done next : Progress} {earlier : List (Nat × Placeholder)}
  {e : BindingError}

/-- What the walk keeps in mind of the parameters that it has passed. -/
def Progress.Registers (numbering : Numbering) (done : Progress)
    (earlier : List (Nat × Placeholder)) : Prop :=
  done.registry.bindings = Binding.firstOfEachKey (earlier.map (numberedBinding numbering))

theorem step_parameter_eq_error_iff {p : Placeholder} (hs : (parameter p).Sound)
    (hearlier : done.Registers numbering earlier) :
    step numbering done (.parameter p) = .error e ↔
      refusal? numbering earlier (done.last.toNat + p.isExpression.toNat, p) = some e := by
  obtain ⟨hformed, hfits⟩ := hs p rfl
  cases hdefect : p.defect? (done.last.toNat + p.isExpression.toNat) with
  | some e' =>
    have hrefused : Resolution.ofPlaceholder numbering done.last p = .error e' :=
      (Resolution.ofPlaceholder_eq_error_iff hformed hfits).2 hdefect
    rw [step, hrefused, refusal?, hdefect]
    simp [bind, Except.bind]
  | none =>
    cases hresolved : Resolution.ofPlaceholder numbering done.last p with
    | error e' =>
      rw [(Resolution.ofPlaceholder_eq_error_iff hformed hfits).1 hresolved] at hdefect
      cases hdefect
    | ok r =>
      obtain ⟨-, -, rfl⟩ := (Resolution.ofPlaceholder_eq_ok_iff hformed hfits).1 hresolved
      rw [step, hresolved, refusal?, hdefect, Option.none_or]
      change (done.registry.register _ >>= _) = _ ↔ _
      rw [bind_eq_error_iff, register_eq_error_iff hearlier]
      simp [pure, Except.pure, numberedBinding]

/-- One step: behind a parameter that is not refused the walk goes on with its number and its
binding. -/
theorem registers_of_step_parameter {p : Placeholder} (hs : (parameter p).Sound)
    (hearlier : done.Registers numbering earlier)
    (h : step numbering done (.parameter p) = .ok next) :
    next.last.toNat = done.last.toNat + p.isExpression.toNat ∧
      next.Registers numbering
        (earlier ++ [(done.last.toNat + p.isExpression.toNat, p)]) := by
  obtain ⟨-, hnumber, hregister, -, hlast⟩ := (step_eq_ok_iff hs).1 h
  constructor
  · rw [hlast]
    exact UInt32.toNat_ofNat_of_lt' hnumber
  · have hbinding : binding? numbering
        (done.last.toNat + (parameter p).takesNumber.toNat, parameter p) =
          some (numberedBinding numbering (done.last.toNat + p.isExpression.toNat, p)) := rfl
    rw [hbinding, Option.toList_some, List.foldlM_cons, bind_eq_ok_iff] at hregister
    obtain ⟨registry, hregister, hend⟩ := hregister
    cases hend
    rw [Progress.Registers, List.map_append]
    exact ((register_eq_ok_iff hearlier).1 hregister).2

/-- A run of steps ends early exactly if a parameter is refused, with the reason of the first
one. -/
theorem foldlM_step_eq_error_iff {segments : List Segment} (hsound : ∀ s ∈ segments, s.Sound)
    (hearlier : done.Registers numbering earlier) :
    segments.foldlM (step numbering) done = .error e ↔
      firstRefusal? (refusal? numbering) earlier
        ((Numbering.assign takesNumber done.last.toNat segments).filterMap numbered?) = some e := by
  induction segments generalizing done earlier with
  | nil =>
    constructor
    · intro h
      cases h
    · intro h
      cases h
  | cons s segments ih =>
    have hs : s.Sound := hsound s (by simp)
    have hrest : ∀ s ∈ segments, s.Sound := fun s' hs' => hsound s' (by simp [hs'])
    rw [List.foldlM_cons, bind_eq_error_iff, Numbering.assign]
    cases s with
    | verbatim written =>
      have hnumbered : numbered? (done.last.toNat + (verbatim written).takesNumber.toNat,
          verbatim written) = none := rfl
      rw [List.filterMap_cons_none hnumbered]
      have hrun := @ih { done with text := done.text ++ String.ofList written } earlier hrest
        hearlier
      simpa [step, takesNumber, parameter?] using hrun
    | parameter p =>
      have htakes : (parameter p).takesNumber = p.isExpression := rfl
      have hnumbered : numbered? (done.last.toNat + p.isExpression.toNat, parameter p) =
          some (done.last.toNat + p.isExpression.toNat, p) := rfl
      rw [htakes, List.filterMap_cons_some hnumbered, firstRefusal?, Option.or_eq_some_iff,
        step_parameter_eq_error_iff hs hearlier]
      -- the rest of the run is judged by what is registered behind `p`
      refine or_congr_right ?_
      cases hstep : step numbering done (.parameter p) with
      | error e' =>
        have hrefused := (step_parameter_eq_error_iff hs hearlier).1 hstep
        simp [hrefused]
      | ok next =>
        have hpassed : refusal? numbering earlier
            (done.last.toNat + p.isExpression.toNat, p) = none := by
          rw [Option.eq_none_iff_forall_ne_some]
          intro e' hrefused
          rw [(step_parameter_eq_error_iff hs hearlier).2 hrefused] at hstep
          cases hstep
        obtain ⟨hlast, hnext⟩ := registers_of_step_parameter hs hearlier hstep
        have hrun := ih hrest hnext
        rw [hlast] at hrun
        simpa [hpassed] using hrun

end Extraction

end QueryParams
