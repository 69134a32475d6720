import QueryParams.Extraction
import QueryParams.Proofs.Extraction.Run

/-!
# What has been written before

The walk appends to its text and never reads it. So the text written up to some point of the walk
can be taken out, whether the walk goes through or not, and a stretch without parameters does
nothing but add its own text.

Main statement: `Extraction.foldlM_step_around`.
-/

namespace QueryParams.Extraction

open Segment

def Progress.behind (written : String) (done : Progress) : Progress :=
  { done with text := written ++ done.text }

def Progress.unwritten (done : Progress) : Progress := { done with text := "" }

@[simp] theorem last_behind (written : String) (done : Progress) :
    (done.behind written).last = done.last := rfl

@[simp] theorem registry_behind (written : String) (done : Progress) :
    (done.behind written).registry = done.registry := rfl

variable {numbering : Numbering}

theorem step_behind (written : String) (done : Progress) (s : Segment) :
    step numbering (done.behind written) s =
      (step numbering done s).map (Progress.behind written) := by
  cases s with
  | verbatim copied => simp [step, Progress.behind, Except.map, String.append_assoc]
  | parameter p =>
    simp only [step, last_behind, registry_behind]
    cases Resolution.ofPlaceholder numbering done.last p with
    | error e => rfl
    | ok resolved =>
      cases hregister : done.registry.register resolved.binding with
      | error e => simp [bind, Except.bind, hregister, Except.map]
      | ok registry =>
        simp [bind, Except.bind, hregister, Except.map, pure, Except.pure, Progress.behind,
          String.append_assoc]

theorem foldlM_step_behind (written : String) (done : Progress) (segments : List Segment) :
    segments.foldlM (step numbering) (done.behind written) =
      (segments.foldlM (step numbering) done).map (Progress.behind written) := by
  induction segments generalizing done with
  | nil => rfl
  | cons s segments ih =>
    rw [List.foldlM_cons, List.foldlM_cons, step_behind]
    cases step numbering done s with
    | error e => rfl
    | ok next => exact ih next

theorem foldlM_step_verbatim {segments : List Segment} (h : ∀ s ∈ segments, s.parameter? = none)
    (done : Progress) :
    segments.foldlM (step numbering) done =
      .ok { done with text := done.text ++ String.ofList (segments.flatMap Segment.text) } := by
  induction segments generalizing done with
  | nil => simp [pure, Except.pure]
  | cons s segments ih =>
    obtain ⟨hs, hsegments⟩ := List.forall_mem_cons.1 h
    cases s with
    | parameter p => cases hs
    | verbatim written =>
      rw [List.foldlM_cons, List.flatMap_cons, String.ofList_append, ← String.append_assoc]
      exact ih hsegments _

/-- A stretch without parameters only shifts what is written behind it. -/
theorem foldlM_step_around {stretch : List Segment} (h : ∀ s ∈ stretch, s.parameter? = none)
    (earlier later : List Segment) (done : Progress) :
    (earlier ++ stretch ++ later).foldlM (step numbering) done = do
      let next ← earlier.foldlM (step numbering) done
      let result ← later.foldlM (step numbering) next.unwritten
      return result.behind (next.text ++ String.ofList (stretch.flatMap Segment.text)) := by
  rw [List.foldlM_append, List.foldlM_append, bind_assoc]
  congr 1
  funext next
  rw [foldlM_step_verbatim h]
  have hnext : { next with text := next.text ++ String.ofList (stretch.flatMap Segment.text) } =
      next.unwritten.behind (next.text ++ String.ofList (stretch.flatMap Segment.text)) := by
    simp [Progress.behind, Progress.unwritten]
  rw [hnext]
  exact foldlM_step_behind _ _ _

end QueryParams.Extraction
