import QueryParams.Binding.Registry
import QueryParams.Extraction.Resolution
import QueryParams.Extraction.Survey
import QueryParams.Placeholder.Scan

/-!
# Extraction of bindings

The walk through a query text. Placeholders that begin inside a quoted literal are passed over;
every other one is resolved, its binding is registered and its canonical form is written. All else
is copied. The first placeholder with something wrong ends the walk.
-/

namespace QueryParams

/-- A part of a text: copied as it is, or a parameter. -/
inductive Segment where
  | verbatim (text : List Char)
  | parameter (p : Placeholder)
  deriving DecidableEq, Repr

namespace Segment

def text : Segment → List Char
  | verbatim text => text
  | parameter p => p.text

def ofPiece (quotations : Quotations) : Nat × Piece → Segment
  | (_, .plain c) => verbatim [c]
  | (start, .placeholder p) => if quotations.isQuoted start then verbatim p.text else parameter p

def ofText (quotations : Quotations) (text : List Char) : List Segment :=
  (Piece.locate 0 (Piece.ofText text)).map (ofPiece quotations)

end Segment

structure Extraction where
  text : String
  registry : Registry
  numbering : Numbering
  deriving DecidableEq, Repr

namespace Extraction

/-- What has been done up to some point of the walk. -/
structure Progress where
  last : UInt32
  registry : Registry := .empty
  text : String := ""
  deriving DecidableEq, Repr

def step (numbering : Numbering) (done : Progress) : Segment → Except BindingError Progress
  | .verbatim text => .ok { done with text := done.text ++ String.ofList text }
  | .parameter p => do
    let resolved ← Resolution.ofPlaceholder numbering done.last p
    let registry ← done.registry.register resolved.binding
    return ⟨resolved.last, registry, done.text ++ String.ofList resolved.text⟩

def ofSurvey (survey : Survey) (text : List Char) : Except BindingError Extraction := do
  let segments := Segment.ofText survey.quotations text
  let done ← segments.foldlM (step survey.numbering) { last := survey.greatest }
  return ⟨done.text, done.registry, survey.numbering⟩

def ofQuery (query : String) : Except BindingError Extraction := do
  let survey ← Survey.ofText query.toList
  ofSurvey survey query.toList

end Extraction

end QueryParams
