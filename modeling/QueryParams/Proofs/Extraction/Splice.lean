import QueryParams.Extraction
import QueryParams.Proofs.Extraction.Resolution
import QueryParams.Proofs.Placeholder.Cursor

/-!
# The walk by offsets

The walk through a text that remembers how far the text has been copied. Only when a decorated body
is replaced, the text in front of it is copied too, and at the end the remaining text is. Each copy
cuts the text twice, and needs the offset up to which it has been copied to be in front of the next
replacement. No cut fails, and the result is the one of the walk that copies every piece as it goes.

Main statements: `Extraction.splice_eq` and `Extraction.scans_and_splice_within`.
-/

namespace QueryParams

/-- The part of a text from one offset to another; `none` if they are not in this order or the text
cannot be cut at one of them. -/
def Text.between? (start stop : Nat) (text : List Char) : Option (List Char) :=
  if h : start ≤ stop then Span.slice? ⟨start, stop, h⟩ text else none

theorem Text.between?_width (before covered behind : List Char) :
    between? (width before) (width (before ++ covered)) (before ++ covered ++ behind) =
      some covered := by
  rw [width_append, between?, dif_pos (Nat.le_add_right ..)]
  exact Span.slice?_ofText ..

theorem Resolution.text_eq_cleaned {numbering : Numbering} {last : UInt32} {p : Placeholder}
    {r : Resolution} (hformed : p.body.WellFormed) (h : ofPlaceholder numbering last p = .ok r) :
    r.text = p.cleaned numbering r.last.toNat := by
  have hfits : p.body.FitsWord := by
    intro digits hbody
    obtain ⟨_, hkey, -⟩ := bind_eq_ok_iff.1 h
    rw [hbody] at hkey
    obtain ⟨_, hposition, -⟩ := bind_eq_ok_iff.1 hkey
    exact (positionOfDigits_eq_ok_iff.1 hposition).1
  obtain ⟨-, hnumber, rfl⟩ := (ofPlaceholder_eq_ok_iff hformed hfits).1 h
  rw [UInt32.toNat_ofNat_of_lt' hnumber]

namespace Extraction

inductive Stop where
  | refused (error : BindingError)
  /-- The text would have to be cut where it cannot be. -/
  | cut
  deriving DecidableEq, Repr

/-- What has been done up to some placeholder. Of the text in front of it, the part from `copied` on
has not been copied yet. -/
structure Splicing where
  last : UInt32
  registry : Registry := .empty
  text : String := ""
  copied : Nat := 0
  deriving DecidableEq, Repr

namespace Splicing

def replace (text : List Char) (done : Splicing) (o : Occurrence) :
    Option (List Char) → Except Stop Splicing
  | none => .ok done
  | some written =>
    match Text.between? done.copied o.decoratedSpan.start text with
    | none => .error .cut
    | some kept =>
      .ok { done with
        text := done.text ++ String.ofList kept ++ String.ofList written
        copied := o.decoratedSpan.stop }

def bind (numbering : Numbering) (text : List Char) (done : Splicing) (o : Occurrence) :
    Except Stop Splicing := do
  let resolved ← (Resolution.ofPlaceholder numbering done.last o.placeholder).mapError .refused
  let registry ← (done.registry.register resolved.binding).mapError .refused
  replace text { done with last := resolved.last, registry := registry } o
    (o.placeholder.replacement? numbering resolved.last.toNat)

def visit (survey : Survey) (text : List Char) (done : Splicing) (o : Occurrence) :
    Except Stop Splicing :=
  if survey.quotations.isQuoted o.span.start then .ok done
  else done.bind survey.numbering text o

def finish (survey : Survey) (text : List Char) (done : Splicing) : Except Stop Extraction :=
  match Text.splitAt? done.copied text with
  | none => .error .cut
  | some (_, tail) => .ok ⟨done.text ++ String.ofList tail, done.registry, survey.numbering⟩

end Splicing

def splice (survey : Survey) (text : List Char) : Except Stop Extraction := do
  let done ← (Placeholder.occurrences text).foldlM (Splicing.visit survey text)
    { last := survey.greatest }
  done.finish survey text

namespace Splicing

variable {text earlier : List Char} {s : Splicing} {done : Progress} {p : Placeholder}

/-- Up to here the two walks agree: what is not copied yet is the end of the text so far. -/
structure Matches (earlier : List Char) (s : Splicing) (done : Progress) : Prop where
  last : s.last = done.last
  registry : s.registry = done.registry
  kept : ∃ behind kept, earlier = behind ++ kept ∧ s.copied = Text.width behind ∧
    done.text = s.text ++ String.ofList kept

/-- The two walks break off for one reason, or they both go on and agree up to here. -/
inductive Corresponds (earlier : List Char) :
    Except BindingError Progress → Except Stop Splicing → Prop
  | refused (e : BindingError) : Corresponds earlier (.error e) (.error (.refused e))
  | next {done : Progress} {s : Splicing} (h : s.Matches earlier done) :
      Corresponds earlier (.ok done) (.ok s)

theorem Matches.append (h : s.Matches earlier done) (written : List Char) :
    s.Matches (earlier ++ written) { done with text := done.text ++ String.ofList written } := by
  obtain ⟨behind, kept, rfl, hcopied, htext⟩ := h.kept
  refine ⟨h.last, h.registry, behind, kept ++ written, List.append_assoc .., hcopied, ?_⟩
  rw [htext, String.append_assoc, ← String.ofList_append]

/-- A replacement copies what stands between it and the one before. -/
theorem Matches.replace {rest : List Char} (h : s.Matches earlier done)
    (htext : text = earlier ++ (p.text ++ rest)) (written? : Option (List Char)) :
    ∃ s', s.replace text ⟨Text.width earlier, p⟩ written? = .ok s' ∧
      s'.Matches (earlier ++ p.text) { done with
        text := done.text ++ String.ofList (p.front ++ written?.getD p.decorated ++ p.back) } := by
  cases written? with
  | none => exact ⟨s, rfl, h.append p.text⟩
  | some written =>
    obtain ⟨behind, kept, rfl, hcopied, hdone⟩ := h.kept
    -- the replacement begins behind all that has not been copied, so the cuts are in order
    have hstart : (Occurrence.decoratedSpan ⟨Text.width (behind ++ kept), p⟩).start =
        Text.width (behind ++ (kept ++ p.front)) := by
      rw [Occurrence.decoratedSpan, Span.start_ofText, ← Text.width_append, List.append_assoc]
    have hcut : Text.between? s.copied
        (Occurrence.decoratedSpan ⟨Text.width (behind ++ kept), p⟩).start text =
          some (kept ++ p.front) := by
      have hsplit : text =
          behind ++ (kept ++ p.front) ++ (p.decorated ++ p.back ++ rest) := by
        rw [htext]
        simp [Placeholder.text]
      rw [hstart, hcopied, hsplit]
      exact Text.between?_width ..
    refine ⟨{ s with
        text := s.text ++ String.ofList (kept ++ p.front) ++ String.ofList written
        copied := (Occurrence.decoratedSpan ⟨Text.width (behind ++ kept), p⟩).stop },
      by rw [Splicing.replace, hcut], h.last, h.registry,
      behind ++ (kept ++ p.front) ++ p.decorated, p.back, by simp [Placeholder.text], ?_, ?_⟩
    · rw [Text.width_append _ p.decorated, ← hstart]
      rfl
    · rw [hdone]
      simp [String.ofList_append, String.append_assoc]

theorem Matches.bind {numbering : Numbering} {rest : List Char} (h : s.Matches earlier done)
    (htext : text = earlier ++ (p.text ++ rest)) (hformed : p.body.WellFormed) :
    Corresponds (earlier ++ p.text) (step numbering done (.parameter p))
      (s.bind numbering text ⟨Text.width earlier, p⟩) := by
  rw [step, Splicing.bind, h.last, h.registry]
  cases hresolved : Resolution.ofPlaceholder numbering done.last p with
  | error e => exact .refused e
  | ok resolved =>
    change Corresponds _ (done.registry.register resolved.binding >>= _)
      ((done.registry.register resolved.binding).mapError .refused >>= _)
    cases done.registry.register resolved.binding with
    | error e => exact .refused e
    | ok registry =>
      have hnext : Matches earlier { s with last := resolved.last, registry := registry }
          { done with last := resolved.last, registry := registry } := ⟨rfl, rfl, h.kept⟩
      obtain ⟨s', hs', hmatches⟩ :=
        hnext.replace htext (p.replacement? numbering resolved.last.toNat)
      rw [← Placeholder.cleaned, ← Resolution.text_eq_cleaned hformed hresolved] at hmatches
      change Corresponds _ _ (Splicing.replace text _ _ _)
      rw [hs']
      exact .next hmatches

/-- One step: the offset of a placeholder decides alike in both walks. -/
theorem Matches.visit (survey : Survey) {rest : List Char} (h : s.Matches earlier done)
    (htext : text = earlier ++ (p.text ++ rest)) (hformed : p.body.WellFormed) :
    Corresponds (earlier ++ p.text)
      (step survey.numbering done
        (Segment.ofPiece survey.quotations (Text.width earlier, .placeholder p)))
      (s.visit survey text ⟨Text.width earlier, p⟩) := by
  rw [Segment.ofPiece, Splicing.visit, Occurrence.span, Span.start_ofText]
  by_cases hquoted : survey.quotations.isQuoted (Text.width earlier) = true
  · rw [if_pos hquoted, if_pos hquoted]
    exact .next (h.append p.text)
  · rw [if_neg hquoted, if_neg hquoted]
    exact h.bind htext hformed

theorem Matches.finish (survey : Survey) (h : s.Matches text done) :
    s.finish survey text = .ok ⟨done.text, done.registry, survey.numbering⟩ := by
  obtain ⟨behind, kept, rfl, hcopied, hdone⟩ := h.kept
  rw [Splicing.finish, hcopied, Text.splitAt?_width, hdone, h.registry]

/-- A run: from any place on, the two walks come to the same result. -/
theorem Matches.run {survey : Survey} {cs : List Char} (h : s.Matches earlier done)
    (before : Option Char) (htext : text = earlier ++ cs) :
    ((Placeholder.occurrencesFrom (Text.width earlier) before cs).foldlM
        (Splicing.visit survey text) s >>= Splicing.finish survey text) =
      (((Piece.locate (Text.width earlier) (Piece.split before cs)).map
        (Segment.ofPiece survey.quotations)).foldlM (step survey.numbering) done >>= fun done =>
          .ok ⟨done.text, done.registry, survey.numbering⟩).mapError .refused := by
  fun_induction Piece.split before cs generalizing earlier s done with
  | case1 before =>
    rw [List.append_nil] at htext
    rw [Placeholder.occurrencesFrom_nil]
    subst htext
    exact h.finish survey
  | case2 before c cs p rest hread ih =>
    obtain ⟨hcs, hfits, -⟩ := Placeholder.readUnescaped?_eq_some_iff.1 hread
    rw [hcs] at htext
    rw [Placeholder.occurrencesFrom_of_read_eq_some hread, Piece.locate, List.map_cons,
      List.foldlM_cons, List.foldlM_cons, bind_assoc, bind_assoc]
    have hstep := h.visit survey htext hfits.body
    generalize step survey.numbering done _ = next, Splicing.visit survey text s _ = next'
      at hstep ⊢
    cases hstep with
    | refused e => rfl
    | next hnext =>
      rw [← List.append_assoc] at htext
      rw [Piece.text, ← Text.width_append]
      exact ih hnext htext
  | case3 before c cs hread ih =>
    have hwidth : Text.width earlier + c.utf8Size = Text.width (earlier ++ [c]) := by
      rw [Text.width_append]
      rfl
    rw [Placeholder.occurrencesFrom_of_read_eq_none hread, Piece.locate, List.map_cons,
      List.foldlM_cons, bind_assoc, hwidth, Piece.text, ← Text.width_append]
    exact ih (h.append [c]) (by rw [htext, List.append_assoc]; rfl)

end Splicing

/-- No cut of the walk by offsets fails, and it extracts what the other walk does. -/
theorem splice_eq (survey : Survey) (text : List Char) :
    splice survey text = (ofSurvey survey text).mapError .refused :=
  @Splicing.Matches.run text [] { last := survey.greatest } { last := survey.greatest } survey text
    ⟨rfl, rfl, [], [], rfl, rfl, rfl⟩ none rfl

/-- The scan and the rewriting by offsets come to an end on every text, and the text can be cut
wherever they cut it. The cursor finds the occurrences of the text. Their spans lie in each other
and in the text, one behind the other, with all ends at boundaries of characters, and there are no
more of them than half the bytes of the text. From these spans the walk by offsets extracts what the
walk over the pieces does. -/
theorem scans_and_splice_within (text : List Char) :
    (∀ found, Cursor.Scans text 0 found ↔ found = Placeholder.occurrences text) ∧
      (∀ o ∈ Placeholder.occurrences text, o.Within text) ∧
      (Placeholder.occurrences text).Pairwise (fun o later => o.span.stop ≤ later.span.start) ∧
      2 * (Placeholder.occurrences text).length ≤ Text.width text ∧
      ∀ survey, splice survey text = (ofSurvey survey text).mapError .refused :=
  ⟨fun _ => Cursor.scans_iff, fun _ ho => Placeholder.within_of_mem_occurrences ho,
    Placeholder.pairwise_occurrences text,
    Placeholder.two_mul_length_occurrencesFrom_le 0 none text, fun survey => splice_eq survey text⟩

theorem scans_and_splice_within_rejected :
    ∃ o, Placeholder.occurrences "é\\:x like %:ñ%".toList = [o] ∧
      (o.span.start, o.decoratedSpan.start, o.decoratedSpan.stop, o.span.stop) = (6, 11, 16, 16) ∧
      Cursor.turn? "é\\:x like %:ñ%".toList 0 = some (.rejected 4) ∧
      Cursor.Scans "é\\:x like %:ñ%".toList 0 [o] ∧ o.Within "é\\:x like %:ñ%".toList := by
  obtain ⟨hscans, hwithin, -⟩ := scans_and_splice_within "é\\:x like %:ñ%".toList
  have ho : Placeholder.occurrences "é\\:x like %:ñ%".toList =
      [⟨6, ⟨some ⟨"like".toList, ' '⟩, false, false, true, .name ['ñ'], true, false⟩⟩] := by
    decide +kernel
  exact ⟨_, ho, by decide +kernel, by decide +kernel, (hscans _).2 ho.symm,
    hwithin _ (by rw [ho]; exact List.mem_singleton_self _)⟩

end Extraction

end QueryParams
