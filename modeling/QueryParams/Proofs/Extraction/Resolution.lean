import QueryParams.Extraction.Resolution
import QueryParams.Proofs.Placeholder.Grammar
import QueryParams.Proofs.Placeholder.Index
import QueryParams.Proofs.Refusal

/-!
# What a placeholder resolves to

The binding of a placeholder and what is written in its place, said part by part. A placeholder is
refused for three reasons only: its keyword is of no known kind, it is a LIKE parameter with index
zero, or there is no number left for its expression.

Main statement: `Resolution.ofPlaceholder_eq_ok_iff`.
-/

namespace QueryParams

namespace Keyword

def isLike (k : Keyword) : Bool := Text.equalIgnoringCase k.word ['l', 'i', 'k', 'e']

def isIn (k : Keyword) : Bool := Text.equalIgnoringCase k.word ['i', 'n']

end Keyword

def Numbering.token : Numbering → Nat → List Char
  | positional, number => '?' :: Text.numeral number
  | named, number => ':' :: syntheticPrefix.toList ++ Text.numeral number

/-- The key of a body, where `number` is the number that an expression is given. -/
def Body.key (numbering : Numbering) (number : Nat) : Body → Key
  | index digits => .position (UInt32.ofNat (Text.numeralValue digits))
  | name identifier => .name (String.ofList identifier)
  | expression _ _ => numbering.key (UInt32.ofNat number)

namespace Placeholder

def isLike (p : Placeholder) : Bool := p.keyword.any Keyword.isLike

def isIn (p : Placeholder) : Bool := p.keyword.any Keyword.isIn

def isExpression (p : Placeholder) : Bool := p.body.expression?.isSome

theorem expression?_eq_none {p : Placeholder} (h : p.isExpression = false) :
    p.body.expression? = none := by
  simpa [isExpression] using h

def boundKind (p : Placeholder) : Kind :=
  if p.isLike then .like (Wildcard.ofDecorated p.decorated)
  else if p.isIn then .collection
  else .plain

def binding (numbering : Numbering) (number : Nat) (p : Placeholder) : Binding where
  key := p.body.key numbering number
  kind := p.boundKind
  expression := p.body.expression?.map String.ofList

/-- What is written in place of the decorated body, if it does not stay as it is: the token of an
expression, and the bare body of a LIKE parameter. -/
def replacement? (numbering : Numbering) (number : Nat) (p : Placeholder) : Option (List Char) :=
  if p.isExpression then some (numbering.token number)
  else if p.isLike then some p.body.text
  else none

def cleaned (numbering : Numbering) (number : Nat) (p : Placeholder) : List Char :=
  p.front ++ (p.replacement? numbering number).getD p.decorated ++ p.back

structure Admissible (p : Placeholder) : Prop where
  classified : ∀ k ∈ p.keyword, k.isLike = true ∨ k.isIn = true
  positive : p.isLike = true → ∀ digits, p.body = .index digits → Text.numeralValue digits ≠ 0

end Placeholder

/-! ## The kind -/

theorem Keyword.kind_eq_ok_iff {k : Keyword} {wildcard : Wildcard} {kind : Kind} :
    k.kind wildcard = .ok kind ↔
      (k.isLike = true ∨ k.isIn = true) ∧
        kind = if k.isLike then .like wildcard else .collection := by
  unfold Keyword.kind
  change (if k.isLike = true then _ else if k.isIn = true then _ else _) = _ ↔ _
  by_cases hlike : k.isLike = true
  · simp [hlike, @eq_comm _ kind]
  · by_cases hin : k.isIn = true
    · simp [hlike, hin, @eq_comm _ kind]
    · simp [hlike, hin]

theorem Placeholder.kind_eq_ok_iff {p : Placeholder} {kind : Kind} :
    p.kind = .ok kind ↔
      (∀ k ∈ p.keyword, k.isLike = true ∨ k.isIn = true) ∧ kind = p.boundKind := by
  unfold Placeholder.kind boundKind isLike isIn
  cases p.keyword with
  | none => simp [@eq_comm _ kind]
  | some k =>
    rw [Keyword.kind_eq_ok_iff]
    by_cases hlike : k.isLike = true
    · simp [hlike]
    · by_cases hin : k.isIn = true <;> simp [hlike, hin]

theorem Placeholder.isLike_iff_boundKind {p : Placeholder} :
    p.isLike = true ↔ ∃ wildcard, p.boundKind = .like wildcard := by
  unfold boundKind
  by_cases hlike : p.isLike = true
  · simp [hlike]
  · by_cases hin : p.isIn = true <;> simp [hlike, hin]

/-! ## The key -/

theorem Numbering.next_eq_ok_iff {last number : UInt32} :
    Numbering.next last = .ok number ↔
      last.toNat + 1 < UInt32.size ∧ number = UInt32.ofNat (last.toNat + 1) := by
  have hnext : last + 1 = UInt32.ofNat (last.toNat + 1) := by
    rw [UInt32.ofNat_add, UInt32.ofNat_toNat]
    rfl
  unfold Numbering.next
  split
  · rename_i hlast
    rw [Except.ok.injEq, hnext]
    constructor
    · intro h
      exact ⟨hlast, h.symm⟩
    · intro h
      exact h.2.symm
  · rename_i hlast
    constructor
    · intro h
      cases h
    · intro h
      exact absurd h.1 hlast

theorem Numbering.toList_written_key (numbering : Numbering) {number : Nat}
    (h : number < UInt32.size) :
    (numbering.key (UInt32.ofNat number)).written.toList = numbering.token number := by
  have hnumber : (UInt32.ofNat number).toNat = number := UInt32.toNat_ofNat_of_lt' h
  cases numbering <;> simp [Numbering.key, Key.written, Numbering.token, Text.numeral, hnumber]

theorem word_eq_zero_iff {n : Nat} (h : n < UInt32.size) : UInt32.ofNat n = 0 ↔ n = 0 := by
  constructor
  · intro heq
    have hvalue : (UInt32.ofNat n).toNat = n := UInt32.toNat_ofNat_of_lt' h
    rw [heq] at hvalue
    exact hvalue.symm
  · intro heq
    rw [heq]
    rfl

/-- An index with a value that is a word of 32 bits; the other bodies have no such condition. -/
def Body.FitsWord (b : Body) : Prop :=
  ∀ digits, b = .index digits → Text.numeralValue digits < UInt32.size

theorem Resolution.keyOf_eq_ok_iff {numbering : Numbering} {last : UInt32} {p : Placeholder}
    {key : Key} {next : UInt32} (hfits : p.body.FitsWord) :
    keyOf numbering last p.body = .ok (key, next) ↔
      last.toNat + p.isExpression.toNat < UInt32.size ∧
        key = p.body.key numbering (last.toNat + p.isExpression.toNat) ∧
        next = UInt32.ofNat (last.toNat + p.isExpression.toNat) := by
  have hlast := last.toNat_lt
  unfold Placeholder.isExpression keyOf
  cases hbody : p.body with
  | index digits =>
    simp only [bind_eq_ok_iff, positionOfDigits_eq_ok_iff]
    constructor
    · intro h
      obtain ⟨position, ⟨-, rfl⟩, h⟩ := h
      cases h
      exact ⟨hlast, rfl, UInt32.ofNat_toNat.symm⟩
    · intro h
      obtain ⟨-, rfl, rfl⟩ := h
      refine ⟨_, ⟨hfits digits hbody, rfl⟩, ?_⟩
      simp [Body.key, Body.expression?, pure, Except.pure]
  | name identifier =>
    constructor
    · intro h
      cases h
      exact ⟨hlast, rfl, UInt32.ofNat_toNat.symm⟩
    · intro h
      obtain ⟨-, rfl, rfl⟩ := h
      simp [Body.key, Body.expression?]
  | expression sign source =>
    simp only [bind_eq_ok_iff, Numbering.next_eq_ok_iff]
    constructor
    · intro h
      obtain ⟨number, ⟨hnumber, rfl⟩, h⟩ := h
      cases h
      exact ⟨hnumber, rfl, rfl⟩
    · intro h
      obtain ⟨hnumber, rfl, rfl⟩ := h
      exact ⟨_, ⟨hnumber, rfl⟩, rfl⟩

theorem Body.likeDefect?_key_eq_none_iff {numbering : Numbering} {number : Nat} {b : Body}
    (hformed : b.WellFormed) (hfits : b.FitsWord) (hpositive : b.expression?.isSome → 0 < number)
    (hnumber : number < UInt32.size) :
    (b.key numbering number).likeDefect? = none ↔
      ∀ digits, b = .index digits → Text.numeralValue digits ≠ 0 := by
  cases b with
  | index digits => simp [key, Key.likeDefect?, word_eq_zero_iff (hfits digits rfl)]
  | name identifier =>
    obtain ⟨c, identifier, rfl⟩ := List.exists_cons_of_ne_nil hformed.1
    have hblank := isBlank_eq_false_of_isNameChar (hformed.2 c (by simp))
    simp [key, Key.likeDefect?, Text.isBlankText, hblank]
  | expression sign source =>
    have hzero : number ≠ 0 := Nat.ne_of_gt (hpositive rfl)
    cases numbering with
    | positional => simp [key, Numbering.key, Key.likeDefect?, word_eq_zero_iff hnumber, hzero]
    | named =>
      have hunderscore : Text.isBlank '_' = false := by decide
      have hprefix : Numbering.syntheticPrefix.toList = '_' :: "_synthetic__".toList := rfl
      simp [key, Numbering.key, Key.likeDefect?, Text.isBlankText, hprefix, hunderscore]

theorem Binding.ofKey_eq_ok_iff {kind : Kind} {key : Key} {expression : Option String}
    {b : Binding} :
    Binding.ofKey kind key expression = .ok b ↔
      (∀ wildcard, kind = .like wildcard → key.likeDefect? = none) ∧
        b = { key := key, kind := kind, expression := expression } := by
  unfold Binding.ofKey
  cases kind <;> cases key.likeDefect? <;> simp [@eq_comm _ b]

theorem Placeholder.key_eq_of_literal {numbering numbering' : Numbering} {number number' : Nat}
    {p : Placeholder} (h : p.isExpression = false) :
    p.body.key numbering number = p.body.key numbering' number' := by
  unfold isExpression at h
  cases hbody : p.body with
  | index digits => rfl
  | name identifier => rfl
  | expression sign source => simp [hbody, Body.expression?] at h

theorem Placeholder.binding_eq_of_literal {numbering numbering' : Numbering} {number number' : Nat}
    {p : Placeholder} (h : p.isExpression = false) :
    p.binding numbering number = p.binding numbering' number' := by
  rw [binding, binding, key_eq_of_literal h]

/-! ## The resolution -/

theorem Resolution.replacement_eq {numbering : Numbering} {number : Nat} {p : Placeholder}
    (hnumber : number < UInt32.size) :
    replacement p p.boundKind (p.body.key numbering number) =
      (p.replacement? numbering number).getD p.decorated := by
  unfold replacement Placeholder.replacement? Placeholder.isExpression Placeholder.boundKind
  cases p.body with
  | expression sign source => exact numbering.toList_written_key hnumber
  | index digits =>
    by_cases hlike : p.isLike = true
    · simp [hlike, Body.expression?]
    · by_cases hin : p.isIn = true <;> simp [hlike, hin, Body.expression?]
  | name identifier =>
    by_cases hlike : p.isLike = true
    · simp [hlike, Body.expression?]
    · by_cases hin : p.isIn = true <;> simp [hlike, hin, Body.expression?]

theorem Resolution.ofPlaceholder_eq_ok_iff {numbering : Numbering} {last : UInt32}
    {p : Placeholder} {r : Resolution} (hformed : p.body.WellFormed) (hfits : p.body.FitsWord) :
    ofPlaceholder numbering last p = .ok r ↔
      p.Admissible ∧ last.toNat + p.isExpression.toNat < UInt32.size ∧
        r = { binding := p.binding numbering (last.toNat + p.isExpression.toNat)
              text := p.cleaned numbering (last.toNat + p.isExpression.toNat)
              last := UInt32.ofNat (last.toNat + p.isExpression.toNat) } := by
  have hpositive : p.body.expression?.isSome → 0 < last.toNat + p.isExpression.toNat := by
    intro h
    have hexpression : p.isExpression = true := h
    rw [hexpression]
    exact Nat.succ_pos _
  have hkey (h : last.toNat + p.isExpression.toNat < UInt32.size) :
      (∀ wildcard, p.boundKind = .like wildcard →
        (p.body.key numbering (last.toNat + p.isExpression.toNat)).likeDefect? = none) ↔
      (p.isLike = true → ∀ digits, p.body = .index digits → Text.numeralValue digits ≠ 0) := by
    rw [Body.likeDefect?_key_eq_none_iff hformed hfits hpositive h,
      Placeholder.isLike_iff_boundKind, forall_exists_index]
  unfold ofPlaceholder
  simp only [bind_eq_ok_iff, Prod.exists, keyOf_eq_ok_iff hfits, Placeholder.kind_eq_ok_iff,
    Binding.ofKey_eq_ok_iff]
  constructor
  · intro h
    obtain ⟨key, next, ⟨hnumber, rfl, rfl⟩, kind, ⟨hclassified, rfl⟩, b, ⟨hlike, rfl⟩, h⟩ := h
    cases h
    refine ⟨⟨hclassified, (hkey hnumber).1 hlike⟩, hnumber, ?_⟩
    rw [replacement_eq hnumber]
    rfl
  · intro h
    obtain ⟨⟨hclassified, hlike⟩, hnumber, rfl⟩ := h
    refine ⟨_, _, ⟨hnumber, rfl, rfl⟩, _, ⟨hclassified, rfl⟩, _, ⟨(hkey hnumber).2 hlike, rfl⟩, ?_⟩
    rw [replacement_eq hnumber]
    rfl

end QueryParams
