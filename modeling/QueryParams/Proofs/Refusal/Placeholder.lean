import QueryParams.Proofs.Extraction.Resolution

/-!
# Why a placeholder is refused

What is wrong with a placeholder by itself, whatever stands in front of it. The number for its
expression is asked for first, then the kind of its keyword, and at last the index of a LIKE
parameter.

Main statement: `Resolution.ofPlaceholder_eq_error_iff`.
-/

namespace QueryParams

def Keyword.isUnclassified (k : Keyword) : Bool := !(k.isLike || k.isIn)

def Body.isIndexZero (b : Body) : Bool := b.index?.any (Text.numeralValue · = 0)

def Placeholder.defect? (number : Nat) (p : Placeholder) : Option BindingError :=
  if p.isExpression && UInt32.size ≤ number then some (.indexOutOfRange "4294967295+1")
  else match p.keyword.filter Keyword.isUnclassified with
    | some k => some (.unsupportedKeyword (String.ofList k.word))
    | none => if p.isLike && p.body.isIndexZero then some (.invalidConstruction .positionZero)
      else none

theorem Body.isIndexZero_iff {b : Body} :
    b.isIndexZero = true ↔ ∃ digits, b = .index digits ∧ Text.numeralValue digits = 0 := by
  cases b <;> simp [isIndexZero, index?]

variable {numbering : Numbering} {last : UInt32} {p : Placeholder} {e : BindingError}

/-- There are three reasons for which a placeholder by itself is refused. -/
theorem Placeholder.defect?_cases {number : Nat} (h : p.defect? number = some e) :
    (p.isExpression = true ∧ UInt32.size ≤ number ∧ e = .indexOutOfRange "4294967295+1") ∨
      (∃ k ∈ p.keyword, k.isUnclassified = true ∧
        e = .unsupportedKeyword (String.ofList k.word)) ∨
      (p.isLike = true ∧ p.body.isIndexZero = true ∧ e = .invalidConstruction .positionZero) := by
  unfold defect? at h
  split at h
  · rename_i hexhausted
    rw [Bool.and_eq_true, decide_eq_true_iff] at hexhausted
    cases h
    exact Or.inl ⟨hexhausted.1, hexhausted.2, rfl⟩
  · split at h
    · rename_i k hkeyword
      obtain ⟨hmem, hunclassified⟩ := Option.filter_eq_some_iff.1 hkeyword
      cases h
      exact Or.inr (Or.inl ⟨k, hmem, hunclassified, rfl⟩)
    · split at h
      · rename_i hzero
        rw [Bool.and_eq_true] at hzero
        cases h
        exact Or.inr (Or.inr ⟨hzero.1, hzero.2, rfl⟩)
      · cases h

theorem Numbering.next_eq_error_iff :
    Numbering.next last = .error e ↔
      UInt32.size ≤ last.toNat + 1 ∧ e = .indexOutOfRange "4294967295+1" := by
  have hlast : last.toNat < UInt32.size := last.toNat_lt
  unfold Numbering.next
  by_cases hnext : last.toNat + 1 < UInt32.size
  · rw [if_pos hnext]
    simp only [reduceCtorEq, false_iff, not_and]
    omega
  · have hgreatest : last.toNat = 4294967295 := by
      have hsize : UInt32.size = 4294967296 := rfl
      omega
    have hword : toString (4294967295 : Nat) ++ "+1" = "4294967295+1" := by decide +kernel
    rw [if_neg hnext, hgreatest, hword]
    simp [@eq_comm _ e, UInt32.size]

theorem Resolution.keyOf_eq_error_iff (hfits : p.body.FitsWord) :
    keyOf numbering last p.body = .error e ↔
      p.isExpression = true ∧ UInt32.size ≤ last.toNat + p.isExpression.toNat ∧
        e = .indexOutOfRange "4294967295+1" := by
  unfold Placeholder.isExpression keyOf
  cases hbody : p.body with
  | index digits =>
    have hposition := positionOfDigits_eq_ok_iff.2 ⟨hfits digits hbody, rfl⟩
    simp [hposition, Body.expression?, pure, Except.pure, bind, Except.bind]
  | name identifier => simp [Body.expression?]
  | expression sign source =>
    simp [bind_eq_error_iff, Numbering.next_eq_error_iff, Body.expression?, pure, Except.pure]

theorem Placeholder.kind_eq_error_iff :
    p.kind = .error e ↔
      ∃ k, p.keyword.filter Keyword.isUnclassified = some k ∧
        e = .unsupportedKeyword (String.ofList k.word) := by
  unfold kind
  cases p.keyword with
  | none => simp
  | some k =>
    unfold Keyword.kind
    change (if k.isLike = true then _ else if k.isIn = true then _ else _) = _ ↔ _
    by_cases hlike : k.isLike = true
    · simp [hlike, Keyword.isUnclassified]
    · by_cases hin : k.isIn = true
      · simp [hlike, hin, Keyword.isUnclassified]
      · simp [hlike, hin, Keyword.isUnclassified, @eq_comm _ e]

theorem Binding.ofKey_eq_error_iff {kind : Kind} {key : Key} {expression : Option String} :
    Binding.ofKey kind key expression = .error e ↔
      (∃ wildcard, kind = .like wildcard) ∧
        ∃ defect, key.likeDefect? = some defect ∧ e = .invalidConstruction defect := by
  unfold Binding.ofKey
  cases kind <;> cases key.likeDefect? <;> simp [@eq_comm _ e]

/-- The index zero is all that can be wrong with the key of a placeholder. -/
theorem Body.likeDefect?_key_eq_some_iff {number : Nat} {b : Body} {defect : Defect}
    (hformed : b.WellFormed) (hfits : b.FitsWord) (hpositive : b.expression?.isSome → 0 < number)
    (hnumber : number < UInt32.size) :
    (b.key numbering number).likeDefect? = some defect ↔
      b.isIndexZero = true ∧ defect = .positionZero := by
  by_cases hzero : b.isIndexZero = true
  · cases b with
    | index digits =>
      have hvalue : Text.numeralValue digits = 0 := by simpa [isIndexZero, index?] using hzero
      simp [hzero, key, hvalue, Key.likeDefect?, @eq_comm _ defect]
    | name identifier => cases hzero
    | expression sign source => cases hzero
  · have hnone : (b.key numbering number).likeDefect? = none := by
      rw [likeDefect?_key_eq_none_iff hformed hfits hpositive hnumber]
      rintro digits rfl
      simpa [isIndexZero, index?] using hzero
    simp [hnone, hzero]

theorem Placeholder.kind_of_classified (h : p.keyword.filter Keyword.isUnclassified = none) :
    p.kind = .ok p.boundKind := by
  refine kind_eq_ok_iff.2 ⟨?_, rfl⟩
  intro k hk
  have hclassified := Option.filter_eq_none_iff.1 h k hk
  simpa [Keyword.isUnclassified, or_iff_not_imp_left] using hclassified

theorem Resolution.ofPlaceholder_eq_error_iff (hformed : p.body.WellFormed)
    (hfits : p.body.FitsWord) :
    ofPlaceholder numbering last p = .error e ↔
      p.defect? (last.toNat + p.isExpression.toNat) = some e := by
  have hlast : last.toNat < UInt32.size := last.toNat_lt
  have hpositive : p.body.expression?.isSome → 0 < last.toNat + p.isExpression.toNat := by
    intro h
    have hexpression : p.isExpression = true := h
    rw [hexpression]
    exact Nat.succ_pos _
  unfold ofPlaceholder Placeholder.defect?
  -- in the order of the checks: first the number, then the keyword, then the index zero
  by_cases hexhausted : p.isExpression = true ∧ UInt32.size ≤ last.toNat + p.isExpression.toNat
  · have hkey : keyOf numbering last p.body = .error (.indexOutOfRange "4294967295+1") :=
      (keyOf_eq_error_iff hfits).2 ⟨hexhausted.1, hexhausted.2, rfl⟩
    rw [hkey, if_pos (by simpa using hexhausted)]
    simp [bind, Except.bind]
  · have hnumber : last.toNat + p.isExpression.toNat < UInt32.size := by
      cases hexpression : p.isExpression with
      | true => simpa [hexpression] using hexhausted
      | false => exact hlast
    have hkey := (@keyOf_eq_ok_iff numbering _ _ _ _ hfits).2 ⟨hnumber, rfl, rfl⟩
    rw [hkey, if_neg (by simpa using hexhausted)]
    cases hkeyword : p.keyword.filter Keyword.isUnclassified with
    | some k =>
      have hkind := Placeholder.kind_eq_error_iff.2 ⟨k, hkeyword, rfl⟩
      simp [hkind, bind, Except.bind]
    | none =>
      have hkind := Placeholder.kind_of_classified hkeyword
      have hbinding : Binding.ofKey p.boundKind
          (p.body.key numbering (last.toNat + p.isExpression.toNat))
            (p.body.expression?.map String.ofList) = .error e ↔
          (p.isLike = true ∧ p.body.isIndexZero = true) ∧
            e = .invalidConstruction .positionZero := by
        rw [Binding.ofKey_eq_error_iff, ← Placeholder.isLike_iff_boundKind, and_assoc]
        simp only [Body.likeDefect?_key_eq_some_iff hformed hfits hpositive hnumber, and_assoc,
          exists_and_left, exists_eq_left]
      rw [hkind]
      change (Binding.ofKey _ _ _ >>= _) = _ ↔ _
      rw [bind_eq_error_iff, hbinding]
      by_cases hzero : p.isLike = true ∧ p.body.isIndexZero = true
      · simp [hzero, pure, Except.pure, @eq_comm _ e]
      · simp [hzero, pure, Except.pure]

end QueryParams
