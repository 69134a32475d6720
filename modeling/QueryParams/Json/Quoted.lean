/-!
# JSON strings

The quotation mark, the backslash and the control characters below U+0020 are escaped when a string
is written. When one is read, any character may be escaped by its UTF-16 units; a unit of a
surrogate pair without the other one is refused, and so is a bare control character.
-/

namespace QueryParams.Json

def hexDigit (n : Nat) : Char := Nat.digitChar n

def hexValue? (c : Char) : Option Nat :=
  if '0' ≤ c ∧ c ≤ '9' then some (c.toNat - '0'.toNat)
  else if 'a' ≤ c ∧ c ≤ 'f' then some (c.toNat - 'a'.toNat + 10)
  else if 'A' ≤ c ∧ c ≤ 'F' then some (c.toNat - 'A'.toNat + 10)
  else none

def escape (c : Char) : List Char :=
  if c = '"' then ['\\', '"']
  else if c = '\\' then ['\\', '\\']
  else if c = '\x08' then ['\\', 'b']
  else if c = '\x0c' then ['\\', 'f']
  else if c = '\n' then ['\\', 'n']
  else if c = '\r' then ['\\', 'r']
  else if c = '\t' then ['\\', 't']
  else if c.toNat < 0x20 then
    ['\\', 'u', '0', '0', hexDigit (c.toNat / 16), hexDigit (c.toNat % 16)]
  else [c]

def quote (cs : List Char) : List Char := '"' :: cs.flatMap escape ++ ['"']

/-- Reads the four digits of a UTF-16 unit. -/
def readUnit? : List Char → Option (Nat × List Char)
  | a :: b :: c :: d :: cs => do
    let a ← hexValue? a
    let b ← hexValue? b
    let c ← hexValue? c
    let d ← hexValue? d
    return (((a * 16 + b) * 16 + c) * 16 + d, cs)
  | _ => none

def isLeadingUnit (unit : Nat) : Bool := 0xD800 ≤ unit && unit < 0xDC00

def isTrailingUnit (unit : Nat) : Bool := 0xDC00 ≤ unit && unit < 0xE000

/-- The character outside of the basic plane that a surrogate pair stands for. -/
def ofSurrogates (leading trailing : Nat) : Char :=
  Char.ofNat (0x10000 + (leading - 0xD800) * 0x400 + (trailing - 0xDC00))

def readUnits? (cs : List Char) : Option (Char × List Char) := do
  let (unit, cs) ← readUnit? cs
  if isLeadingUnit unit then
    match cs with
    | '\\' :: 'u' :: cs =>
      let (second, cs) ← readUnit? cs
      if isTrailingUnit second then some (ofSurrogates unit second, cs) else none
    | _ => none
  else if isTrailingUnit unit then none
  else some (Char.ofNat unit, cs)

def readChar? : List Char → Option (Char × List Char)
  | [] => none
  | '\\' :: cs =>
    match cs with
    | '"' :: cs => some ('"', cs)
    | '\\' :: cs => some ('\\', cs)
    | '/' :: cs => some ('/', cs)
    | 'b' :: cs => some ('\x08', cs)
    | 'f' :: cs => some ('\x0c', cs)
    | 'n' :: cs => some ('\n', cs)
    | 'r' :: cs => some ('\r', cs)
    | 't' :: cs => some ('\t', cs)
    | 'u' :: cs => readUnits? cs
    | _ => none
  | c :: cs => if c.toNat < 0x20 then none else some (c, cs)

theorem length_lt_of_readUnit? {cs rest : List Char} {unit : Nat}
    (h : readUnit? cs = some (unit, rest)) : rest.length < cs.length := by
  unfold readUnit? at h
  split at h
  · simp only [Option.bind_eq_bind, Option.bind_eq_some_iff, Option.pure_def, Option.some.injEq,
      Prod.mk.injEq] at h
    obtain ⟨_, _, _, _, _, _, _, _, _, rfl⟩ := h
    simp only [List.length_cons]
    omega
  · cases h

theorem length_lt_of_readUnits? {cs rest : List Char} {c : Char}
    (h : readUnits? cs = some (c, rest)) : rest.length < cs.length := by
  unfold readUnits? at h
  simp only [Option.bind_eq_bind, Option.bind_eq_some_iff] at h
  obtain ⟨⟨unit, behind⟩, hunit, h⟩ := h
  have hlt := length_lt_of_readUnit? hunit
  simp only at h
  split at h
  · split at h
    · obtain ⟨⟨second, last⟩, hsecond, h⟩ := Option.bind_eq_some_iff.1 h
      have hlt' := length_lt_of_readUnit? hsecond
      obtain ⟨_, h⟩ := Option.ite_none_right_eq_some.1 h
      obtain ⟨_, rfl⟩ := Prod.mk.inj (Option.some.inj h)
      simp only [List.length_cons] at hlt ⊢
      omega
    · cases h
  · obtain ⟨_, h⟩ := Option.ite_none_left_eq_some.1 h
    obtain ⟨_, rfl⟩ := Prod.mk.inj (Option.some.inj h)
    exact hlt

theorem length_lt_of_readChar? {cs rest : List Char} {c : Char}
    (h : readChar? cs = some (c, rest)) : rest.length < cs.length := by
  unfold readChar? at h
  split at h
  · cases h
  · split at h
    case h_9 =>
      have := length_lt_of_readUnits? h
      simp only [List.length_cons]
      omega
    all_goals
      cases h
      try simp only [List.length_cons]
      try omega
  · split at h
    · cases h
    · cases h
      simp

def readQuoted? (cs : List Char) : Option (List Char × List Char) :=
  if cs.head? = some '"' then some ([], cs.tail)
  else
    match _h : readChar? cs with
    | none => none
    | some (c, rest) => (readQuoted? rest).map fun r => (c :: r.1, r.2)
termination_by cs.length
decreasing_by exact length_lt_of_readChar? (by assumption)

end QueryParams.Json
