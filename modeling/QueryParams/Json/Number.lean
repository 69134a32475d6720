import QueryParams.Json.Basic
import QueryParams.Text.Numeral
import QueryParams.Text.Run

/-!
# JSON numbers

A number without fraction and exponent is a whole number as long as it fits into 64 bits. Any other
one is a floating-point number: as many of its digits as fit into 64 bits, scaled by a power of ten.
The negative zero is a floating-point number too. Numbers beyond the floating-point range are
refused.
-/

namespace QueryParams.Json

structure NumberText where
  negative : Bool
  whole : List Char
  fraction : Option (List Char)
  exponent : Option Int
  deriving DecidableEq, Repr

def readDigits? (cs : List Char) : Option (List Char × List Char) :=
  match cs.takeWhile Char.isDigit with
  | [] => none
  | d :: digits => some (d :: digits, cs.dropWhile Char.isDigit)

/-- Reads the digits in front of the point; a zero in front of other digits is refused. -/
def readWhole? (cs : List Char) : Option (List Char × List Char) :=
  (readDigits? cs).filter fun r => r.1.head? != some '0' || r.1.length == 1

def readFraction? : List Char → Option (Option (List Char) × List Char)
  | '.' :: cs => (readDigits? cs).map fun r => (some r.1, r.2)
  | cs => some (none, cs)

def readSign : List Char → Bool × List Char
  | '+' :: cs => (false, cs)
  | '-' :: cs => (true, cs)
  | cs => (false, cs)

def readExponent? (cs : List Char) : Option (Option Int × List Char) :=
  match cs with
  | [] => some (none, cs)
  | c :: behind =>
    if c = 'e' ∨ c = 'E' then
      let (negative, behind) := readSign behind
      (readDigits? behind).map fun r =>
        let size : Int := Text.numeralValue r.1
        (some (if negative then -size else size), r.2)
    else some (none, cs)

def readNumberText? (cs : List Char) : Option (NumberText × List Char) := do
  let (negative, cs) := Text.takeChar '-' cs
  let (whole, cs) ← readWhole? cs
  let (fraction, cs) ← readFraction? cs
  let (exponent, cs) ← readExponent? cs
  return (⟨negative, whole, fraction, exponent⟩, cs)

/-- Appends digits to a number as long as the result fits into 64 bits; gives back the digits from
the first one on that does not fit. -/
def appendDigits (n : Nat) : List Char → Nat × List Char
  | [] => (n, [])
  | d :: digits =>
    let longer := 10 * n + (d.toNat - '0'.toNat)
    if longer < UInt64.size then appendDigits longer digits else (n, d :: digits)

def powerOfTen (n : Nat) : Float := Float.ofScientific 1 false n

def greatestPower : Nat := 308

/-- Divides by a power of ten, in steps of the greatest power. -/
def divideByPower (x : Float) (n : Nat) : Float :=
  if n ≤ greatestPower then x / powerOfTen n
  else if x == 0 then x
  else divideByPower (x / powerOfTen greatestPower) (n - greatestPower)
termination_by n
decreasing_by
  simp only [greatestPower] at *
  omega

def multiplyByPower? (x : Float) (n : Nat) : Option Float :=
  if n ≤ greatestPower then
    let product := x * powerOfTen n
    if product.isInf then none else some product
  else if x == 0 then some x
  else none

def scaled? (significand : Nat) (scale : Int) : Option Float :=
  let x := significand.toUInt64.toFloat
  if 0 ≤ scale then multiplyByPower? x scale.toNat else some (divideByPower x (-scale).toNat)

namespace NumberText

def float? (t : NumberText) : Option Float := do
  let (wholePart, beyond) := appendDigits 0 t.whole
  let fraction := t.fraction.getD []
  let (significand, ignored) := appendDigits wholePart fraction
  let places := fraction.length - ignored.length
  let x ← scaled? significand (beyond.length - places + t.exponent.getD 0)
  return if t.negative then -x else x

def integer? (t : NumberText) : Option Int :=
  match t.fraction, t.exponent with
  | none, none =>
    let n := Text.numeralValue t.whole
    if t.negative then
      if 0 < n ∧ n ≤ Nat.pow 2 63 then some (-n) else none
    else if n < UInt64.size then some n else none
  | _, _ => none

def value? (t : NumberText) : Option Json :=
  match t.integer? with
  | some n => some (.integer n)
  | none => t.float?.map .float

end NumberText

def readNumber? (cs : List Char) : Option (Json × List Char) := do
  let (text, cs) ← readNumberText? cs
  let value ← text.value?
  return (value, cs)

end QueryParams.Json
