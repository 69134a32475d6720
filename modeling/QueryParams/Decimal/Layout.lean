import QueryParams.Decimal.Shortest

/-!
# Layout of decimals

How the digits of a number are set out: positionally, or with the exponent of the first digit behind
an `e`. A layout collects the decisions of one output format.
-/

namespace QueryParams.Decimal

structure Layout where
  /-- The exponents of the first digit with which a number is written positionally. -/
  isPositional : Int → Bool
  /-- What is written behind a whole number. -/
  behindWhole : List Char
  /-- Which of two equally near decimals is taken. -/
  tie : Tie

namespace Layout

/-- All digits, no exponent, no point behind a whole number; ties go up. -/
def plain : Layout where
  isPositional := fun _ => true
  behindWhole := []
  tie := .upward

/-- Positional from a hundred-thousandth up to sixteen digits, with `.0` behind a whole number; ties
go to the even neighbour. -/
def data : Layout where
  isPositional := fun exponent => -5 ≤ exponent && exponent ≤ 15
  behindWhole := ['.', '0']
  tie := .toEven

def positional (layout : Layout) (digits : List Char) (scale : Int) : List Char :=
  if 0 ≤ scale then digits ++ List.replicate scale.toNat '0' ++ layout.behindWhole
  else
    let places := (-scale).toNat
    let padded := List.replicate (places + 1 - digits.length) '0' ++ digits
    padded.take (padded.length - places) ++ '.' :: padded.drop (padded.length - places)

def scientific (digits : List Char) (exponent : Int) : List Char :=
  let mantissa :=
    match digits with
    | first :: second :: others => first :: '.' :: second :: others
    | _ => digits
  mantissa ++ 'e' :: (if exponent < 0 then '-' else '+') :: Text.numeral exponent.natAbs

def write (layout : Layout) (negative : Bool) (significand : Nat) (exponent : Int) : List Char :=
  let sign := if negative then ['-'] else []
  if significand = 0 then sign ++ layout.positional ['0'] 0
  else
    let decimal := shortest layout.tie significand exponent
    let digits := Text.numeral decimal.digits
    let leading := decimal.scale + digits.length - 1
    sign ++
      if layout.isPositional leading then layout.positional digits decimal.scale
      else scientific digits leading

end Layout

end QueryParams.Decimal
