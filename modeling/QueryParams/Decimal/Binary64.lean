/-!
# Binary floating-point numbers of 64 bits

The fields of a word decoded into a sign, an integer significand and a power of two, so that exact
integer arithmetic can be done on them.
-/

namespace QueryParams

/-- What a word of 64 bits stands for. A finite number is `significand * 2 ^ exponent`. -/
inductive Binary64 where
  | nan
  | infinite (negative : Bool)
  | finite (negative : Bool) (significand : Nat) (exponent : Int)
  deriving DecidableEq, Repr

namespace Binary64

def fractionBits : Nat := 52

def leastExponent : Int := -1074

def ofBits (bits : UInt64) : Binary64 :=
  let negative := bits.toNat / Nat.pow 2 63 == 1
  let biased := bits.toNat / Nat.pow 2 fractionBits % Nat.pow 2 11
  let fraction := bits.toNat % Nat.pow 2 fractionBits
  if biased = Nat.pow 2 11 - 1 then
    if fraction = 0 then infinite negative else nan
  else if biased = 0 then finite negative fraction leastExponent
  else
    finite negative (Nat.pow 2 fractionBits + fraction)
      (leastExponent + ((biased - 1 : Nat) : Int))

def ofFloat (x : Float) : Binary64 := ofBits x.toBits

end Binary64

end QueryParams
