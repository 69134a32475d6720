import QueryParams.Binding.Error

/-!
# Numbering of expressions

The value of an expression placeholder is bound to a key that the query text does not give. Keys are
numbered from left to right: positions go on behind the greatest literal index, names count from
one.
-/

namespace QueryParams

/-- Whether the keys of expressions are positions or names. -/
inductive Numbering where
  | positional
  | named
  deriving DecidableEq, Repr

namespace Numbering

def syntheticPrefix : String := "__synthetic__"

def key (numbering : Numbering) (number : UInt32) : Key :=
  match numbering with
  | positional => .position number
  | named => .name (syntheticPrefix ++ toString number.toNat)

def next (last : UInt32) : Except BindingError UInt32 :=
  if last.toNat + 1 < UInt32.size then .ok (last + 1)
  else .error (.indexOutOfRange (toString last.toNat ++ "+1"))

end Numbering

end QueryParams
