import QueryParams.Binding.Basic
import QueryParams.Value.Basic

/-!
# Preparing values

What a binding makes of the value that is given for its parameter.
-/

namespace QueryParams

/-- Prepares a value for a kind of binding. LIKE surrounds the text of the value with `%`, unless
the pattern is exact; IN spreads an array into a collection; null and all else stay as they are. -/
def Kind.prepare : Kind → Value → Value
  | _, .null => .null
  | .like .exact, value => value
  | .like wildcard, value => .text (wildcard.surround value.plainText)
  | .collection, .array items => .list items
  | _, value => value

def Binding.prepare (b : Binding) (value : Value) : Value := b.kind.prepare value

end QueryParams
