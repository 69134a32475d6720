import QueryParams.Json.Basic
import QueryParams.Json.Printer
import QueryParams.Value.Basic

/-!
# Values and JSON

A value becomes JSON without a trace of its variant: bytes become an array of numbers, and array and
list look alike. JSON becomes a value with whole numbers as far as they fit, arrays as arrays, and
objects as the text of their JSON.
-/

namespace QueryParams.Value

mutual

def toJson : Value → Json
  | .null => .null
  | .bool b => .bool b
  | .int n => .integer n.toInt
  | .float x => .float x
  | .text s => .string s
  | .blob bytes => .array (bytes.map fun b => .integer b.toNat)
  | .array items => .array (itemsToJson items)
  | .list items => .array (itemsToJson items)

def itemsToJson : List Value → List Json
  | [] => []
  | item :: items => toJson item :: itemsToJson items

end

/-- The value of a whole number, which is a floating-point number if it does not fit. -/
def ofInteger (n : Int) : Value :=
  if Int64.minValue.toInt ≤ n ∧ n ≤ Int64.maxValue.toInt then int (Int64.ofInt n)
  else float n.toNat.toUInt64.toFloat

mutual

def ofJson : Json → Value
  | .null => .null
  | .bool b => .bool b
  | .integer n => ofInteger n
  | .float x => .float x
  | .string s => .text s
  | .array items => .array (itemsOfJson items)
  | .object members => .text (Json.object members).compact

def itemsOfJson : List Json → List Value
  | [] => []
  | item :: items => ofJson item :: itemsOfJson items

end

end QueryParams.Value
