import QueryParams.Decimal.Layout

/-!
# Values

The values that are handed over for the parameters of a query, and their plain text form: text as it
is, bytes as capital hexadecimal digits, items in brackets.
-/

namespace QueryParams

inductive Value where
  | null
  | bool (b : Bool)
  | int (n : Int64)
  | float (x : Float)
  | text (s : String)
  | blob (bytes : List UInt8)
  /-- Handed over as one value. -/
  | array (items : List Value)
  /-- Handed over as a collection of values. -/
  | list (items : List Value)

namespace Value

def isNull : Value → Bool
  | null => true
  | _ => false

def isArray : Value → Bool
  | array _ => true
  | _ => false

def floatText (x : Float) : String :=
  match Binary64.ofFloat x with
  | .nan => "NaN"
  | .infinite false => "inf"
  | .infinite true => "-inf"
  | .finite negative significand exponent =>
    String.ofList (Decimal.Layout.plain.write negative significand exponent)

def byteText (b : UInt8) : List Char :=
  [(Nat.digitChar (b.toNat / 16)).toUpper, (Nat.digitChar (b.toNat % 16)).toUpper]

mutual

def plainText : Value → String
  | .null => "null"
  | .bool true => "true"
  | .bool false => "false"
  | .int n => toString n.toInt
  | .float x => floatText x
  | .text s => s
  | .blob bytes => String.ofList (bytes.flatMap byteText)
  | .array items => "[" ++ itemsText items ++ "]"
  | .list items => "[" ++ itemsText items ++ "]"

def itemsText : List Value → String
  | [] => ""
  | [item] => plainText item
  | item :: next :: items => plainText item ++ ", " ++ itemsText (next :: items)

end

end Value

end QueryParams
