import QueryParams.Decimal.Layout
import QueryParams.Json.Basic
import QueryParams.Json.Quoted

/-!
# Writing JSON

One printer writes both styles: everything on one line without blanks, or each item on a line of its
own. A floating-point number that is not finite is written as null.
-/

namespace QueryParams.Json

structure Style where
  /-- What stands in front of an item and of the closing bracket, by the number of open brackets. -/
  lineBreak : Nat → List Char
  /-- What stands behind the colon of a member. -/
  afterColon : List Char

def Style.compact : Style where
  lineBreak := fun _ => []
  afterColon := []

/-- An item a line, indented by two blanks for each open bracket. -/
def Style.indented : Style where
  lineBreak := fun depth => '\n' :: List.replicate (2 * depth) ' '
  afterColon := [' ']

def writeInteger (n : Int) : List Char :=
  if n < 0 then '-' :: Text.numeral n.natAbs else Text.numeral n.natAbs

def writeFloat (x : Float) : List Char :=
  match Binary64.ofFloat x with
  | .finite negative significand exponent => Decimal.Layout.data.write negative significand exponent
  | .infinite _ | .nan => ['n', 'u', 'l', 'l']

mutual

/-- A value as text, with `depth` brackets open around it. -/
def write (style : Style) (depth : Nat) : Json → List Char
  | .null => ['n', 'u', 'l', 'l']
  | .bool true => ['t', 'r', 'u', 'e']
  | .bool false => ['f', 'a', 'l', 's', 'e']
  | .integer n => writeInteger n
  | .float x => writeFloat x
  | .string s => quote s.toList
  | .array [] => ['[', ']']
  | .array (item :: items) =>
    '[' :: style.lineBreak (depth + 1) ++ write style (depth + 1) item ++
      writeItems style (depth + 1) items ++ style.lineBreak depth ++ [']']
  | .object [] => ['\x7b', '\x7d']
  | .object (member :: members) =>
    '\x7b' :: style.lineBreak (depth + 1) ++ writeMember style (depth + 1) member ++
      writeMembers style (depth + 1) members ++ style.lineBreak depth ++ ['\x7d']

def writeItems (style : Style) (depth : Nat) : List Json → List Char
  | [] => []
  | item :: items =>
    ',' :: style.lineBreak depth ++ write style depth item ++ writeItems style depth items

def writeMember (style : Style) (depth : Nat) : String × Json → List Char
  | (name, value) => quote name.toList ++ ':' :: style.afterColon ++ write style depth value

def writeMembers (style : Style) (depth : Nat) : List (String × Json) → List Char
  | [] => []
  | member :: members =>
    ',' :: style.lineBreak depth ++ writeMember style depth member ++
      writeMembers style depth members

end

def compact (j : Json) : String := String.ofList (write .compact 0 j)

def indented (j : Json) : String := String.ofList (write .indented 0 j)

end QueryParams.Json
