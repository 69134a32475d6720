import QueryParams.Binding.Error
import QueryParams.Placeholder.Basic
import QueryParams.Text.Numeral

/-!
# Literal indices

An index has to fit into a word of 32 bits. The greatest index of a text is looked for everywhere in
it, inside literals and expressions too.
-/

namespace QueryParams

def positionOfDigits (digits : List Char) : Except BindingError UInt32 :=
  match Text.word? (Text.numeralValue digits) with
  | some position => .ok position
  | none => .error (.indexOutOfRange (String.ofList digits))

def Body.position (b : Body) : Except BindingError (Option UInt32) :=
  match b.index? with
  | some digits => some <$> positionOfDigits digits
  | none => .ok none

/-- The runs of digits that stand behind a question mark, from left to right. -/
def indexRuns : List Char → List (List Char)
  | [] => []
  | c :: cs =>
    match c == '?', cs.takeWhile Char.isDigit with
    | true, d :: digits => (d :: digits) :: indexRuns cs
    | _, _ => indexRuns cs

/-- The greatest index in a text, if it has any; fails at the first one that is too great. -/
def greatestIndex (text : List Char) : Except BindingError (Option UInt32) := do
  let positions ← (indexRuns text).mapM positionOfDigits
  return positions.max?

end QueryParams
