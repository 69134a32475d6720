import QueryParams.Json.Number
import QueryParams.Json.Quoted

/-!
# Reading JSON

A text is read from left to right; each function takes what it reads off the front and gives back
the rest. Arrays and objects may be nested to a given depth.
-/

namespace QueryParams.Json

/-- Takes something off the front of a text, if it can be read. -/
abbrev Reader (α : Type) := List Char → Option (α × List Char)

def isSpace (c : Char) : Bool := c == ' ' || c == '\t' || c == '\n' || c == '\r'

def skipSpace (cs : List Char) : List Char := cs.dropWhile isSpace

def afterWord? (word cs : List Char) : Option (List Char) :=
  if word.isPrefixOf cs then some (cs.drop word.length) else none

/-- Reads items, each behind a comma, up to the closing bracket. As every item takes at least its
comma, no more rounds are needed than there are characters. -/
def readFurther? {α : Type} (item : Reader α) (closing : Char) : Nat → Reader (List α)
  | 0, _ => none
  | rounds + 1, cs =>
    match skipSpace cs with
    | [] => none
    | c :: cs =>
      if c = closing then some ([], cs)
      else if c = ',' then do
        let (first, cs) ← item cs
        let (others, cs) ← readFurther? item closing rounds cs
        return (first :: others, cs)
      else none

def readItems? {α : Type} (item : Reader α) (closing : Char) : Reader (List α) := fun cs =>
  match skipSpace cs with
  | [] => none
  | c :: behind =>
    if c = closing then some ([], behind)
    else do
      let (first, cs) ← item cs
      let (others, cs) ← readFurther? item closing cs.length cs
      return (first :: others, cs)

def readMember? (value : Reader Json) : Reader (String × Json) := fun cs =>
  match skipSpace cs with
  | '"' :: cs => do
    let (name, cs) ← readQuoted? cs
    match skipSpace cs with
    | ':' :: cs =>
      let (member, cs) ← value cs
      return ((String.ofList name, member), cs)
    | _ => none
  | _ => none

/-- Reads a value. Values inside of brackets are read by `inner`; without it no bracket is read. -/
def readWith? (inner : Option (Reader Json)) : Reader Json := fun cs =>
  match skipSpace cs with
  | '[' :: cs => do
    let (items, cs) ← readItems? (← inner) ']' cs
    return (array items, cs)
  | '\x7b' :: cs => do
    let (members, cs) ← readItems? (readMember? (← inner)) '\x7d' cs
    return (ofMembers members, cs)
  | '"' :: cs => do
    let (content, cs) ← readQuoted? cs
    return (string (String.ofList content), cs)
  | 'n' :: cs => (afterWord? ['u', 'l', 'l'] cs).map fun cs => (null, cs)
  | 't' :: cs => (afterWord? ['r', 'u', 'e'] cs).map fun cs => (bool true, cs)
  | 'f' :: cs => (afterWord? ['a', 'l', 's', 'e'] cs).map fun cs => (bool false, cs)
  | cs => readNumber? cs

/-- Reads a value in which brackets are nested to a depth of `depth` at most. -/
def readNested? : Nat → Reader Json
  | 0 => readWith? none
  | depth + 1 => readWith? (some (readNested? depth))

def greatestDepth : Nat := 127

def read? (text : String) : Option Json :=
  match readNested? greatestDepth text.toList with
  | some (value, rest) => if (skipSpace rest).isEmpty then some value else none
  | none => none

end QueryParams.Json
