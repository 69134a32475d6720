import QueryParams.Binding.Construction
import QueryParams.Extraction.Numbering
import QueryParams.Placeholder.Index
import QueryParams.Text.Search

/-!
# Resolution of a placeholder

The binding that a placeholder stands for, and what is written in its place. A literal index or name
is the key of its binding; an expression gets the key with the next number. LIKE and expression
placeholders lose their decoration, all others stay as they are.
-/

namespace QueryParams

/-- The kind of binding that a keyword asks for. Only ASCII spellings are known, although a case
variant outside of ASCII is read as a keyword. -/
def Keyword.kind (k : Keyword) (wildcard : Wildcard) : Except BindingError Kind :=
  if Text.equalIgnoringCase k.word ['l', 'i', 'k', 'e'] then .ok (.like wildcard)
  else if Text.equalIgnoringCase k.word ['i', 'n'] then .ok .collection
  else .error (.unsupportedKeyword (String.ofList k.word))

def Placeholder.kind (p : Placeholder) : Except BindingError Kind :=
  match p.keyword with
  | none => .ok .plain
  | some keyword => keyword.kind (Wildcard.ofDecorated p.decorated)

structure Resolution where
  /-- The binding that it stands for. -/
  binding : Binding
  /-- The whole placeholder as it is written in the cleaned text. -/
  text : List Char
  /-- The last number that was given to an expression. -/
  last : UInt32
  deriving DecidableEq, Repr

namespace Resolution

/-- The key of a body, and the last number given to an expression. -/
def keyOf (numbering : Numbering) (last : UInt32) : Body → Except BindingError (Key × UInt32)
  | .index digits => do
    let position ← positionOfDigits digits
    return (.position position, last)
  | .name identifier => .ok (.name (String.ofList identifier), last)
  | .expression _ _ => do
    let number ← Numbering.next last
    return (numbering.key number, number)

def replacement (p : Placeholder) (kind : Kind) (key : Key) : List Char :=
  match p.body, kind with
  | .expression _ _, _ => key.written.toList
  | body, .like _ => body.text
  | _, _ => p.decorated

def ofPlaceholder (numbering : Numbering) (last : UInt32) (p : Placeholder) :
    Except BindingError Resolution := do
  let (key, last) ← keyOf numbering last p.body
  let kind ← p.kind
  let binding ← Binding.ofKey kind key (p.body.expression?.map String.ofList)
  return ⟨binding, p.front ++ replacement p kind key ++ p.back, last⟩

end Resolution

end QueryParams
