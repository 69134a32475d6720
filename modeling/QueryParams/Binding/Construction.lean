import QueryParams.Binding.Error
import QueryParams.Text.Blank

/-!
# Making bindings

A binding has a name or a position, not both. A LIKE binding has a position above zero or a name
that is not blank; other kinds take any key.
-/

namespace QueryParams

namespace Key

def ofParts : Option String → Option UInt32 → Except Defect Key
  | some identifier, none => .ok (.name identifier)
  | none, some index => .ok (.position index)
  | none, none => .error .keyMissing
  | some identifier, some index => .error (.twoKeys identifier index)

def likeDefect? : Key → Option Defect
  | .position index => if index = 0 then some .positionZero else none
  | .name identifier => if Text.isBlankText identifier.toList then some .nameBlank else none

end Key

namespace Binding

def ofKey (kind : Kind) (key : Key) (expression : Option String) : Except BindingError Binding :=
  match kind, key.likeDefect? with
  | .like _, some defect => .error (.invalidConstruction defect)
  | _, _ => .ok { key := key, kind := kind, expression := expression }

def ofParts (kind : Kind) (name : Option String) (position : Option UInt32)
    (expression : Option String) : Except BindingError Binding :=
  match Key.ofParts name position with
  | .ok key => ofKey kind key expression
  | .error defect => .error (.invalidConstruction defect)

def named (name : String) : Binding := { key := .name name }

def positional (position : UInt32) : Binding := { key := .position position }

def collectionNamed (name : String) : Binding := { key := .name name, kind := .collection }

def collectionPositional (position : UInt32) : Binding :=
  { key := .position position, kind := .collection }

def likeNamed (name : String) (wildcard : Wildcard) : Except BindingError Binding :=
  ofKey (.like wildcard) (.name name) none

def likePositional (position : UInt32) (wildcard : Wildcard) : Except BindingError Binding :=
  ofKey (.like wildcard) (.position position) none

def withExpression (b : Binding) (source : String) : Binding := { b with expression := some source }

def requiredName (b : Binding) : Except BindingError String :=
  match b.name? with
  | some name => .ok name
  | none => .error (.missingName b)

def requiredPosition (b : Binding) : Except BindingError UInt32 :=
  match b.position? with
  | some position => .ok position
  | none => .error (.missingPosition b)

end Binding

end QueryParams
