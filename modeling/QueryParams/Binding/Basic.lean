import QueryParams.Binding.Wildcard

/-!
# Bindings

A binding describes one parameter of a query: the key by which the query refers to it, the way its
value is handed over, and the source of the expression that computes the value, if there is one. Its
written form is a placeholder with its keyword.
-/

namespace QueryParams

/-- How the value of a parameter is handed over. -/
inductive Kind where
  /-- As it is. -/
  | plain
  /-- As a pattern for LIKE. -/
  | like (wildcard : Wildcard)
  /-- As a collection for IN. -/
  | collection
  deriving DecidableEq, Repr

inductive Key where
  | name (identifier : String)
  | position (index : UInt32)
  deriving DecidableEq, Repr

def Key.written : Key → String
  | name identifier => ":" ++ identifier
  | position index => "?" ++ toString index.toNat

structure Binding where
  key : Key
  kind : Kind := .plain
  expression : Option String := none
  deriving DecidableEq, Repr

namespace Binding

def name? (b : Binding) : Option String :=
  match b.key with
  | .name identifier => some identifier
  | .position _ => none

def position? (b : Binding) : Option UInt32 :=
  match b.key with
  | .name _ => none
  | .position index => some index

def hasName (b : Binding) (name : String) : Bool := b.name? == some name

def hasPosition (b : Binding) (position : UInt32) : Bool := b.position? == some position

def wildcard? (b : Binding) : Option Wildcard :=
  match b.kind with
  | .like wildcard => some wildcard
  | .plain | .collection => none

def isExpression (b : Binding) : Bool := b.expression.isSome

/-- The binding as it is written in a query, and the source of its expression behind it. -/
def written (b : Binding) : String :=
  let placeholder :=
    match b.kind with
    | .plain => b.key.written
    | .collection => "in " ++ b.key.written
    | .like wildcard => "like " ++ wildcard.surround b.key.written
  match b.expression with
  | none => placeholder
  | some source => placeholder ++ " (expression: " ++ source ++ ")"

end Binding

end QueryParams
