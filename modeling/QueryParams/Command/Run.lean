import QueryParams.Binding.Preparation
import QueryParams.Command.Basic
import QueryParams.Json.Reader
import QueryParams.Query.Record
import QueryParams.Value.Record

/-!
# Running an invocation

The answer to an invocation, as a function of what is read from the input. Either the whole answer
is printed, or nothing but an error is reported.
-/

namespace QueryParams.Command

inductive Failure where
  | query (error : BindingError)
  /-- A value is given for a key that no binding of the query has. -/
  | unboundKey (key text : String)
  deriving DecidableEq, Repr

def Failure.message : Failure → String
  | query error => error.message
  | unboundKey key text => "No parameter binding for `" ++ key ++ "` in: " ++ text

/-- The number that a key consists of: digits, of which a plus may stand in front. -/
def positionOfKey? (key : List Char) : Option UInt32 :=
  let digits := (Text.takeChar '+' key).2
  if digits.isEmpty || !digits.all Char.isDigit then none
  else Text.word? (Text.numeralValue digits)

/-- The binding that a key means. Colons and question marks in front of the key do not matter; a
number is a position, anything else a name. -/
def findBinding? (query : ParsedQuery) (key : String) : Option Binding :=
  let bare := key.toList.dropWhile fun c => c == ':' || c == '?'
  match positionOfKey? bare with
  | some position => query.bindingAt? position
  | none => query.bindingNamed? (String.ofList bare)

def valueOfArgument (argument : String) : Value :=
  match Json.read? argument with
  | some json => Value.ofJson json
  | none => .text argument

structure Prepared where
  binding : Binding
  value : Value

namespace Prepared

def ofAssignment (query : ParsedQuery) (assignment : Assignment) : Except Failure Prepared :=
  match findBinding? query assignment.key with
  | some binding => .ok ⟨binding, binding.prepare (valueOfArgument assignment.value)⟩
  | none => .error (.unboundKey assignment.key query.text)

def line (p : Prepared) : String := p.binding.written ++ " = " ++ p.value.toJson.compact ++ "\n"

def toJson (p : Prepared) : Json :=
  .object [("binding", p.binding.toJson), ("value", p.value.toJson)]

end Prepared

def report (query : ParsedQuery) : String :=
  query.text ++ "\n" ++
    if query.hasBindings then
      "\nBindings:\n" ++ String.ofList (List.replicate 60 '-') ++ "\n" ++
        String.join (query.bindings.map fun binding => " " ++ binding.written ++ "\n")
    else "\nNo parameter bindings.\n"

def answer (format : Format) (query : ParsedQuery) : Action → Except Failure String
  | .parse _ =>
    match format with
    | .text => .ok (report query)
    | .json => .ok (query.toJson.indented ++ "\n")
  | .prepare _ assignments => do
    let prepared ← assignments.mapM (Prepared.ofAssignment query)
    match format with
    | .text => return String.join (prepared.map Prepared.line)
    | .json => return (Json.array (prepared.map Prepared.toJson)).indented ++ "\n"

/-- The query that an action is about. White space at the end of the input is no part of it. -/
def Action.queryText (action : Action) (input : String) : String :=
  action.query?.getD (String.ofList (Text.trimEnd input.toList))

def Invocation.run (invocation : Invocation) (input : String) : Except Failure String :=
  match ParsedQuery.parse (invocation.action.queryText input) with
  | .ok query => answer invocation.format query invocation.action
  | .error error => .error (.query error)

end QueryParams.Command
