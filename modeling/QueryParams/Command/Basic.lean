/-!
# Invocations

What a command line asks for: the query to parse, with the values to prepare for its parameters, and
the format of the answer.
-/

namespace QueryParams.Command

inductive Format where
  | text
  | json
  deriving DecidableEq, Repr

structure Assignment where
  key : String
  value : String
  deriving DecidableEq, Repr

/-- What is done with the query. A query that is not given is read from the input. -/
inductive Action where
  | parse (query : Option String)
  | prepare (query : Option String) (assignments : List Assignment)
  deriving DecidableEq, Repr

def Action.query? : Action → Option String
  | parse query => query
  | prepare query _ => query

structure Invocation where
  format : Format
  action : Action
  deriving DecidableEq, Repr

end QueryParams.Command
