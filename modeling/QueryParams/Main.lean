import QueryParams.Command.Arguments
import QueryParams.Command.Run

/-!
# The command line program

Reads the arguments, the environment and, where the query is not given, the input; prints the answer
and ends with status 0, or reports an error and ends with status 1, or with status 2 where the
arguments make no invocation.
-/

namespace QueryParams.Command

def formatVariable : String := "OXIDE_QUERY_FORMAT"

def usage : String :=
  "Usage: [-f text|json] [-v] parse [QUERY]\n" ++
  "       [-f text|json] [-v] prepare [QUERY] [--value KEY=VALUE]..."

/-- Reads all of the input; `none` if it is no text in UTF-8. -/
def readInput? : IO (Option String) := do
  return String.fromUTF8? (← (← IO.getStdin).readBinToEnd)

def Invocation.respond (invocation : Invocation) : IO UInt32 := do
  let input? ← if invocation.action.query?.isSome then pure (some "") else readInput?
  match input? with
  | none =>
    IO.eprintln ("Error: Failed to read query from stdin\n\n" ++
      "Caused by:\n    stream did not contain valid UTF-8")
    return 1
  | some input =>
    match invocation.run input with
    | .ok answer =>
      IO.print answer
      return 0
    | .error failure =>
      IO.eprintln ("Error: " ++ failure.message)
      return 1

end QueryParams.Command

def main (arguments : List String) : IO UInt32 := do
  let environment ← IO.getEnv QueryParams.Command.formatVariable
  match QueryParams.Command.Invocation.ofArguments? arguments environment with
  | some invocation => invocation.respond
  | none =>
    IO.eprintln QueryParams.Command.usage
    return 2
