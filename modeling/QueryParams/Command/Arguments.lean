import QueryParams.Command.Basic
import QueryParams.Text.Blank

/-!
# Reading the command line

    [-f FORMAT] [-v] parse [QUERY]
    [-f FORMAT] [-v] prepare [QUERY] [--value KEY=VALUE]...

The options of the program stand in front of the subcommand and are given once at most; those of
`prepare` stand anywhere behind it. A format that is not given is taken from the environment. Behind
`--` nothing is an option. Any other line is refused.
-/

namespace QueryParams.Command

def Format.ofName? : List Char → Option Format
  | ['t', 'e', 'x', 't'] => some .text
  | ['j', 's', 'o', 'n'] => some .json
  | _ => none

/-- Reads `KEY=VALUE`. The key ends at the first equals sign, and blanks around it do not matter. -/
def Assignment.ofArgument? (argument : List Char) : Option Assignment :=
  match argument.dropWhile (· != '=') with
  | [] => none
  | _ :: value =>
    some ⟨String.ofList (Text.trim (argument.takeWhile (· != '='))), String.ofList value⟩

/-- Whether an argument is an option. A lone hyphen is none. -/
def isOption : List Char → Bool
  | '-' :: _ :: _ => true
  | _ => false

structure Options where
  format : Option Format := none
  verbose : Bool := false
  deriving DecidableEq, Repr

namespace Options

def addFormat? (o : Options) (name : List Char) : Option Options :=
  match o.format with
  | some _ => none
  | none => (Format.ofName? name).map fun format => { o with format := some format }

/-- Takes the wish for more messages, which must not be given yet. It has no influence on the
answer. -/
def addVerbose? (o : Options) : Option Options :=
  if o.verbose then none else some { o with verbose := true }

/-- Reads the letters of an argument with one hyphen. The format follows its letter, with or without
an equals sign between them, or is the next argument. -/
def readLetters? (o : Options) (arguments : List (List Char)) :
    List Char → Option (Options × List (List Char))
  | [] => some (o, arguments)
  | 'v' :: letters => (o.addVerbose?).bind fun o => readLetters? o arguments letters
  | ['f'] =>
    match arguments with
    | name :: arguments => (o.addFormat? name).map fun o => (o, arguments)
    | [] => none
  | 'f' :: '=' :: name => (o.addFormat? name).map fun o => (o, arguments)
  | 'f' :: name => (o.addFormat? name).map fun o => (o, arguments)
  | _ => none

def formatOption : List Char := ['-', '-', 'f', 'o', 'r', 'm', 'a', 't']

def verboseOption : List Char := ['-', '-', 'v', 'e', 'r', 'b', 'o', 's', 'e']

def readOption? (o : Options) (argument : List Char) (arguments : List (List Char)) :
    Option (Options × List (List Char)) :=
  if argument = formatOption then readLetters? o arguments ['f']
  else if (formatOption ++ ['=']).isPrefixOf argument then
    (o.addFormat? (argument.drop (formatOption.length + 1))).map fun o => (o, arguments)
  else if argument = verboseOption then (o.addVerbose?).map fun o => (o, arguments)
  else
    match argument with
    | '-' :: '-' :: _ => none
    | '-' :: letters => readLetters? o arguments letters
    | _ => none

theorem length_le_of_readLetters? {o o' : Options} {arguments rest : List (List Char)}
    {letters : List Char} (h : readLetters? o arguments letters = some (o', rest)) :
    rest.length ≤ arguments.length := by
  fun_induction readLetters? o arguments letters with
  | case1 => cases h; exact Nat.le_refl _
  | case2 o letters ih =>
    obtain ⟨o₁, _, h⟩ := Option.bind_eq_some_iff.1 h
    exact ih o₁ h
  | case3 o name behind heq =>
    obtain ⟨_, _, h⟩ := Option.map_eq_some_iff.1 h
    cases h
    simp [heq]
  | case4 => cases h
  | case5 | case6 =>
    obtain ⟨_, _, h⟩ := Option.map_eq_some_iff.1 h
    cases h
    exact Nat.le_refl _
  | case7 => cases h

theorem length_le_of_readOption? {o o' : Options} {argument : List Char}
    {arguments rest : List (List Char)} (h : readOption? o argument arguments = some (o', rest)) :
    rest.length ≤ arguments.length := by
  unfold readOption? at h
  split at h
  · exact length_le_of_readLetters? h
  · split at h
    · obtain ⟨_, _, h⟩ := Option.map_eq_some_iff.1 h
      cases h
      exact Nat.le_refl _
    · split at h
      · obtain ⟨_, _, h⟩ := Option.map_eq_some_iff.1 h
        cases h
        exact Nat.le_refl _
      · split at h
        · cases h
        · exact length_le_of_readLetters? h
        · cases h

def read? (o : Options) : List (List Char) → Option (Options × List (List Char))
  | [] => some (o, [])
  | argument :: arguments =>
    if isOption argument then
      match _h : o.readOption? argument arguments with
      | some (o, arguments) => read? o arguments
      | none => none
    else some (o, argument :: arguments)
termination_by arguments => arguments.length
decreasing_by
  have := length_le_of_readOption? (by assumption)
  simp only [List.length_cons]
  omega

end Options

structure Operands where
  query : Option String := none
  assignments : List Assignment := []
  deriving DecidableEq, Repr

namespace Operands

def addQuery? (o : Operands) (argument : List Char) : Option Operands :=
  match o.query with
  | some _ => none
  | none => some { o with query := some (String.ofList argument) }

def addAssignment? (o : Operands) (argument : List Char) : Option Operands :=
  (Assignment.ofArgument? argument).map fun assignment =>
    { o with assignments := o.assignments ++ [assignment] }

/-- The argument behind which nothing is an option. -/
def endOfOptions : List Char := ['-', '-']

def valueOption : List Char := ['-', '-', 'v', 'a', 'l', 'u', 'e']

def readOne? (o : Operands) (takesValues : Bool) (argument : List Char) : Option Operands :=
  if takesValues && (valueOption ++ ['=']).isPrefixOf argument then
    o.addAssignment? (argument.drop (valueOption.length + 1))
  else if isOption argument then none
  else o.addQuery? argument

def read? (takesValues : Bool) (o : Operands) : List (List Char) → Option Operands
  | [] => some o
  | [argument] => if argument = endOfOptions then some o else o.readOne? takesValues argument
  | argument :: next :: arguments =>
    if argument = endOfOptions then (next :: arguments).foldlM addQuery? o
    else if takesValues && argument == valueOption then
      if isOption next then none
      else (o.addAssignment? next).bind fun o => read? takesValues o arguments
    else (o.readOne? takesValues argument).bind fun o => read? takesValues o (next :: arguments)

end Operands

namespace Invocation

def readAction? : List (List Char) → Option Action
  | ['p', 'a', 'r', 's', 'e'] :: arguments =>
    (Operands.read? false {} arguments).map fun o => .parse o.query
  | ['p', 'r', 'e', 'p', 'a', 'r', 'e'] :: arguments =>
    (Operands.read? true {} arguments).map fun o => .prepare o.query o.assignments
  | _ => none

def ofArguments? (arguments : List String) (environment : Option String) : Option Invocation := do
  let (options, arguments) ← Options.read? {} (arguments.map String.toList)
  let action ← readAction? arguments
  match options.format, environment with
  | some format, _ => return ⟨format, action⟩
  | none, some name => return ⟨← Format.ofName? name.toList, action⟩
  | none, none => return ⟨.text, action⟩

end Invocation

end QueryParams.Command
