import QueryParams.Command.Run

/-!
# The program as it prints

The program parses the query, prepares the value of one assignment after the other, and prints its
answer line by line. It ends with the first failure, and what it has printed until then stays
printed. It comes to the same as to find the whole answer first and to print it then.

Main statement: `Program.ofInvocation_eq`.
-/

namespace QueryParams.Command

/-- A program that prints, and that may fail on its way. A failure does not take back what was
printed. -/
abbrev Program := EStateM Failure String

structure Outcome where
  output : String
  failure? : Option Failure
  deriving DecidableEq, Repr

namespace Outcome

def status (outcome : Outcome) : UInt32 := if outcome.failure?.isNone then 0 else 1

def ofAnswer : Except Failure String → Outcome
  | .ok answer => ⟨answer, none⟩
  | .error failure => ⟨"", some failure⟩

theorem status_ofAnswer_eq_zero_iff {answer? : Except Failure String} :
    (ofAnswer answer?).status = 0 ↔ ∃ answer, answer? = .ok answer := by
  cases answer? <;> simp [ofAnswer, status]

end Outcome

namespace Program

/-! ## Its parts -/

def print (text : String) : Program PUnit := modify (· ++ text)

def printLine (line : String) : Program PUnit := print (line ++ "\n")

def parse (text : String) : Program ParsedQuery :=
  match ParsedQuery.parse text with
  | .ok query => pure query
  | .error error => throw (.query error)

def printReport (query : ParsedQuery) : Program PUnit := do
  printLine query.text
  if query.hasBindings then
    printLine "\nBindings:"
    printLine (String.ofList (List.replicate 60 '-'))
    forM query.bindings fun binding => printLine (" " ++ binding.written)
  else
    printLine "\nNo parameter bindings."

def prepareNext (query : ParsedQuery) (prepared : List Prepared) (assignment : Assignment) :
    Program (List Prepared) :=
  match findBinding? query assignment.key with
  | none => throw (.unboundKey assignment.key query.text)
  | some binding =>
    return prepared ++ [⟨binding, binding.prepare (valueOfArgument assignment.value)⟩]

def answerTo (format : Format) (query : ParsedQuery) : Action → Program PUnit
  | .parse _ =>
    match format with
    | .text => printReport query
    | .json => printLine query.toJson.indented
  | .prepare _ assignments => do
    let prepared ← assignments.foldlM (prepareNext query) []
    match format with
    | .text =>
      forM prepared fun p => printLine (p.binding.written ++ " = " ++ p.value.toJson.compact)
    | .json => printLine (Json.array (prepared.map Prepared.toJson)).indented

def ofInvocation (invocation : Invocation) (input : String) : Program PUnit := do
  let query ← parse (invocation.action.queryText input)
  answerTo invocation.format query invocation.action

def outcome (program : Program PUnit) : Outcome :=
  match program.run "" with
  | .ok _ printed => ⟨printed, none⟩
  | .error failure printed => ⟨printed, some failure⟩

/-! ## Parts that print nothing -/

variable {α : Type}

def quietly : Except Failure α → Program α
  | .ok a => pure a
  | .error failure => throw failure

theorem parse_eq (text : String) :
    parse text = quietly ((ParsedQuery.parse text).mapError .query) := by
  rw [parse]
  cases ParsedQuery.parse text <;> rfl

theorem prepareNext_eq (query : ParsedQuery) (prepared : List Prepared) (assignment : Assignment) :
    prepareNext query prepared assignment =
      quietly ((Prepared.ofAssignment query assignment).map (prepared ++ [·])) := by
  rw [prepareNext, Prepared.ofAssignment]
  cases findBinding? query assignment.key <;> rfl

/-- Whatever is prepared already, the loop over the assignments prints nothing. -/
theorem foldlM_prepareNext_eq (query : ParsedQuery) (prepared : List Prepared)
    (assignments : List Assignment) :
    assignments.foldlM (prepareNext query) prepared =
      quietly ((assignments.mapM (Prepared.ofAssignment query)).map (prepared ++ ·)) := by
  induction assignments generalizing prepared with
  | nil => simp [quietly, Except.map, pure, Except.pure]
  | cons assignment assignments ih =>
    rw [List.foldlM_cons, prepareNext_eq, List.mapM_cons]
    cases Prepared.ofAssignment query assignment with
    | error failure => rfl
    | ok p =>
      have hnext : quietly ((Except.ok p : Except Failure Prepared).map (prepared ++ [·])) =
          pure (prepared ++ [p]) := rfl
      rw [hnext, pure_bind, ih]
      cases assignments.mapM (Prepared.ofAssignment query) with
      | error failure => rfl
      | ok behind => simp [quietly, Except.map, bind, Except.bind, pure, Except.pure]

/-! ## Parts that print -/

@[simp] theorem print_bind_print (text text' : String) :
    (print text >>= fun _ => print text') = print (text ++ text') := by
  funext printed
  exact congrArg (EStateM.Result.ok PUnit.unit) String.append_assoc

theorem print_empty : print "" = pure ⟨⟩ := by
  funext printed
  exact congrArg (EStateM.Result.ok PUnit.unit) String.append_empty

@[simp] theorem forM_print_eq (as : List α) (text : α → String) :
    (forM as fun a => print (text a)) = print (String.join (as.map text)) := by
  induction as with
  | nil => exact print_empty.symm
  | cons a as ih => rw [List.forM_cons, ih, print_bind_print, List.map_cons, String.join_cons]

theorem printReport_eq (query : ParsedQuery) : printReport query = print (report query) := by
  rw [printReport, report]
  cases query.hasBindings with
  | false => simp [printLine, String.append_assoc]
  | true =>
    generalize String.ofList (List.replicate 60 '-') = rule
    simp [printLine, String.append_assoc]

theorem answerTo_eq (format : Format) (query : ParsedQuery) (action : Action) :
    answerTo format query action = quietly (answer format query action) >>= print := by
  cases action with
  | parse _ =>
    cases format with
    | text => exact printReport_eq query
    | json => rfl
  | prepare _ assignments =>
    rw [answerTo, answer, foldlM_prepareNext_eq]
    cases assignments.mapM (Prepared.ofAssignment query) with
    | error failure => rfl
    | ok prepared =>
      cases format with
      | text => exact forM_print_eq prepared Prepared.line
      | json => rfl

theorem ofInvocation_eq (invocation : Invocation) (input : String) :
    ofInvocation invocation input = quietly (invocation.run input) >>= print := by
  rw [ofInvocation, parse_eq, Invocation.run]
  cases ParsedQuery.parse (invocation.action.queryText input) with
  | error error => rfl
  | ok query => exact answerTo_eq invocation.format query invocation.action

/-- Nothing is printed in front of a failure. -/
theorem outcome_ofInvocation (invocation : Invocation) (input : String) :
    (ofInvocation invocation input).outcome = .ofAnswer (invocation.run input) := by
  rw [outcome, ofInvocation_eq]
  cases invocation.run input with
  | error failure => rfl
  | ok answer => exact congrArg (Outcome.mk · none) String.empty_append

end Program

end QueryParams.Command
