import QueryParams.Binding.Basic

/-!
# Errors

What can be wrong with a query text or with a binding, and how it is reported.
-/

namespace QueryParams

inductive Defect where
  | keyMissing
  | twoKeys (name : String) (position : UInt32)
  | positionZero
  | nameBlank
  deriving DecidableEq, Repr

def Defect.message : Defect → String
  | keyMissing => "name or position must be set"
  | twoKeys name position =>
    "name " ++ name ++ " and position " ++ toString position.toNat ++ " are mutually exclusive"
  | positionZero => "position must be greater than zero"
  | nameBlank => "name must not be empty"

/-- Why a query or a binding is refused. -/
inductive BindingError where
  /-- The query holds nothing but blanks. -/
  | emptyQuery
  /-- A literal is opened at the offset `start` and never closed. -/
  | malformedQuotation (query : String) (start : Nat)
  /-- The keyword in front of a placeholder stands for no kind of binding. -/
  | unsupportedKeyword (word : String)
  /-- Two placeholders with one key stand for different bindings. -/
  | conflictingBinding (existing found : Binding)
  /-- The attributes make no binding. -/
  | invalidConstruction (defect : Defect)
  /-- An index is too great; the text is the index as written. -/
  | indexOutOfRange (index : String)
  /-- A name is asked of a binding that has a position. -/
  | missingName (binding : Binding)
  /-- A position is asked of a binding that has a name. -/
  | missingPosition (binding : Binding)
  deriving DecidableEq, Repr

def BindingError.message : BindingError → String
  | emptyQuery => "Query must not be empty"
  | malformedQuotation query start =>
    "The string <" ++ query ++ "> starts a quoted range at " ++ toString start ++
      ", but never ends it"
  | unsupportedKeyword word => "Unsupported parameter binding type " ++ word
  | conflictingBinding existing found =>
    "Already found parameter binding with same index / parameter name " ++
      "but differing binding type! " ++
      "Already have: " ++ existing.written ++ ", found " ++ found.written ++ "! " ++
      "If you bind a parameter multiple times make sure they use the same binding"
  | invalidConstruction defect => "Invalid parameter binding: " ++ defect.message
  | indexOutOfRange index => "Parameter index " ++ index ++ " is out of range"
  | missingName binding => "Required name for " ++ binding.written ++ " not available"
  | missingPosition binding => "Required position for " ++ binding.written ++ " not available"

end QueryParams
