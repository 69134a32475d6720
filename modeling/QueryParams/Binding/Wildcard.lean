/-!
# Wildcards

How a LIKE parameter surrounds its value with `%`. The decoration of a placeholder says which of the
four ways is meant.
-/

namespace QueryParams

/-- On which sides of a value a LIKE pattern is open. -/
inductive Wildcard where
  /-- Written `like %:x%`. -/
  | containing
  /-- Written `like :x%`. -/
  | startingWith
  /-- Written `like %:x`. -/
  | endingWith
  /-- Written `like :x`. -/
  | exact
  deriving DecidableEq, Repr

namespace Wildcard

def ofSides (leading trailing : Bool) : Wildcard :=
  match leading, trailing with
  | true, true => containing
  | true, false => endingWith
  | false, true => startingWith
  | false, false => exact

/-- The wildcard that a decorated placeholder stands for. A lone `%` counts as the leading one. -/
def ofDecorated (decorated : List Char) : Wildcard :=
  ofSides (decorated.head? == some '%')
    (1 < decorated.length && decorated.getLast? == some '%')

def surround (w : Wildcard) (text : String) : String :=
  match w with
  | containing => "%" ++ text ++ "%"
  | startingWith => text ++ "%"
  | endingWith => "%" ++ text
  | exact => text

def label : Wildcard → String
  | containing => "CONTAINING"
  | startingWith => "STARTING_WITH"
  | endingWith => "ENDING_WITH"
  | exact => "LIKE"

end Wildcard

end QueryParams
