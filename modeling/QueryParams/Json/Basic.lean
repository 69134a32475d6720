/-!
# JSON trees

A JSON document as a tree. The members of an object keep their order. A number is a whole number or
a floating-point number, and the two are kept apart.
-/

namespace QueryParams

inductive Json where
  | null
  | bool (b : Bool)
  | integer (n : Int)
  | float (x : Float)
  | string (s : String)
  | array (items : List Json)
  | object (members : List (String × Json))

namespace Json

/-- Puts a member into a list of members that ascends by names; a member with the same name is
replaced. -/
def insertMember (member : String × Json) : List (String × Json) → List (String × Json)
  | [] => [member]
  | other :: members =>
    if member.1 < other.1 then member :: other :: members
    else if member.1 = other.1 then member :: members
    else other :: insertMember member members

/-- The object with the given members in ascending order; of several members with one name the last
one counts. -/
def ofMembers (members : List (String × Json)) : Json :=
  object (members.foldl (fun sorted member => insertMember member sorted) [])

end Json

end QueryParams
