import QueryParams.Binding.Basic
import QueryParams.Json.Basic

/-!
# Bindings as JSON

An object with the key under `name` or `position`, the expression if there is one, the kind, and the
wildcard of a LIKE binding, in this order.
-/

namespace QueryParams

def Key.member : Key → String × Json
  | .name identifier => ("name", .string identifier)
  | .position index => ("position", .integer index.toNat)

def Kind.members : Kind → List (String × Json)
  | .plain => [("kind", .string "plain")]
  | .like wildcard => [("kind", .string "like"), ("wildcard", .string wildcard.label)]
  | .collection => [("kind", .string "in")]

def Binding.toJson (b : Binding) : Json :=
  .object (b.key.member :: (b.expression.map fun source => ("expression", .string source)).toList ++
    b.kind.members)

end QueryParams
