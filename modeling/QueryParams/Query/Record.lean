import QueryParams.Binding.Record
import QueryParams.Query

/-!
# Queries and spans as JSON
-/

namespace QueryParams

def Span.toJson (s : Span) : Json := .object [("start", .integer s.start), ("end", .integer s.stop)]

def ParsedQuery.toJson (q : ParsedQuery) : Json :=
  .object [
    ("query", .string q.text),
    ("bindings", .array (q.bindings.map Binding.toJson)),
    ("uses_paging", .bool q.usesPaging)]

end QueryParams
