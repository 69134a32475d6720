import QueryParams.Extraction

/-!
# Parsed queries

A query text with the bindings that were extracted from it. A value of `ParsedQuery` never changes;
a count query derived from it is parsed anew.
-/

namespace QueryParams

structure ParsedQuery where
  /-- The text with canonical placeholders. -/
  text : String
  /-- The bindings in the order in which they were first seen. -/
  registry : Registry
  /-- Whether the query as it was given mentions the page that is asked for. -/
  usesPaging : Bool
  deriving DecidableEq, Repr

namespace ParsedQuery

def pagingMark : List Char := ['#', 'p', 'a', 'g', 'e', 'a', 'b', 'l', 'e']

def parse (query : String) : Except BindingError ParsedQuery := do
  let extraction ← Extraction.ofQuery query
  return {
    text := extraction.text
    registry := extraction.registry
    usesPaging := Text.occursIn pagingMark query.toList }

def bindings (q : ParsedQuery) : List Binding := q.registry.bindings

def bindingNamed? (q : ParsedQuery) (name : String) : Option Binding :=
  q.bindings.find? (·.hasName name)

def bindingAt? (q : ParsedQuery) (position : UInt32) : Option Binding :=
  q.bindings.find? (·.hasPosition position)

def hasBindings (q : ParsedQuery) : Bool := !q.registry.isEmpty

def hasNamedBinding (q : ParsedQuery) : Bool := q.bindings.any (·.name?.isSome)

/-- Whether the query uses bare `?` parameters. They are no placeholders, so it never does. -/
def usesBareParameters (_q : ParsedQuery) : Bool := false

end ParsedQuery

end QueryParams
