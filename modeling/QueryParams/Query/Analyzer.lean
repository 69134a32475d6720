import QueryParams.Query

/-!
# Analysis of queries and count queries

What is known of the structure of a query comes from an analyzer, which its user supplies. The count
query of a query is derived from its cleaned text.
-/

namespace QueryParams

structure QueryAnalyzer where
  alias? : String → Option String
  hasConstructorExpression : String → Bool
  projection : String → String
  /-- The query that counts the results, with the projection that is to be counted. -/
  countQuery : String → Option String → String

namespace ParsedQuery

def alias? (q : ParsedQuery) (analyzer : QueryAnalyzer) : Option String := analyzer.alias? q.text

def hasConstructorExpression (q : ParsedQuery) (analyzer : QueryAnalyzer) : Bool :=
  analyzer.hasConstructorExpression q.text

def projection (q : ParsedQuery) (analyzer : QueryAnalyzer) : String := analyzer.projection q.text

def isDefaultProjection (q : ParsedQuery) (analyzer : QueryAnalyzer) : Bool :=
  match q.alias? analyzer with
  | none => false
  | some found => Text.equalIgnoringCase (q.projection analyzer).toList found.toList

/-- Parses the count query: the one that is given, or else the one that the analyzer derives from
the cleaned text. -/
def deriveCountQuery (q : ParsedQuery) (analyzer : QueryAnalyzer)
    (given projection : Option String) : Except BindingError ParsedQuery :=
  match given with
  | some query => parse query
  | none => parse (analyzer.countQuery q.text projection)

end ParsedQuery

end QueryParams
