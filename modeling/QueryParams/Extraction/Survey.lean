import QueryParams.Extraction.Numbering
import QueryParams.Placeholder.Index
import QueryParams.Quotation
import QueryParams.Text.Blank
import QueryParams.Text.Search

/-!
# Survey of a query text

What has to be known of the whole text before its placeholders are walked through: how expressions
are numbered, and where the quoted literals are. A blank text, an index that is too great and a
literal that is never closed are refused here, in this order.
-/

namespace QueryParams

/-- What is known of a text in advance. The greatest index is zero if there is none. -/
structure Survey where
  numbering : Numbering
  greatest : UInt32
  quotations : Quotations
  deriving DecidableEq, Repr

namespace Survey

def positionalMark : List Char := ['?', '#', '{']

/-- Expressions are numbered by position as soon as the text has an index or an expression with a
question mark, be it inside a literal. -/
def numberingOf (greatest : Option UInt32) (text : List Char) : Numbering :=
  if greatest.isSome || Text.occursIn positionalMark text then .positional else .named

def ofText (text : List Char) : Except BindingError Survey :=
  if Text.isBlankText text then .error .emptyQuery
  else do
    let greatest ← greatestIndex text
    let quotations ←
      (Quotations.ofText text).mapError (.malformedQuotation (String.ofList text))
    return ⟨numberingOf greatest text, greatest.getD 0, quotations⟩

end Survey

end QueryParams
