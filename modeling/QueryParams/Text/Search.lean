/-!
# Comparing and searching texts
-/

namespace QueryParams.Text

def occursIn (pattern : List Char) : List Char → Bool
  | [] => pattern.isEmpty
  | c :: cs => pattern.isPrefixOf (c :: cs) || occursIn pattern cs

/-- Equality up to the case of ASCII letters. -/
def equalIgnoringCase (as bs : List Char) : Bool := as.map Char.toLower == bs.map Char.toLower

end QueryParams.Text
