import QueryParams.Text.Ranges

/-!
# Blanks

The white space characters, and trimming of texts by them. The information separators U+001C to
U+001F are no blanks.
-/

namespace QueryParams.Text

def blankRanges : List (Nat × Nat) := [
  (0x9, 0xD), (0x20, 0x20), (0x85, 0x85), (0xA0, 0xA0), (0x1680, 0x1680), (0x2000, 0x200A),
  (0x2028, 0x2029), (0x202F, 0x202F), (0x205F, 0x205F), (0x3000, 0x3000)]

def isBlank (c : Char) : Bool := inRanges blankRanges c

def trimEnd (cs : List Char) : List Char := (cs.reverse.dropWhile isBlank).reverse

def trim (cs : List Char) : List Char := trimEnd (cs.dropWhile isBlank)

def isBlankText (cs : List Char) : Bool := cs.all isBlank

end QueryParams.Text
