import QueryParams.Text.Ranges

/-!
# General categories

Separators, control characters, format characters and the punctuation of ASCII: the characters that
end a parameter name.
-/

namespace QueryParams.Text

def separatorRanges : List (Nat × Nat) := [
  (0x20, 0x20), (0xA0, 0xA0), (0x1680, 0x1680), (0x2000, 0x200A), (0x2028, 0x2029),
  (0x202F, 0x202F), (0x205F, 0x205F), (0x3000, 0x3000)]

def controlRanges : List (Nat × Nat) := [(0x0, 0x1F), (0x7F, 0x9F)]

def formatRanges : List (Nat × Nat) := [
  (0xAD, 0xAD), (0x600, 0x605), (0x61C, 0x61C), (0x6DD, 0x6DD), (0x70F, 0x70F), (0x890, 0x891),
  (0x8E2, 0x8E2), (0x180E, 0x180E), (0x200B, 0x200F), (0x202A, 0x202E), (0x2060, 0x2064),
  (0x2066, 0x206F), (0xFEFF, 0xFEFF), (0xFFF9, 0xFFFB), (0x110BD, 0x110BD), (0x110CD, 0x110CD),
  (0x13430, 0x1343F), (0x1BCA0, 0x1BCA3), (0x1D173, 0x1D17A), (0xE0001, 0xE0001),
  (0xE0020, 0xE007F)]

/-- The code ranges of punctuation and symbols in ASCII. -/
def asciiPunctuationRanges : List (Nat × Nat) :=
  [(0x21, 0x2F), (0x3A, 0x40), (0x5B, 0x60), (0x7B, 0x7E)]

def isSeparator (c : Char) : Bool := inRanges separatorRanges c

def isControl (c : Char) : Bool := inRanges controlRanges c

def isFormat (c : Char) : Bool := inRanges formatRanges c

def isAsciiPunctuation (c : Char) : Bool := inRanges asciiPunctuationRanges c

end QueryParams.Text
