import QueryParams.Placeholder.Basic
import QueryParams.Text.Blank
import QueryParams.Text.Word

/-!
# Reading a placeholder

`Placeholder.read?` reads the placeholder that a text begins with, each of its optional parts
whenever it is there. It is told the character in front of the text, because a keyword begins a
word, and because a colon behind a colon or a backslash starts no name.

Main statement: `Placeholder.eq_text_append_of_read?`, what is read and the rest make up the text.
-/

namespace QueryParams

namespace Keyword

def words : List (List Char) := [['l', 'i', 'k', 'e'], ['i', 'n']]

/-- Whether `c` is a case variant of the small letter `letter`. The Kelvin sign is a capital `k`;
the other letters of the keywords have ASCII variants only. -/
def isVariant (letter c : Char) : Bool :=
  c.toLower == letter || (letter == 'k' && c == '\u212a')

def takeWord? : List Char → List Char → Option (List Char × List Char)
  | [], cs => some ([], cs)
  | _ :: _, [] => none
  | letter :: letters, c :: cs =>
    if isVariant letter c then (takeWord? letters cs).map fun r => (c :: r.1, r.2) else none

def readWord? (word cs : List Char) : Option (Keyword × List Char) :=
  match takeWord? word cs with
  | some (written, blank :: rest) =>
    if Text.isBlank blank then some (⟨written, blank⟩, rest) else none
  | _ => none

def read? (before : Option Char) (cs : List Char) : Option (Keyword × List Char) :=
  (words.findSome? fun word => readWord? word cs).filter fun _ => Text.wordMayBegin before

def take (before : Option Char) (cs : List Char) : Option Keyword × List Char :=
  match read? before cs with
  | some (keyword, rest) => (some keyword, rest)
  | none => (none, cs)

end Keyword

namespace Body

/-- Reads the source of an expression in braces, up to the first closing brace. -/
def readExpression? (sign : Sign) : List Char → Option (Body × List Char)
  | '#' :: '{' :: cs =>
    match cs.takeWhile (· != '}'), cs.dropWhile (· != '}') with
    | c :: source, _ :: rest => some (.expression sign (c :: source), rest)
    | _, _ => none
  | _ => none

/-- Reads the body with which the text begins: as many digits or name characters as there are, or an
expression. -/
def read? : List Char → Option (Body × List Char)
  | '?' :: cs =>
    match cs.takeWhile Char.isDigit with
    | [] => readExpression? .question cs
    | d :: digits => some (.index (d :: digits), cs.dropWhile Char.isDigit)
  | ':' :: cs =>
    match cs.takeWhile isNameChar with
    | [] => readExpression? .colon cs
    | c :: identifier => some (.name (c :: identifier), cs.dropWhile isNameChar)
  | _ => none

end Body

namespace Placeholder

def read? (before : Option Char) (cs : List Char) : Option (Placeholder × List Char) :=
  let (keyword, cs) := Keyword.take before cs
  let (spaced, cs) := Text.takeChar ' ' cs
  let (opened, cs) := Text.takeChar '(' cs
  let (leading, cs) := Text.takeChar '%' cs
  match Body.read? cs with
  | none => none
  | some (body, cs) =>
    let (trailing, cs) := Text.takeChar '%' cs
    let (closed, cs) := Text.takeChar ')' cs
    some (⟨keyword, spaced, opened, leading, body, trailing, closed⟩, cs)

/-- The character in front of the body, in a text where `before` stands in front of the
placeholder. -/
def beforeBody (before : Option Char) (p : Placeholder) : Option Char :=
  (p.front ++ Text.optional p.leading '%').getLast?.or before

/-- Whether the colon of a literal name is the second colon of a cast or is escaped by a
backslash. -/
def isEscaped (before : Option Char) (p : Placeholder) : Bool :=
  match p.body with
  | .name _ => p.beforeBody before == some ':' || p.beforeBody before == some '\\'
  | _ => false

def readUnescaped? (before : Option Char) (cs : List Char) : Option (Placeholder × List Char) :=
  (read? before cs).filter fun r => !r.1.isEscaped before

end Placeholder

/-! ## Nothing is lost -/

namespace Keyword

theorem eq_append_of_takeWord? {word cs written rest : List Char}
    (h : takeWord? word cs = some (written, rest)) : cs = written ++ rest := by
  fun_induction takeWord? word cs generalizing written rest with
  | case1 => simp_all
  | case2 => simp at h
  | case3 letter letters c cs _ ih =>
    obtain ⟨⟨w, r⟩, hw, heq⟩ := Option.map_eq_some_iff.1 h
    cases heq
    simp [ih hw]
  | case4 => simp at h

theorem eq_append_of_readWord? {word cs rest : List Char} {k : Keyword}
    (h : readWord? word cs = some (k, rest)) : cs = k.text ++ rest := by
  unfold readWord? at h
  split at h
  · rename_i written blank behind htake
    split at h
    · cases h
      simp [text, eq_append_of_takeWord? htake]
    · cases h
  · cases h

theorem eq_append_of_read? {before : Option Char} {cs rest : List Char} {k : Keyword}
    (h : read? before cs = some (k, rest)) : cs = k.text ++ rest := by
  obtain ⟨hread, _⟩ := Option.filter_eq_some_iff.1 h
  obtain ⟨word, _, hword⟩ := List.exists_of_findSome?_eq_some hread
  exact eq_append_of_readWord? hword

theorem eq_append_take (before : Option Char) (cs : List Char) :
    cs = ((take before cs).1.elim [] text) ++ (take before cs).2 := by
  unfold take
  split
  · rename_i h
    exact eq_append_of_read? h
  · simp

end Keyword

namespace Body

theorem eq_append_of_readExpression? {sign : Sign} {cs rest : List Char} {b : Body}
    (h : readExpression? sign cs = some (b, rest)) : sign.char :: cs = b.text ++ rest := by
  unfold readExpression? at h
  split at h
  · rename_i cs
    split at h
    · rename_i c source brace behind htake hdrop
      cases h
      have hsplit := List.takeWhile_append_dropWhile (p := (· != '}')) (l := cs)
      have hbrace : brace = '}' := by
        have := List.head?_dropWhile_not (· != '}') cs
        simpa [hdrop] using this
      rw [htake, hdrop, hbrace] at hsplit
      simp [text, ← hsplit]
    · cases h
  · cases h

theorem eq_append_of_read? {cs rest : List Char} {b : Body} (h : read? cs = some (b, rest)) :
    cs = b.text ++ rest := by
  unfold read? at h
  split at h
  · rename_i cs
    split at h
    · exact eq_append_of_readExpression? h
    · rename_i d digits htake
      cases h
      simp [text, ← htake]
  · rename_i cs
    split at h
    · exact eq_append_of_readExpression? h
    · rename_i c identifier htake
      cases h
      simp [text, ← htake]
  · cases h

end Body

namespace Placeholder

theorem eq_text_append_of_read? {before : Option Char} {cs rest : List Char} {p : Placeholder}
    (h : read? before cs = some (p, rest)) : cs = p.text ++ rest := by
  have hkeyword := Keyword.eq_append_take before cs
  have hspaced := Text.eq_optional_append_takeChar ' ' (Keyword.take before cs).2
  have hopened := Text.eq_optional_append_takeChar '('
    (Text.takeChar ' ' (Keyword.take before cs).2).2
  have hleading := Text.eq_optional_append_takeChar '%'
    (Text.takeChar '(' (Text.takeChar ' ' (Keyword.take before cs).2).2).2
  simp only [read?] at h
  split at h
  · cases h
  · rename_i body behind hbody
    have hread := Body.eq_append_of_read? hbody
    have htrailing := Text.eq_optional_append_takeChar '%' behind
    have hclosed := Text.eq_optional_append_takeChar ')' (Text.takeChar '%' behind).2
    cases h
    simp only [text, front, decorated, back, List.append_assoc]
    rw [← hclosed, ← htrailing, ← hread, ← hleading, ← hopened, ← hspaced, ← hkeyword]

theorem length_lt_of_readUnescaped? {before : Option Char} {cs rest : List Char} {p : Placeholder}
    (h : readUnescaped? before cs = some (p, rest)) : rest.length < cs.length := by
  have heq := eq_text_append_of_read? (Option.filter_eq_some_iff.1 h).1
  have hpos := p.text_length_pos
  simp only [heq, List.length_append]
  omega

end Placeholder

end QueryParams
