import QueryParams.Text.Category
import QueryParams.Text.Run

/-!
# Placeholders

A placeholder names a parameter by its index (`?1`), by its name (`:name`) or by an expression that
computes its value (`?#{expression}`, `:#{expression}`). It may be decorated with `%` on both sides,
stand in parentheses and have an operator word in front of it. The parts of a placeholder are kept
as they were written, so that they put together give back its text.
-/

namespace QueryParams

structure Keyword where
  word : List Char
  blank : Char
  deriving DecidableEq, Repr

def Keyword.text (k : Keyword) : List Char := k.word ++ [k.blank]

inductive Sign where
  | question
  | colon
  deriving DecidableEq, Repr

def Sign.char : Sign → Char
  | question => '?'
  | colon => ':'

/-- What a placeholder refers to: a literal index, a literal name or the source of an expression. -/
inductive Body where
  | index (digits : List Char)
  | name (identifier : List Char)
  | expression (sign : Sign) (source : List Char)
  deriving DecidableEq, Repr

namespace Body

def text : Body → List Char
  | index digits => '?' :: digits
  | name identifier => ':' :: identifier
  | expression sign source => sign.char :: '#' :: '{' :: source ++ ['}']

def index? : Body → Option (List Char)
  | index digits => some digits
  | _ => none

def name? : Body → Option (List Char)
  | name identifier => some identifier
  | _ => none

def expression? : Body → Option (List Char)
  | expression _ source => some source
  | _ => none

theorem text_ne_nil (b : Body) : b.text ≠ [] := by
  cases b <;> simp [text]

end Body

/-- A placeholder with all that belongs to it, in the order in which it is written: a keyword, a
space, an opening parenthesis, a leading `%`, the body, a trailing `%` and a closing parenthesis. -/
structure Placeholder where
  keyword : Option Keyword
  spaced : Bool
  opened : Bool
  leading : Bool
  body : Body
  trailing : Bool
  closed : Bool
  deriving DecidableEq, Repr

namespace Placeholder

def front (p : Placeholder) : List Char :=
  (p.keyword.elim [] Keyword.text) ++ Text.optional p.spaced ' ' ++ Text.optional p.opened '('

def decorated (p : Placeholder) : List Char :=
  Text.optional p.leading '%' ++ p.body.text ++ Text.optional p.trailing '%'

def back (p : Placeholder) : List Char := Text.optional p.closed ')'

def text (p : Placeholder) : List Char := p.front ++ p.decorated ++ p.back

theorem text_ne_nil (p : Placeholder) : p.text ≠ [] := by
  have h := p.body.text_ne_nil
  simp [text, decorated, h]

theorem text_length_pos (p : Placeholder) : 0 < p.text.length :=
  List.length_pos_iff.2 p.text_ne_nil

end Placeholder

/-- The characters that parameter names are made of: dot, underscore, dollar sign and all that is
no separator, no control or format character and no ASCII punctuation. -/
def isNameChar (c : Char) : Bool :=
  c == '.' || c == '_' || c == '$' ||
    !(Text.isSeparator c || Text.isControl c || Text.isFormat c || Text.isAsciiPunctuation c)

end QueryParams
