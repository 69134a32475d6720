/-!
# Splitting off the front

The longest run of members with a property, and a single character that may be there or not, taken
off the front of a list. The rest is never longer than the whole.
-/

namespace QueryParams.Text

theorem length_dropWhile_le {α : Type} (p : α → Bool) (l : List α) :
    (l.dropWhile p).length ≤ l.length :=
  (List.dropWhile_suffix p).length_le

theorem length_lt_of_dropWhile_eq_cons {α : Type} {p : α → Bool} {l : List α} {a : α}
    {rest : List α} (h : l.dropWhile p = a :: rest) : rest.length < l.length := by
  have hle := length_dropWhile_le p l
  rw [h, List.length_cons] at hle
  omega

def optional (present : Bool) (c : Char) : List Char := if present then [c] else []

def takeChar (c : Char) : List Char → Bool × List Char
  | [] => (false, [])
  | d :: cs => if d = c then (true, cs) else (false, d :: cs)

theorem eq_optional_append_takeChar (c : Char) (cs : List Char) :
    cs = optional (takeChar c cs).1 c ++ (takeChar c cs).2 := by
  cases cs with
  | nil => rfl
  | cons d cs => by_cases h : d = c <;> simp [takeChar, optional, h]

end QueryParams.Text
