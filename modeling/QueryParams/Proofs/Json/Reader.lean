import QueryParams.Json.Reader
import QueryParams.Proofs.Json.Number
import QueryParams.Proofs.Json.Quoted

/-!
# Reading JSON back

A tree whose numbers are whole numbers in range is read back from its text, on one line as well as
on indented lines, if its brackets are not nested too deeply. Only the order of the members of an
object is lost, for a reader puts them in ascending order.

Main statements: `Json.reads_write` and `Json.read?_write`.
-/

namespace QueryParams.Json

/-! ## Trees and styles -/

def sorted : Json → Json
  | null => null
  | bool b => bool b
  | integer n => integer n
  | float x => float x
  | string s => string s
  | array items => array (items.map sorted)
  | object members => ofMembers (members.map fun member => (member.1, sorted member.2))
decreasing_by
  · have hitem := List.sizeOf_lt_of_mem (by assumption)
    simp only [array.sizeOf_spec]
    omega
  · have hmember := List.sizeOf_lt_of_mem ‹member ∈ members›
    obtain ⟨name, value⟩ := member
    simp only [Prod.mk.sizeOf_spec] at hmember
    simp only [object.sizeOf_spec]
    omega

/-- A tree with whole numbers in range only, whose brackets are nested to a depth of `depth` at
most. -/
inductive Readable : Nat → Json → Prop
  | null {depth : Nat} : Readable depth null
  | bool {depth : Nat} {b : Bool} : Readable depth (bool b)
  | integer {depth : Nat} {n : Int} (h : InRange n) : Readable depth (integer n)
  | string {depth : Nat} {s : String} : Readable depth (string s)
  | array {depth : Nat} {items : List Json} (h : ∀ item ∈ items, Readable depth item) :
      Readable (depth + 1) (array items)
  | object {depth : Nat} {members : List (String × Json)}
      (h : ∀ member ∈ members, Readable depth member.2) : Readable (depth + 1) (object members)

structure Style.IsBlank (style : Style) : Prop where
  lineBreak : ∀ depth, ∀ c ∈ style.lineBreak depth, isSpace c = true
  afterColon : ∀ c ∈ style.afterColon, isSpace c = true

theorem Style.isBlank_compact : Style.compact.IsBlank where
  lineBreak := by simp [compact]
  afterColon := by simp [compact]

theorem Style.isBlank_indented : Style.indented.IsBlank where
  lineBreak := by simp [indented, isSpace]
  afterColon := by simp [indented, isSpace]

/-! ## White space -/

variable {spaces rest cs : List Char} {c closing : Char}

theorem skipSpace_append (h : ∀ c ∈ spaces, isSpace c = true) :
    skipSpace (spaces ++ cs) = skipSpace cs :=
  List.dropWhile_append_of_pos h

theorem skipSpace_cons (h : isSpace c = false) : skipSpace (c :: cs) = c :: cs :=
  List.dropWhile_cons_of_neg (by simp [h])

def Begins (text : List Char) : Prop :=
  ∃ c cs, text = c :: cs ∧ isSpace c = false ∧ c ≠ ']' ∧ c ≠ '\x7d'

theorem begins_cons (c : Char) (cs : List Char)
    (h : isSpace c = false ∧ c ≠ ']' ∧ c ≠ '\x7d' := by decide) : Begins (c :: cs) :=
  ⟨c, cs, rfl, h⟩

theorem Begins.append (h : Begins cs) (rest : List Char) : Begins (cs ++ rest) := by
  obtain ⟨c, cs, rfl, hc⟩ := h
  exact ⟨c, cs ++ rest, rfl, hc⟩

/-- The reader takes the text off, with white space in front of it, and gives `a` for it, unless a
number goes on behind the text. -/
def Reads {α : Type} (reader : Reader α) (text : List Char) (a : α) : Prop :=
  ∀ spaces rest : List Char, (∀ c ∈ spaces, isSpace c = true) → EndsNumber rest →
    reader (spaces ++ (text ++ rest)) = some (a, rest)

theorem endsNumber_cons (c : Char) (cs : List Char)
    (h : c.isDigit = false ∧ c ≠ '.' ∧ c ≠ 'e' ∧ c ≠ 'E' := by decide) : EndsNumber (c :: cs) := by
  intro d hd
  obtain rfl : c = d := by simpa using hd
  exact h

/-! ## Items -/

def IsClosing (c : Char) : Prop := c = ']' ∨ c = '\x7d'

theorem IsClosing.ne_comma (h : IsClosing c) : c ≠ ',' := by
  rcases h with rfl | rfl <;> decide

theorem IsClosing.skipSpace_cons (h : IsClosing c) : skipSpace (c :: cs) = c :: cs := by
  rcases h with rfl | rfl <;> rfl

theorem IsClosing.ne_of_begins (h : IsClosing closing) (hbegins : Begins cs) :
    ∃ c behind, cs = c :: behind ∧ isSpace c = false ∧ c ≠ closing := by
  obtain ⟨c, behind, rfl, hspace, hsquare, hcurly⟩ := hbegins
  rcases h with rfl | rfl
  · exact ⟨c, behind, rfl, hspace, hsquare⟩
  · exact ⟨c, behind, rfl, hspace, hcurly⟩

theorem IsClosing.endsNumber (h : IsClosing closing) (hspaces : ∀ c ∈ spaces, isSpace c = true) :
    EndsNumber (spaces ++ closing :: rest) := by
  cases spaces with
  | nil => rcases h with rfl | rfl <;> exact endsNumber_cons _ _
  | cons c spaces =>
    have hc := hspaces c List.mem_cons_self
    simp only [isSpace, Bool.or_eq_true, beq_iff_eq] at hc
    rcases hc with ((rfl | rfl) | rfl) | rfl <;> exact endsNumber_cons _ _

section Items

variable {α β : Type} {item : Reader α} {written : β → List Char} {f : β → α}
  {lineBreak : List Char} {x : β} {xs : List β}

def further (lineBreak : List Char) (written : β → List Char) (xs : List β) : List Char :=
  xs.flatMap fun x => ',' :: lineBreak ++ written x

theorem further_cons (lineBreak : List Char) (written : β → List Char) (x : β) (xs : List β) :
    further lineBreak written (x :: xs) =
      ',' :: (lineBreak ++ (written x ++ further lineBreak written xs)) := by
  simp [further]

theorem length_le_further (lineBreak : List Char) (written : β → List Char) (xs : List β) :
    xs.length ≤ (further lineBreak written xs).length := by
  induction xs with
  | nil => exact Nat.zero_le _
  | cons x xs ih =>
    rw [further_cons]
    simp only [List.length_cons, List.length_append]
    omega

theorem endsNumber_further (lineBreak : List Char) (written : β → List Char) (xs : List β)
    (hclosing : IsClosing closing) (hspaces : ∀ c ∈ spaces, isSpace c = true) :
    EndsNumber (further lineBreak written xs ++ (spaces ++ closing :: rest)) := by
  cases xs with
  | nil => exact hclosing.endsNumber hspaces
  | cons x xs =>
    rw [further_cons]
    exact endsNumber_cons _ _

/-- Items behind other ones are read up to the closing bracket, if the rounds suffice. -/
theorem readFurther?_further {rounds : Nat} (rest : List Char) (hclosing : IsClosing closing)
    (hbreak : ∀ c ∈ lineBreak, isSpace c = true) (hspaces : ∀ c ∈ spaces, isSpace c = true)
    (hitem : ∀ x ∈ xs, Reads item (written x) (f x)) (hrounds : xs.length < rounds) :
    readFurther? item closing rounds
        (further lineBreak written xs ++ (spaces ++ closing :: rest)) =
      some (xs.map f, rest) := by
  induction xs generalizing rounds with
  | nil =>
    obtain ⟨rounds, rfl⟩ := Nat.exists_eq_add_of_lt hrounds
    simp [further, readFurther?, skipSpace_append hspaces, hclosing.skipSpace_cons]
  | cons x xs ih =>
    obtain ⟨rounds, rfl⟩ : ∃ fewer, rounds = fewer + 1 := ⟨rounds - 1, by omega⟩
    have hends : EndsNumber (further lineBreak written xs ++ (spaces ++ closing :: rest)) :=
      endsNumber_further lineBreak written xs hclosing hspaces
    have hfirst := hitem x List.mem_cons_self _ _ hbreak hends
    have hothers := ih (fun y hy => hitem y (List.mem_cons_of_mem x hy))
      (Nat.lt_of_succ_lt_succ hrounds)
    have hcomma : isSpace ',' = false := by decide
    rw [further_cons, List.cons_append, readFurther?, skipSpace_cons hcomma]
    simp only [if_neg hclosing.ne_comma.symm, if_true, List.append_assoc, hfirst, hothers,
      Option.bind_eq_bind, Option.bind_some, Option.pure_def, List.map_cons]

theorem readItems?_cons (rest : List Char) (hclosing : IsClosing closing)
    (hbreak : ∀ c ∈ lineBreak, isSpace c = true) (hspaces : ∀ c ∈ spaces, isSpace c = true)
    (hbegins : Begins (written x)) (hitem : ∀ y ∈ x :: xs, Reads item (written y) (f y)) :
    readItems? item closing (lineBreak ++
        (written x ++ (further lineBreak written xs ++ (spaces ++ closing :: rest)))) =
      some ((x :: xs).map f, rest) := by
  have hends : EndsNumber (further lineBreak written xs ++ (spaces ++ closing :: rest)) :=
    endsNumber_further lineBreak written xs hclosing hspaces
  have hfirst := hitem x List.mem_cons_self _ _ hbreak hends
  have hrounds : xs.length <
      (further lineBreak written xs ++ (spaces ++ closing :: rest)).length := by
    have := length_le_further lineBreak written xs
    simp only [List.length_append, List.length_cons]
    omega
  have hothers := readFurther?_further rest hclosing hbreak hspaces
    (fun y hy => hitem y (List.mem_cons_of_mem x hy)) hrounds
  obtain ⟨c, behind, hcons, hspace, hne⟩ := hclosing.ne_of_begins
    (hbegins.append (further lineBreak written xs ++ (spaces ++ closing :: rest)))
  have hskip : skipSpace (lineBreak ++
      (written x ++ (further lineBreak written xs ++ (spaces ++ closing :: rest)))) =
        c :: behind := by
    rw [skipSpace_append hbreak, hcons, skipSpace_cons hspace]
  simp only [readItems?, hskip, if_neg hne, hfirst, hothers, Option.bind_eq_bind,
    Option.bind_some, Option.pure_def, List.map_cons]

def inside (style : Style) (depth : Nat) (closing : Char) (written : β → List Char) :
    List β → List Char
  | [] => [closing]
  | x :: xs =>
    style.lineBreak (depth + 1) ++ (written x ++
      (further (style.lineBreak (depth + 1)) written xs ++ (style.lineBreak depth ++ [closing])))

theorem readItems?_inside {style : Style} (depth : Nat) (rest : List Char) (hstyle : style.IsBlank)
    (hclosing : IsClosing closing) (hbegins : ∀ x ∈ xs, Begins (written x))
    (hitem : ∀ x ∈ xs, Reads item (written x) (f x)) :
    readItems? item closing (inside style depth closing written xs ++ rest) =
      some (xs.map f, rest) := by
  cases xs with
  | nil => simp [inside, readItems?, hclosing.skipSpace_cons]
  | cons x xs =>
    have hread := readItems?_cons rest hclosing (hstyle.lineBreak (depth + 1))
      (hstyle.lineBreak depth) (hbegins x List.mem_cons_self) hitem
    simpa [inside] using hread

end Items

/-! ## Values -/

attribute [local simp] write writeItems writeMember writeMembers

variable {style : Style} {depth openBrackets : Nat} {inner : Option (Reader Json)} {j : Json}

theorem writeItems_eq (style : Style) (depth : Nat) (items : List Json) :
    writeItems style depth items = further (style.lineBreak depth) (write style depth) items := by
  induction items with
  | nil => simp [further]
  | cons item items ih =>
    rw [writeItems, ih, further_cons]
    simp

theorem writeMembers_eq (style : Style) (depth : Nat) (members : List (String × Json)) :
    writeMembers style depth members =
      further (style.lineBreak depth) (writeMember style depth) members := by
  induction members with
  | nil => simp [further]
  | cons member members ih =>
    rw [writeMembers, ih, further_cons]
    simp

theorem write_array (style : Style) (depth : Nat) (items : List Json) :
    write style depth (array items) =
      '[' :: inside style depth ']' (write style (depth + 1)) items := by
  cases items with
  | nil => rw [write, inside]
  | cons item items => simp [inside, writeItems_eq]

theorem write_object (style : Style) (depth : Nat) (members : List (String × Json)) :
    write style depth (object members) =
      '\x7b' :: inside style depth '\x7d' (writeMember style (depth + 1)) members := by
  cases members with
  | nil => rw [write, inside]
  | cons member members => simp [inside, writeMembers_eq]

theorem begins_writeMember (style : Style) (depth : Nat) (member : String × Json) :
    Begins (writeMember style depth member) := by
  rw [writeMember, quote]
  exact begins_cons _ _

theorem exists_writeInteger_eq_cons (n : Int) :
    ∃ c cs, writeInteger n = c :: cs ∧ (c = '-' ∨ c.isDigit = true) := by
  unfold writeInteger
  obtain ⟨d, digits, hnumeral, hdigit⟩ := Text.exists_numeral_eq_cons n.natAbs
  split
  · exact ⟨'-', _, rfl, Or.inl rfl⟩
  · exact ⟨d, digits, hnumeral, Or.inr hdigit⟩

theorem ne_of_beginsNumber {d : Char} (hc : c = '-' ∨ c.isDigit = true)
    (hd : d ≠ '-' ∧ d.isDigit = false := by decide) : c ≠ d := by
  rintro rfl
  simp [hd] at hc

theorem isSpace_of_beginsNumber {c : Char} (hc : c = '-' ∨ c.isDigit = true) :
    isSpace c = false := by
  have hspace : c ≠ ' ' := ne_of_beginsNumber hc
  have htab : c ≠ '\t' := ne_of_beginsNumber hc
  have hline : c ≠ '\n' := ne_of_beginsNumber hc
  have hreturn : c ≠ '\r' := ne_of_beginsNumber hc
  simp [isSpace, hspace, htab, hline, hreturn]

theorem begins_writeInteger (n : Int) : Begins (writeInteger n) := by
  obtain ⟨c, cs, hcons, hc⟩ := exists_writeInteger_eq_cons n
  rw [hcons]
  exact begins_cons c cs
    ⟨isSpace_of_beginsNumber hc, ne_of_beginsNumber hc, ne_of_beginsNumber hc⟩

theorem Readable.begins_write (h : Readable depth j) (style : Style) (openBrackets : Nat) :
    Begins (write style openBrackets j) := by
  cases h with
  | null =>
    rw [write]
    exact begins_cons _ _
  | @bool _ b =>
    cases b <;> rw [write] <;> exact begins_cons _ _
  | @integer _ n =>
    rw [write]
    exact begins_writeInteger n
  | string =>
    rw [write, quote]
    exact begins_cons _ _
  | array =>
    rw [write_array]
    exact begins_cons _ _
  | object =>
    rw [write_object]
    exact begins_cons _ _

/-! ## Reading values -/

theorem Reads.member {value : Reader Json} {text afterColon : List Char} (name : String)
    (hcolon : ∀ c ∈ afterColon, isSpace c = true) (h : Reads value text j) :
    Reads (readMember? value) (quote name.toList ++ ':' :: afterColon ++ text) (name, j) := by
  intro spaces rest hspaces hends
  have htext : quote name.toList ++ ':' :: afterColon ++ text ++ rest =
      '"' :: (name.toList.flatMap escape ++ '"' :: ':' :: (afterColon ++ (text ++ rest))) := by
    simp [quote]
  have hvalue := h afterColon rest hcolon hends
  have hquote : isSpace '"' = false := by decide
  have hsign : isSpace ':' = false := by decide
  rw [htext, readMember?, skipSpace_append hspaces, skipSpace_cons hquote]
  simp only [readQuoted?_flatMap_escape, skipSpace_cons hsign, hvalue, Option.bind_eq_bind,
    Option.bind_some, Option.pure_def, String.ofList_toList]

theorem reads_string (inner : Option (Reader Json)) (s : String) :
    Reads (readWith? inner) (quote s.toList) (string s) := by
  intro spaces rest hspaces hends
  have htext : quote s.toList ++ rest = '"' :: (s.toList.flatMap escape ++ '"' :: rest) := by
    simp [quote]
  have hquote : isSpace '"' = false := by decide
  rw [htext, readWith?, skipSpace_append hspaces, skipSpace_cons hquote]
  simp only [readQuoted?_flatMap_escape, Option.bind_eq_bind, Option.bind_some, Option.pure_def,
    String.ofList_toList]

theorem reads_integer (inner : Option (Reader Json)) {n : Int} (h : InRange n) :
    Reads (readWith? inner) (writeInteger n) (integer n) := by
  intro spaces rest hspaces hends
  obtain ⟨c, cs, hcons, hc⟩ := exists_writeInteger_eq_cons n
  have hskip : skipSpace (spaces ++ (writeInteger n ++ rest)) = c :: (cs ++ rest) := by
    rw [skipSpace_append hspaces, hcons, List.cons_append,
      skipSpace_cons (isSpace_of_beginsNumber hc)]
  have hread : readNumber? (c :: (cs ++ rest)) = some (integer n, rest) := by
    rw [← List.cons_append, ← hcons]
    exact readNumber?_writeInteger h hends
  rw [readWith?, hskip]
  -- none of the other values begins like a number
  split <;> rename_i heq
  case h_7 => exact hread
  all_goals
    cases heq
    simp at hc

theorem reads_array {value : Reader Json} {items : List Json} {f : Json → Json}
    (hstyle : style.IsBlank)
    (hbegins : ∀ item ∈ items, Begins (write style (openBrackets + 1) item))
    (h : ∀ item ∈ items, Reads value (write style (openBrackets + 1) item) (f item)) :
    Reads (readWith? (some value)) (write style openBrackets (array items))
      (array (items.map f)) := by
  intro spaces rest hspaces _
  have hitems := readItems?_inside openBrackets rest hstyle (Or.inl rfl) hbegins h
  have hbracket : isSpace '[' = false := by decide
  rw [write_array, List.cons_append, readWith?, skipSpace_append hspaces, skipSpace_cons hbracket]
  simp only [hitems, Option.bind_eq_bind, Option.bind_some, Option.pure_def]

theorem reads_object {value : Reader Json} {members : List (String × Json)} {f : Json → Json}
    (hstyle : style.IsBlank)
    (h : ∀ member ∈ members,
      Reads value (write style (openBrackets + 1) member.2) (f member.2)) :
    Reads (readWith? (some value)) (write style openBrackets (object members))
      (ofMembers (members.map fun member => (member.1, f member.2))) := by
  intro spaces rest hspaces _
  have hmember : ∀ member ∈ members, Reads (readMember? value)
      (writeMember style (openBrackets + 1) member) (member.1, f member.2) := by
    intro member hmem
    rw [writeMember]
    exact (h member hmem).member member.1 hstyle.afterColon
  have hitems := readItems?_inside openBrackets rest hstyle (Or.inr rfl)
    (fun member _ => begins_writeMember style (openBrackets + 1) member) hmember
  have hbracket : isSpace '\x7b' = false := by decide
  rw [write_object, List.cons_append, readWith?, skipSpace_append hspaces, skipSpace_cons hbracket]
  simp only [hitems, Option.bind_eq_bind, Option.bind_some, Option.pure_def]

theorem exists_readNested?_eq (depth : Nat) : ∃ inner, readNested? depth = readWith? inner := by
  cases depth with
  | zero => exact ⟨none, rfl⟩
  | succ depth => exact ⟨some (readNested? depth), rfl⟩

theorem reads_write (hstyle : style.IsBlank) (h : Readable depth j) (openBrackets : Nat) :
    Reads (readNested? depth) (write style openBrackets j) j.sorted := by
  -- the induction is on the nesting of brackets, as it is in `readNested?`
  induction h generalizing openBrackets with
  | @null depth =>
    intro spaces rest hspaces _
    obtain ⟨inner, hinner⟩ := exists_readNested?_eq depth
    rw [hinner, write, sorted, readWith?, skipSpace_append hspaces]
    rfl
  | @bool depth b =>
    intro spaces rest hspaces _
    obtain ⟨inner, hinner⟩ := exists_readNested?_eq depth
    rw [hinner, sorted, readWith?, skipSpace_append hspaces]
    cases b <;> rw [write] <;> rfl
  | @integer depth n hn =>
    obtain ⟨inner, hinner⟩ := exists_readNested?_eq depth
    rw [hinner, write, sorted]
    exact reads_integer inner hn
  | @string depth s =>
    obtain ⟨inner, hinner⟩ := exists_readNested?_eq depth
    rw [hinner, write, sorted]
    exact reads_string inner s
  | array hitems ih =>
    rw [sorted]
    exact reads_array hstyle (fun item hmem => (hitems item hmem).begins_write style _)
      fun item hmem => ih item hmem _
  | object _ ih =>
    rw [sorted]
    exact reads_object hstyle fun member hmem => ih member hmem _

theorem read?_write (hstyle : style.IsBlank) (h : Readable greatestDepth j) :
    read? (String.ofList (write style 0 j)) = some j.sorted := by
  have hread := reads_write hstyle h 0 [] [] (by simp) (by simp [EndsNumber])
  rw [List.nil_append, List.append_nil] at hread
  rw [read?, String.toList_ofList, hread]
  rfl

theorem read?_compact (h : Readable greatestDepth j) : read? j.compact = some j.sorted :=
  read?_write Style.isBlank_compact h

theorem read?_indented (h : Readable greatestDepth j) : read? j.indented = some j.sorted :=
  read?_write Style.isBlank_indented h

end QueryParams.Json
