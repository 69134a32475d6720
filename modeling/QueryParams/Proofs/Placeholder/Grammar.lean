import Mathlib.Data.List.Forall2
import QueryParams.Proofs.Text.Class
import QueryParams.Proofs.Text.Run

/-!
# The grammar of placeholders

Which placeholders are written between which neighbours, said without the reader. Every run is
maximal and every optional sign behind the body belongs to the placeholder, so at one place of a
text there is at most one placeholder.

Main statement: `Placeholder.read?_eq_some_iff`, the reader accepts exactly the grammar.
-/

namespace QueryParams

/-! ## Keywords -/

namespace Keyword

/-- The characters that simple case folding identifies with a letter of the keywords. -/
def foldings : Char → List Char
  | 'l' => ['l', 'L']
  | 'i' => ['i', 'I']
  | 'k' => ['k', 'K', '\u212a']
  | 'e' => ['e', 'E']
  | 'n' => ['n', 'N']
  | _ => []

def Spells (word written : List Char) : Prop :=
  List.Forall₂ (fun letter c => c ∈ foldings letter) word written

structure WellFormed (k : Keyword) : Prop where
  word : ∃ word ∈ words, Spells word k.word
  blank : Text.isBlank k.blank = true

theorem isVariant_iff_mem_foldings {word : List Char} (hword : word ∈ words) {letter c : Char}
    (hletter : letter ∈ word) : isVariant letter c = true ↔ c ∈ foldings letter := by
  have hlower := Text.toNat_toLower c
  have hcases : letter = 'l' ∨ letter = 'i' ∨ letter = 'k' ∨ letter = 'e' ∨ letter = 'n' := by
    simp only [words, List.mem_cons, List.not_mem_nil, or_false] at hword
    rcases hword with rfl | rfl <;> simp at hletter <;> tauto
  rcases hcases with rfl | rfl | rfl | rfl | rfl <;>
    simp [isVariant, foldings, ← Char.toNat_inj, hlower] <;> grind

theorem takeWord?_eq_some_iff {word cs written rest : List Char} :
    takeWord? word cs = some (written, rest) ↔
      cs = written ++ rest ∧
        List.Forall₂ (fun letter c => isVariant letter c = true) word written := by
  constructor
  · intro h
    refine ⟨eq_append_of_takeWord? h, ?_⟩
    fun_induction takeWord? word cs generalizing written rest with
    | case1 =>
      cases h
      exact List.Forall₂.nil
    | case2 => cases h
    | case3 letter letters c cs hc ih =>
      obtain ⟨⟨w, r⟩, hw, heq⟩ := Option.map_eq_some_iff.1 h
      cases heq
      exact List.Forall₂.cons hc (ih hw)
    | case4 => cases h
  · rintro ⟨rfl, hspell⟩
    induction hspell with
    | nil => rfl
    | cons hc _ ih => simp [takeWord?, hc, ih]

theorem readWord?_eq_some_iff {word cs rest : List Char} {k : Keyword} :
    readWord? word cs = some (k, rest) ↔
      cs = k.text ++ rest ∧
        List.Forall₂ (fun letter c => isVariant letter c = true) word k.word ∧
        Text.isBlank k.blank = true := by
  constructor
  · intro h
    refine ⟨eq_append_of_readWord? h, ?_⟩
    unfold readWord? at h
    split at h
    · rename_i written blank behind htake
      split at h
      · rename_i hblank
        cases h
        exact ⟨(takeWord?_eq_some_iff.1 htake).2, hblank⟩
      · cases h
    · cases h
  · rintro ⟨rfl, hspell, hblank⟩
    have htake : takeWord? word (k.text ++ rest) = some (k.word, k.blank :: rest) :=
      takeWord?_eq_some_iff.2 ⟨by simp [text], hspell⟩
    simp [readWord?, htake, hblank]

theorem spells_iff {word written : List Char} (hword : word ∈ words) :
    Spells word written ↔
      List.Forall₂ (fun letter c => isVariant letter c = true) word written := by
  have hletters : ∀ letter ∈ word, letter ∈ word := fun _ h => h
  constructor
  · intro h
    refine List.Forall₂.imp ?_ ((List.forall₂_and_left word written).2 ⟨hletters, h⟩)
    rintro letter c ⟨hletter, hc⟩
    exact (isVariant_iff_mem_foldings hword hletter).2 hc
  · intro h
    refine List.Forall₂.imp ?_ ((List.forall₂_and_left word written).2 ⟨hletters, h⟩)
    rintro letter c ⟨hletter, hc⟩
    exact (isVariant_iff_mem_foldings hword hletter).1 hc

/-- The two words differ in their first letter, so no text begins with both of them. -/
theorem readWord?_in_eq_some {cs rest : List Char} {k : Keyword}
    (h : readWord? ['i', 'n'] cs = some (k, rest)) :
    readWord? ['l', 'i', 'k', 'e'] cs = none := by
  obtain ⟨rfl, hspell, -⟩ := readWord?_eq_some_iff.1 h
  obtain ⟨c, cs, hc, -, hword⟩ := List.forall₂_cons_left_iff.1 hspell
  have hwords : ['i', 'n'] ∈ words := by simp [words]
  have hfirst : c = 'i' ∨ c = 'I' := by
    simpa [foldings] using (isVariant_iff_mem_foldings hwords (by simp)).1 hc
  rcases hfirst with rfl | rfl <;>
    simp [readWord?, text, hword, takeWord?, show isVariant 'l' 'i' = false by decide,
      show isVariant 'l' 'I' = false by decide]

theorem read?_eq_some_iff {before : Option Char} {cs rest : List Char} {k : Keyword} :
    read? before cs = some (k, rest) ↔
      cs = k.text ++ rest ∧ k.WellFormed ∧ Text.wordMayBegin before = true := by
  constructor
  · intro h
    obtain ⟨hread, hbegin⟩ := Option.filter_eq_some_iff.1 h
    obtain ⟨word, hmem, hword⟩ := List.exists_of_findSome?_eq_some hread
    obtain ⟨heq, hspell, hblank⟩ := readWord?_eq_some_iff.1 hword
    exact ⟨heq, ⟨⟨word, hmem, (spells_iff hmem).2 hspell⟩, hblank⟩, hbegin⟩
  · rintro ⟨rfl, ⟨⟨word, hmem, hspell⟩, hblank⟩, hbegin⟩
    have hread : readWord? word (k.text ++ rest) = some (k, rest) :=
      readWord?_eq_some_iff.2 ⟨rfl, (spells_iff hmem).1 hspell, hblank⟩
    refine Option.filter_eq_some_iff.2 ⟨?_, hbegin⟩
    simp only [words, List.mem_cons, List.not_mem_nil, or_false] at hmem
    rcases hmem with rfl | rfl
    · simp [words, hread]
    · simp [words, hread, readWord?_in_eq_some hread]

theorem read?_eq_none_of_not_isVariant {before : Option Char} {c : Char} {cs : List Char}
    (hl : isVariant 'l' c = false) (hi : isVariant 'i' c = false) :
    read? before (c :: cs) = none := by
  simp [read?, words, readWord?, takeWord?, hl, hi]

theorem take_eq_iff {before : Option Char} {cs rest : List Char} {keyword : Option Keyword} :
    take before cs = (keyword, rest) ↔
      cs = keyword.elim [] text ++ rest ∧
        (∀ k ∈ keyword, k.WellFormed ∧ Text.wordMayBegin before = true) ∧
        (keyword = none → read? before cs = none) := by
  unfold take
  cases hread : read? before cs with
  | none =>
    constructor
    · intro h
      cases h
      simp
    · rintro ⟨hcs, hk, -⟩
      cases keyword with
      | none => simp at hcs; simp [hcs]
      | some k =>
        have hsome := read?_eq_some_iff.2 ⟨hcs, hk k rfl⟩
        simp [hread] at hsome
  | some found =>
    obtain ⟨k, behind⟩ := found
    obtain ⟨hcs, hformed, hbegin⟩ := read?_eq_some_iff.1 hread
    constructor
    · intro h
      cases h
      exact ⟨hcs, by simp [hformed, hbegin], by simp⟩
    · rintro ⟨hcs', hk, hnone⟩
      cases keyword with
      | none => simp at hnone
      | some k' =>
        have hsome := read?_eq_some_iff.2 ⟨hcs', hk k' rfl⟩
        rw [hread] at hsome
        cases hsome
        rfl

end Keyword

/-! ## Bodies -/

namespace Body

/-- A body of the grammar: some digits, some name characters, or in braces something that holds no
closing brace. -/
def WellFormed : Body → Prop
  | index digits => digits ≠ [] ∧ ∀ c ∈ digits, c.isDigit = true
  | name identifier => identifier ≠ [] ∧ ∀ c ∈ identifier, isNameChar c = true
  | expression _ source => source ≠ [] ∧ '}' ∉ source

def EndsAt : Body → List Char → Prop
  | index _, rest => ∀ c ∈ rest.head?, c.isDigit = false
  | name _, rest => ∀ c ∈ rest.head?, isNameChar c = false
  | expression _ _, _ => True

instance : DecidablePred WellFormed
  | index digits =>
    decidable_of_iff (digits ≠ [] ∧ digits.all Char.isDigit = true) (by simp [WellFormed])
  | name identifier =>
    decidable_of_iff (identifier ≠ [] ∧ identifier.all isNameChar = true) (by simp [WellFormed])
  | expression _ source => inferInstanceAs (Decidable (source ≠ [] ∧ '}' ∉ source))

instance (b : Body) (rest : List Char) : Decidable (b.EndsAt rest) :=
  match b with
  | index _ => decidable_of_iff (rest.head?.all fun c => !c.isDigit) (by
      simp [EndsAt, Option.all_eq_true])
  | name _ => decidable_of_iff (rest.head?.all fun c => !isNameChar c) (by
      simp [EndsAt, Option.all_eq_true])
  | expression _ _ => inferInstanceAs (Decidable True)

theorem EndsAt.of_head?_eq {b : Body} {cs cs' : List Char} (h : b.EndsAt cs)
    (hhead : cs'.head? = cs.head?) : b.EndsAt cs' := by
  cases b with
  | index digits =>
    intro c hc
    rw [hhead] at hc
    exact h c hc
  | name identifier =>
    intro c hc
    rw [hhead] at hc
    exact h c hc
  | expression sign source => trivial

theorem endsAt_congr {cs cs' : List Char} (h : cs'.head? = cs.head?) (b : Body) :
    b.EndsAt cs' ↔ b.EndsAt cs :=
  ⟨fun hends => hends.of_head?_eq h.symm, fun hends => hends.of_head?_eq h⟩

theorem endsAt_of_forall_head? {cs : List Char} (h : ∀ c ∈ cs.head?, isNameChar c = false)
    (b : Body) : b.EndsAt cs := by
  cases b with
  | index digits => exact fun c hc => isDigit_eq_false_of_isNameChar_eq_false (h c hc)
  | name identifier => exact h
  | expression sign source => trivial

def sign : Body → Sign
  | index _ => .question
  | name _ => .colon
  | expression sign _ => sign

theorem text_eq_sign_cons (b : Body) : b.text = b.sign.char :: b.text.tail := by
  cases b <;> rfl

theorem readExpression?_eq_some_iff {sign : Sign} {cs rest : List Char} {b : Body} :
    readExpression? sign cs = some (b, rest) ↔
      ∃ source, b = expression sign source ∧ b.WellFormed ∧
        cs = '#' :: '{' :: source ++ '}' :: rest := by
  constructor
  · intro h
    unfold readExpression? at h
    split at h
    · rename_i cs
      split at h
      · rename_i c source brace behind htake hdrop
        cases h
        obtain ⟨hcs, hsource, hbrace⟩ :=
          Text.takeWhile_eq_and_dropWhile_eq_iff.1 ⟨htake, hdrop⟩
        have hclose : brace = '}' := by simpa using hbrace brace rfl
        refine ⟨c :: source, rfl, ⟨by simp, ?_⟩, by rw [hcs, hclose]; rfl⟩
        intro hmem
        simpa using hsource '}' hmem
      · cases h
    · cases h
  · rintro ⟨source, rfl, ⟨hne, hbrace⟩, rfl⟩
    obtain ⟨htake, hdrop⟩ : (source ++ '}' :: rest).takeWhile (· != '}') = source ∧
        (source ++ '}' :: rest).dropWhile (· != '}') = '}' :: rest := by
      refine Text.takeWhile_eq_and_dropWhile_eq_iff.2 ⟨rfl, ?_, by simp⟩
      intro c hc
      have hne : c ≠ '}' := fun h => hbrace (h ▸ hc)
      simpa using hne
    obtain ⟨c, source, rfl⟩ := List.exists_cons_of_ne_nil hne
    simp only [List.cons_append] at htake hdrop
    simp only [List.cons_append, readExpression?, htake, hdrop]

/-- The reader of bodies accepts the bodies of the grammar, with the longest run. -/
theorem read?_eq_some_iff {cs rest : List Char} {b : Body} :
    read? cs = some (b, rest) ↔ cs = b.text ++ rest ∧ b.WellFormed ∧ b.EndsAt rest := by
  constructor
  · intro h
    refine ⟨eq_append_of_read? h, ?_⟩
    unfold read? at h
    split at h
    · rename_i cs
      split at h
      · obtain ⟨source, rfl, hformed, -⟩ := readExpression?_eq_some_iff.1 h
        exact ⟨hformed, trivial⟩
      · rename_i d digits htake
        cases h
        obtain ⟨-, hdigits, hrest⟩ := Text.takeWhile_eq_and_dropWhile_eq_iff.1 ⟨htake, rfl⟩
        exact ⟨⟨by simp, hdigits⟩, hrest⟩
    · rename_i cs
      split at h
      · obtain ⟨source, rfl, hformed, -⟩ := readExpression?_eq_some_iff.1 h
        exact ⟨hformed, trivial⟩
      · rename_i c identifier htake
        cases h
        obtain ⟨-, hname, hrest⟩ := Text.takeWhile_eq_and_dropWhile_eq_iff.1 ⟨htake, rfl⟩
        exact ⟨⟨by simp, hname⟩, hrest⟩
    · cases h
  · rintro ⟨rfl, hformed, hrest⟩
    cases b with
    | index digits =>
      obtain ⟨hne, hdigits⟩ := hformed
      obtain ⟨htake, hdrop⟩ := Text.takeWhile_eq_and_dropWhile_eq_iff.2 ⟨rfl, hdigits, hrest⟩
      obtain ⟨d, digits, rfl⟩ := List.exists_cons_of_ne_nil hne
      simp only [text, List.cons_append, read?, htake, hdrop] at *
    | name identifier =>
      obtain ⟨hne, hname⟩ := hformed
      obtain ⟨htake, hdrop⟩ := Text.takeWhile_eq_and_dropWhile_eq_iff.2 ⟨rfl, hname, hrest⟩
      obtain ⟨c, identifier, rfl⟩ := List.exists_cons_of_ne_nil hne
      simp only [text, List.cons_append, read?, htake, hdrop] at *
    | expression sign source =>
      have hread : readExpression? sign ('#' :: '{' :: source ++ '}' :: rest) =
          some (expression sign source, rest) :=
        readExpression?_eq_some_iff.2 ⟨source, rfl, hformed, rfl⟩
      cases sign with
      | question => simpa [text, Sign.char, read?, Char.isDigit] using hread
      | colon =>
        have hsharp : isNameChar '#' = false := by decide
        simpa [text, Sign.char, read?, hsharp] using hread

theorem WellFormed.eq_of_text_eq {b b' : Body} (h : b.WellFormed) (h' : b'.WellFormed)
    (htext : b.text = b'.text) : b = b' := by
  have hends (b : Body) : b.EndsAt [] := by cases b <;> simp [EndsAt]
  have hread := read?_eq_some_iff.2 ⟨rfl, h, hends b⟩
  have hread' := read?_eq_some_iff.2 ⟨rfl, h', hends b'⟩
  rw [htext, hread'] at hread
  cases hread
  rfl

end Body

/-! ## Placeholders -/

namespace Placeholder

/-- The placeholder is one of the grammar when it is written behind the character `before` and in
front of `rest`. -/
structure Fits (before : Option Char) (p : Placeholder) (rest : List Char) : Prop where
  keyword : ∀ k ∈ p.keyword, k.WellFormed ∧ Text.wordMayBegin before = true
  body : p.body.WellFormed
  body_ends : p.body.EndsAt (Text.optional p.trailing '%' ++ p.back ++ rest)
  trailing : p.trailing = false → (p.back ++ rest).head? ≠ some '%'
  closed : p.closed = false → rest.head? ≠ some ')'

theorem Fits.wellFormed_keyword {before : Option Char} {p : Placeholder} {rest : List Char}
    (h : p.Fits before rest) : ∀ k ∈ p.keyword, k.WellFormed :=
  fun k hk => (h.keyword k hk).1

theorem read?_eq_some_iff_parts {before : Option Char} {cs rest : List Char} {p : Placeholder} :
    read? before cs = some (p, rest) ↔
      ∃ cs₁ cs₂ cs₃ cs₄ cs₅ cs₆, Keyword.take before cs = (p.keyword, cs₁) ∧
        Text.takeChar ' ' cs₁ = (p.spaced, cs₂) ∧ Text.takeChar '(' cs₂ = (p.opened, cs₃) ∧
        Text.takeChar '%' cs₃ = (p.leading, cs₄) ∧ Body.read? cs₄ = some (p.body, cs₅) ∧
        Text.takeChar '%' cs₅ = (p.trailing, cs₆) ∧ Text.takeChar ')' cs₆ = (p.closed, rest) := by
  constructor
  · intro h
    simp only [read?] at h
    split at h
    · cases h
    · rename_i body behind hbody
      cases h
      exact ⟨_, _, _, _, _, _, rfl, rfl, rfl, rfl, hbody, rfl, rfl⟩
  · rintro ⟨cs₁, cs₂, cs₃, cs₄, cs₅, cs₆, hkeyword, hspaced, hopened, hleading, hbody, htrailing,
      hclosed⟩
    simp only [read?, hkeyword, hspaced, hopened, hleading, hbody, htrailing, hclosed]

/-- The reader of placeholders accepts the placeholders of the grammar. -/
theorem read?_eq_some_iff {before : Option Char} {cs rest : List Char} {p : Placeholder} :
    read? before cs = some (p, rest) ↔ cs = p.text ++ rest ∧ p.Fits before rest := by
  constructor
  · intro h
    refine ⟨eq_text_append_of_read? h, ?_⟩
    obtain ⟨cs₁, cs₂, cs₃, cs₄, cs₅, cs₆, hkeyword, -, -, -, hbody, htrailing, hclosed⟩ :=
      read?_eq_some_iff_parts.1 h
    obtain ⟨-, hformed, -⟩ := Keyword.take_eq_iff.1 hkeyword
    obtain ⟨-, hbodyFormed, hends⟩ := Body.read?_eq_some_iff.1 hbody
    obtain ⟨rfl, hpercent⟩ := Text.takeChar_eq_iff.1 htrailing
    obtain ⟨rfl, hparen⟩ := Text.takeChar_eq_iff.1 hclosed
    exact ⟨hformed, hbodyFormed, by simpa [back] using hends, hpercent, hparen⟩
  · rintro ⟨rfl, hfits⟩
    have hsign := p.body.text_eq_sign_cons
    have hbody := Body.read?_eq_some_iff.2 ⟨rfl, hfits.body, hfits.body_ends⟩
    -- behind the keyword each sign is read by what stands there, down to the sign of the body
    refine read?_eq_some_iff_parts.2
      ⟨Text.optional p.spaced ' ' ++ (Text.optional p.opened '(' ++ (Text.optional p.leading '%' ++
        (p.body.text ++ (Text.optional p.trailing '%' ++ p.back ++ rest)))), _, _, _, _,
        p.back ++ rest, Keyword.take_eq_iff.2 ⟨?_, hfits.keyword, ?_⟩,
        Text.takeChar_eq_iff.2 ⟨rfl, ?_⟩, Text.takeChar_eq_iff.2 ⟨rfl, ?_⟩,
        Text.takeChar_eq_iff.2 ⟨rfl, ?_⟩, hbody,
        Text.takeChar_eq_iff.2 ⟨List.append_assoc .., hfits.trailing⟩,
        Text.takeChar_eq_iff.2 ⟨rfl, hfits.closed⟩⟩
    · simp [text, front, decorated]
    · intro hnone
      have htext : p.text ++ rest = Text.optional p.spaced ' ' ++ (Text.optional p.opened '(' ++
          (Text.optional p.leading '%' ++
            (p.body.text ++ (Text.optional p.trailing '%' ++ p.back ++ rest)))) := by
        simp [text, front, decorated, hnone]
      rw [htext, hsign]
      cases p.spaced <;> cases p.opened <;> cases p.leading <;> cases p.body.sign <;>
        exact Keyword.read?_eq_none_of_not_isVariant (by decide) (by decide)
    · intro _
      rw [hsign]
      cases p.opened <;> cases p.leading <;> cases p.body.sign <;>
        simp [Text.optional, Sign.char]
    · intro _
      rw [hsign]
      cases p.leading <;> cases p.body.sign <;> simp [Text.optional, Sign.char]
    · intro _
      rw [hsign]
      cases p.body.sign <;> simp [Sign.char]

end Placeholder

end QueryParams
