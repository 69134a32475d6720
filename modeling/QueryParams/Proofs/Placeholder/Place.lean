import QueryParams.Proofs.Placeholder.Division
import QueryParams.Proofs.Placeholder.Grammar

/-!
# Where the grammar has a placeholder

A placeholder or a bare body stands at an offset of a text when it is cut out there and fits between
its neighbours, and when the colon of a name is neither the second one of two nor escaped. The
signs `?` and `:` occur in a placeholder at the beginning of its body and inside the source of an
expression only.
-/

namespace QueryParams

namespace Body

/-- A literal name does not count behind a colon or a backslash. -/
def LiveBehind (before : Option Char) : Body → Prop
  | name _ => before ≠ some ':' ∧ before ≠ some '\\'
  | index _ | expression _ _ => True

instance (before : Option Char) (b : Body) : Decidable (b.LiveBehind before) :=
  match b with
  | name _ => inferInstanceAs (Decidable (before ≠ some ':' ∧ before ≠ some '\\'))
  | index _ | expression _ _ => inferInstanceAs (Decidable True)

def StandsAt (text : List Char) (offset : Nat) (b : Body) : Prop :=
  ∃ earlier later, text = earlier ++ b.text ++ later ∧ offset = Text.width earlier ∧
    b.WellFormed ∧ b.EndsAt later ∧ b.LiveBehind earlier.getLast?

end Body

theorem Body.liveBehind_some {c : Char} (hcolon : c ≠ ':') (hbackslash : c ≠ '\\') (b : Body) :
    b.LiveBehind (some c) := by
  cases b <;> simp [LiveBehind, hcolon, hbackslash]

namespace Placeholder

def lead (p : Placeholder) : List Char := p.front ++ Text.optional p.leading '%'

def trail (p : Placeholder) : List Char := Text.optional p.trailing '%' ++ p.back

theorem text_eq (p : Placeholder) : p.text = p.lead ++ p.body.text ++ p.trail := by
  simp [text, decorated, lead, trail]

theorem decorated_ne_nil (p : Placeholder) : p.decorated ≠ [] := by
  have hbody := p.body.text_ne_nil
  simp [decorated, hbody]

theorem width_text (p : Placeholder) :
    Text.width p.text =
      Text.width p.front + Text.width p.decorated + Text.width p.back := by
  rw [text, Text.width_append, Text.width_append]

def StandsAt (text : List Char) (offset : Nat) (p : Placeholder) : Prop :=
  ∃ earlier later, text = earlier ++ p.text ++ later ∧ offset = Text.width earlier ∧
    p.Fits earlier.getLast? later ∧ p.body.LiveBehind (earlier ++ p.lead).getLast?

theorem isEscaped_eq_false_iff {before : Option Char} {p : Placeholder} :
    p.isEscaped before = false ↔ p.body.LiveBehind (p.lead.getLast?.or before) := by
  unfold isEscaped
  cases p.body <;> simp [Body.LiveBehind, beforeBody, lead]

theorem readUnescaped?_eq_some_iff {before : Option Char} {cs rest : List Char} {p : Placeholder} :
    readUnescaped? before cs = some (p, rest) ↔
      cs = p.text ++ rest ∧ p.Fits before rest ∧ p.body.LiveBehind (p.lead.getLast?.or before) := by
  rw [readUnescaped?, Option.filter_eq_some_iff, read?_eq_some_iff, Bool.not_eq_true',
    isEscaped_eq_false_iff, and_assoc]

theorem standsAt_width_iff {earlier cs : List Char} {p : Placeholder} :
    p.StandsAt (earlier ++ cs) (Text.width earlier) ↔
      ∃ rest, readUnescaped? earlier.getLast? cs = some (p, rest) := by
  constructor
  · intro h
    obtain ⟨before, rest, htext, hwidth, hfits, hlive⟩ := h
    rw [List.append_assoc] at htext
    obtain ⟨rfl, rfl⟩ := Text.eq_of_width_eq htext hwidth
    rw [List.getLast?_append] at hlive
    exact ⟨rest, readUnescaped?_eq_some_iff.2 ⟨rfl, hfits, hlive⟩⟩
  · intro h
    obtain ⟨rest, hread⟩ := h
    obtain ⟨rfl, hfits, hlive⟩ := readUnescaped?_eq_some_iff.1 hread
    refine ⟨earlier, rest, by rw [List.append_assoc], rfl, hfits, ?_⟩
    rwa [List.getLast?_append]

theorem StandsAt.unique {text : List Char} {offset : Nat} {p p' : Placeholder}
    (h : p.StandsAt text offset) (h' : p'.StandsAt text offset) : p = p' := by
  obtain ⟨earlier, later, rfl, rfl, -⟩ := id h
  rw [List.append_assoc] at h h'
  obtain ⟨rest, hread⟩ := standsAt_width_iff.1 h
  obtain ⟨rest', hread'⟩ := standsAt_width_iff.1 h'
  cases hread.symm.trans hread'
  rfl

/-- Where the grammar has a body behind the signs that `q` has in front of its own, a placeholder is
read that consists of these signs, this body and what belongs to it behind. -/
theorem exists_readUnescaped?_of_lead {before : Option Char} {q : Placeholder} {b : Body}
    {rest : List Char} (hkeyword : ∀ k ∈ q.keyword, k.WellFormed ∧ Text.wordMayBegin before = true)
    (hformed : b.WellFormed) (hends : b.EndsAt rest)
    (hlive : b.LiveBehind (q.lead.getLast?.or before)) :
    ∃ p rest', readUnescaped? before (q.lead ++ (b.text ++ rest)) = some (p, rest') ∧
      p.lead = q.lead ∧ p.body = b := by
  obtain ⟨⟨trailing, rest₁⟩, htrailing⟩ : ∃ r, Text.takeChar '%' rest = r := ⟨_, rfl⟩
  obtain ⟨⟨closed, rest₂⟩, hclosed⟩ : ∃ r, Text.takeChar ')' rest₁ = r := ⟨_, rfl⟩
  obtain ⟨rfl, hpercent⟩ := Text.takeChar_eq_iff.1 htrailing
  obtain ⟨rfl, hparen⟩ := Text.takeChar_eq_iff.1 hclosed
  refine ⟨{ q with body := b, trailing := trailing, closed := closed }, rest₂,
    readUnescaped?_eq_some_iff.2 ⟨?_, ⟨hkeyword, hformed, ?_, hpercent, hparen⟩, hlive⟩, rfl, rfl⟩
  · simp [text, front, decorated, back, lead]
  · rwa [List.append_assoc]

theorem exists_readUnescaped?_of_body {before : Option Char} {b : Body} {rest : List Char}
    (hformed : b.WellFormed) (hends : b.EndsAt rest) (hlive : b.LiveBehind before) :
    ∃ p rest', readUnescaped? before (b.text ++ rest) = some (p, rest') := by
  obtain ⟨p, rest', hread, -⟩ :=
    @exists_readUnescaped?_of_lead before ⟨none, false, false, false, b, false, false⟩ b rest
      (by simp) hformed hends hlive
  exact ⟨p, rest', hread⟩

end Placeholder

/-! ## Where the signs are -/

namespace Keyword

def letters : List Char := ['l', 'L', 'i', 'I', 'k', 'K', '\u212a', 'e', 'E', 'n', 'N']

theorem mem_letters_of_mem_foldings {letter c : Char} (h : c ∈ foldings letter) : c ∈ letters := by
  unfold foldings at h
  split at h <;> simp only [List.mem_cons, List.not_mem_nil, or_false] at h <;>
    simp only [letters, List.mem_cons, List.not_mem_nil, or_false] <;> tauto

theorem mem_letters_of_spells {word written : List Char} (h : Spells word written) {c : Char}
    (hc : c ∈ written) : c ∈ letters := by
  unfold Spells at h
  induction h with
  | nil => cases hc
  | cons hfirst _ ih =>
    rcases List.mem_cons.1 hc with rfl | hc
    · exact mem_letters_of_mem_foldings hfirst
    · exact ih hc

theorem mem_letters_of_mem_word {k : Keyword} (hk : k.WellFormed) {c : Char} (hc : c ∈ k.word) :
    c ∈ letters := by
  obtain ⟨word, -, hspell⟩ := hk.word
  exact mem_letters_of_spells hspell hc

end Keyword

namespace Body

/-- A sign stands in a body at its beginning or inside the source of an expression. -/
theorem eq_nil_or_of_text_eq {b : Body} (hb : b.WellFormed) {s : Sign} {inner outer : List Char}
    (h : b.text = inner ++ s.char :: outer) :
    inner = [] ∨ ∃ sign before behind, b = expression sign (before ++ s.char :: behind) ∧
      inner = sign.char :: '#' :: '{' :: before := by
  cases inner with
  | nil => exact Or.inl rfl
  | cons c inner =>
    right
    cases b with
    | index digits =>
      obtain ⟨-, hdigits⟩ := hb
      cases h
      have hsign := hdigits s.char (by simp)
      cases s <;> exact absurd hsign (by decide)
    | name identifier =>
      obtain ⟨-, hname⟩ := hb
      cases h
      have hsign := hname s.char (by simp)
      cases s <;> exact absurd hsign (by decide)
    | expression sign source =>
      -- the sign is none of the three characters that open the source, nor the one that ends it
      simp only [text, List.cons_append, List.cons.injEq] at h
      obtain ⟨rfl, h⟩ := h
      cases inner with
      | nil => cases s <;> simp [Sign.char] at h
      | cons c inner =>
        simp only [List.cons_append, List.cons.injEq] at h
        obtain ⟨rfl, h⟩ := h
        cases inner with
        | nil => cases s <;> simp [Sign.char] at h
        | cons c inner =>
          simp only [List.cons_append, List.cons.injEq] at h
          obtain ⟨rfl, h⟩ := h
          rcases List.append_eq_append_iff.1 h with
            ⟨between, -, hclose⟩ | ⟨between, hsource, hclose⟩
          · cases between <;> cases s <;> simp [Sign.char] at hclose
          · cases between with
            | nil => cases s <;> simp [Sign.char] at hclose
            | cons c between =>
              cases hclose
              exact ⟨sign, inner, between, by rw [hsource], rfl⟩

end Body

namespace Placeholder

variable {p : Placeholder} {c : Char}

theorem exists_lead_eq (hk : ∀ k ∈ p.keyword, k.WellFormed) :
    ∃ word gap, p.lead = word ++ gap ∧ (∀ c ∈ word, c ∈ Keyword.letters) ∧
      ∀ c ∈ gap, Text.isBlank c = true ∨ c = '(' ∨ c = '%' := by
  have hsigns : ∀ c ∈ Text.optional p.spaced ' ' ++ Text.optional p.opened '(' ++
      Text.optional p.leading '%', Text.isBlank c = true ∨ c = '(' ∨ c = '%' := by
    have hspace : Text.isBlank ' ' = true := by decide
    cases p.spaced <;> cases p.opened <;> cases p.leading <;> simp [Text.optional, hspace]
  cases hkeyword : p.keyword with
  | none => exact ⟨[], _, by simp [lead, front, hkeyword], by simp, hsigns⟩
  | some k =>
    refine ⟨k.word, k.blank :: _, by simp [lead, front, hkeyword, Keyword.text]; rfl, ?_, ?_⟩
    · intro c hc
      exact Keyword.mem_letters_of_mem_word (hk k hkeyword) hc
    · intro c hc
      rcases List.mem_cons.1 hc with rfl | hc
      · exact Or.inl (hk k hkeyword).blank
      · apply hsigns
        simpa using hc

theorem mem_lead (hk : ∀ k ∈ p.keyword, k.WellFormed) (hc : c ∈ p.lead) :
    c ∈ Keyword.letters ∨ Text.isBlank c = true ∨ c = '(' ∨ c = '%' := by
  obtain ⟨word, gap, hlead, hword, hgap⟩ := exists_lead_eq hk
  rw [hlead] at hc
  rcases List.mem_append.1 hc with hc | hc
  · exact Or.inl (hword c hc)
  · exact Or.inr (hgap c hc)

theorem mem_trail (hc : c ∈ p.trail) : c = '%' ∨ c = ')' := by
  simp only [trail, back, List.mem_append] at hc
  cases p.trailing <;> cases p.closed <;> simp [Text.optional] at hc <;> tauto

theorem sign_not_mem_lead (hk : ∀ k ∈ p.keyword, k.WellFormed) (s : Sign) : s.char ∉ p.lead := by
  intro hc
  have hcases := mem_lead hk hc
  cases s <;> exact absurd hcases (by decide)

theorem sign_not_mem_trail (s : Sign) : s.char ∉ p.trail := by
  intro hc
  have hcases := mem_trail hc
  cases s <;> exact absurd hcases (by decide)

/-- A sign stands in a placeholder at the beginning of its body or inside an expression. -/
theorem eq_lead_or_of_text_eq (hk : ∀ k ∈ p.keyword, k.WellFormed) (hb : p.body.WellFormed)
    {s : Sign} {inner outer : List Char} (h : p.text = inner ++ s.char :: outer) :
    inner = p.lead ∨ ∃ sign before behind, p.body = .expression sign (before ++ s.char :: behind) ∧
      inner = p.lead ++ sign.char :: '#' :: '{' :: before := by
  rw [text_eq, List.append_assoc] at h
  rcases List.append_eq_append_iff.1 h with ⟨between, rfl, hbody⟩ | ⟨between, hlead, hbody⟩
  · rcases List.append_eq_append_iff.1 hbody with ⟨rest, -, htrail⟩ | ⟨rest, htext, hrest⟩
    · have hmem : s.char ∈ p.trail := by rw [htrail]; simp
      exact absurd hmem (sign_not_mem_trail s)
    · cases rest with
      | nil =>
        have hmem : s.char ∈ p.trail := by
          rw [List.nil_append] at hrest
          rw [← hrest]
          simp
        exact absurd hmem (sign_not_mem_trail s)
      | cons c rest =>
        cases hrest
        rcases Body.eq_nil_or_of_text_eq hb htext with rfl | ⟨sign, before, behind, hexpr, rfl⟩
        · exact Or.inl (List.append_nil _)
        · exact Or.inr ⟨sign, before, behind, hexpr, rfl⟩
  · cases between with
    | nil => exact Or.inl (by rw [hlead, List.append_nil])
    | cons c between =>
      cases hbody
      have hmem : s.char ∈ p.lead := by rw [hlead]; simp
      exact absurd hmem (sign_not_mem_lead hk s)

end Placeholder

end QueryParams
