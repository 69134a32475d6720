import QueryParams.Proofs.Placeholder.Place

/-!
# Reading in other surroundings

When something can be read in a text, something can still be read at the same place after the text
behind the next keyword has been exchanged. The keyword separates: it begins a word, so what is read
in front of it does not take its letters for its own keyword, and it ends in a blank, so no run of
digits or name characters goes past it.

Main statement: `Placeholder.exists_readUnescaped?_of_keyword`.
-/

namespace QueryParams

/-! ## The letters of keywords -/

namespace Keyword

theorem isNameChar_of_mem_letters {c : Char} (h : c ∈ letters) : isNameChar c = true := by
  have hall : letters.all isNameChar = true := by decide
  exact List.all_eq_true.1 hall c h

theorem isBlank_eq_false_of_mem_letters {c : Char} (h : c ∈ letters) : Text.isBlank c = false :=
  isBlank_eq_false_of_isNameChar (isNameChar_of_mem_letters h)

theorem wordMayBegin_eq_false_of_mem_letters {c : Char} (h : c ∈ letters) :
    Text.wordMayBegin (some c) = false := by
  have hall : letters.all Text.isWordChar = true := by decide +kernel
  have hword : Text.isWordChar c = true := List.all_eq_true.1 hall c h
  simp [Text.wordMayBegin, hword]

theorem exists_word_eq_cons {k : Keyword} (hk : k.WellFormed) :
    ∃ c cs, k.word = c :: cs ∧ c ∈ letters := by
  obtain ⟨word, hword, hspell⟩ := hk.word
  cases hwritten : k.word with
  | nil =>
    rw [hwritten] at hspell
    cases hspell
    simp [words] at hword
  | cons c cs =>
    refine ⟨c, cs, rfl, mem_letters_of_mem_word hk ?_⟩
    rw [hwritten]
    exact List.mem_cons_self

theorem sign_not_mem_letters (s : Sign) : s.char ∉ letters := by
  cases s <;> decide

end Keyword

theorem Placeholder.wordMayBegin_eq_false_of_lead_eq {p : Placeholder} {before behind : List Char}
    {c : Char} (hk : ∀ k ∈ p.keyword, k.WellFormed) (hc : c ∈ Keyword.letters) (hne : before ≠ [])
    (h : p.lead = before ++ c :: behind) : Text.wordMayBegin before.getLast? = false := by
  obtain ⟨word, gap, hlead, hword, hgap⟩ := exists_lead_eq hk
  have hnot : c ∉ gap := by
    intro hmem
    have hblank := Keyword.isBlank_eq_false_of_mem_letters hc
    rcases hgap c hmem with hcase | rfl | rfl
    · rw [hblank] at hcase
      cases hcase
    · exact absurd hc (by decide)
    · exact absurd hc (by decide)
  rw [hlead] at h
  rcases List.append_eq_append_iff.1 h with ⟨between, -, hgapEq⟩ | ⟨between, hwordEq, -⟩
  · exact absurd (by rw [hgapEq]; simp) hnot
  · rw [List.getLast?_eq_some_getLast hne]
    apply Keyword.wordMayBegin_eq_false_of_mem_letters
    apply hword
    rw [hwordEq]
    exact List.mem_append_left _ (List.getLast_mem hne)

/-! ## Runs and expressions in front of a keyword -/

theorem Keyword.exists_run {k : Keyword} {p : Char → Bool}
    {before behind behind' run rest : List Char} (hblank : p k.blank = false)
    (h : before ++ (k.text ++ behind) = run ++ rest) (hrun : ∀ c ∈ run, p c = true)
    (hrest : ∀ c ∈ rest.head?, p c = false) :
    ∃ rest', before ++ (k.text ++ behind') = run ++ rest' ∧ ∀ c ∈ rest'.head?, p c = false := by
  have hassoc (behind : List Char) :
      before ++ (k.text ++ behind) = (before ++ k.word) ++ k.blank :: behind := by
    simp [text]
  obtain ⟨htake, -⟩ := Text.takeWhile_eq_and_dropWhile_eq_iff.2 ⟨h, hrun, hrest⟩
  have htake' : (before ++ (k.text ++ behind')).takeWhile p = run := by
    rw [← htake, hassoc, hassoc, Text.takeWhile_append_cons_of_neg hblank,
      Text.takeWhile_append_cons_of_neg hblank]
  obtain ⟨heq, -, hhead⟩ := Text.takeWhile_eq_and_dropWhile_eq_iff.1 ⟨htake', rfl⟩
  exact ⟨_, heq, hhead⟩

/-- The two signs that open an expression are no letters, so both stand in front of the keyword. -/
theorem Keyword.exists_eq_open_append {letter : Char} {before cs rest : List Char}
    (hletter : letter ∈ letters) (h : before ++ letter :: cs = '#' :: '{' :: rest) :
    ∃ between, before = '#' :: '{' :: between ∧ between ++ letter :: cs = rest := by
  cases before with
  | nil =>
    obtain ⟨hsharp, -⟩ := List.cons.inj h
    rw [hsharp] at hletter
    exact absurd hletter (by decide)
  | cons sharp before =>
    obtain ⟨hsharp, h⟩ := List.cons.inj h
    cases before with
    | nil =>
      obtain ⟨hbrace, -⟩ := List.cons.inj h
      rw [hbrace] at hletter
      exact absurd hletter (by decide)
    | cons brace between =>
      obtain ⟨hbrace, h⟩ := List.cons.inj h
      exact ⟨between, by rw [hsharp, hbrace], h⟩

theorem Keyword.exists_source {k : Keyword} {before behind behind' source rest : List Char}
    (hk : k.WellFormed) (hclose : '}' ∈ behind → '}' ∈ behind') (hne : source ≠ [])
    (hsource : '}' ∉ source)
    (h : before ++ (k.text ++ behind) = '#' :: '{' :: source ++ '}' :: rest) :
    ∃ source' rest', source' ≠ [] ∧ '}' ∉ source' ∧
      before ++ (k.text ++ behind') = '#' :: '{' :: source' ++ '}' :: rest' := by
  obtain ⟨letter, letters, hword, hletter⟩ := exists_word_eq_cons hk
  have htext (behind : List Char) :
      k.text ++ behind = letter :: (letters ++ k.blank :: behind) := by
    simp [text, hword]
  rw [htext] at h
  obtain ⟨between, rfl, hinner⟩ := exists_eq_open_append hletter h
  have hmem : '}' ∈ between ++ letter :: (letters ++ k.blank :: behind') := by
    have hthere : '}' ∈ between ++ letter :: (letters ++ k.blank :: behind) := by
      rw [hinner]
      simp
    simp only [List.mem_append, List.mem_cons] at hthere ⊢
    tauto
  obtain ⟨source', rest', hsplit, hnot⟩ := List.eq_append_cons_of_mem hmem
  refine ⟨source', rest', ?_, hnot, ?_⟩
  · intro hnil
    rw [hnil, List.nil_append] at hsplit
    -- both texts begin with the same character, which would be the closing brace
    have hhead := congrArg List.head? hsplit
    have hhead' := congrArg List.head? hinner
    simp only [List.head?_append, List.head?_cons] at hhead hhead'
    obtain ⟨c, source, rfl⟩ := List.exists_cons_of_ne_nil hne
    have hfirst : c = '}' := by
      rw [hhead] at hhead'
      simpa using hhead'.symm
    rw [hfirst] at hsource
    exact hsource List.mem_cons_self
  · rw [htext, List.cons_append, List.cons_append, List.cons_append, hsplit]
    rfl

/-! ## Reading in front of a keyword -/

variable {k : Keyword} {behind behind' rest : List Char}

/-- A body whose sign stands in front of a keyword. If it is an expression, it may end elsewhere. -/
theorem Body.exists_read?_of_keyword {c : Char} {cs : List Char} {b : Body} (hk : k.WellFormed)
    (hclose : '}' ∈ behind → '}' ∈ behind')
    (h : read? (c :: (cs ++ (k.text ++ behind))) = some (b, rest)) :
    ∃ b' rest', read? (c :: (cs ++ (k.text ++ behind'))) = some (b', rest') ∧
      ∀ before, b.LiveBehind before → b'.LiveBehind before := by
  obtain ⟨htext, hformed, hends⟩ := read?_eq_some_iff.1 h
  have hname := isNameChar_eq_false_of_isBlank hk.blank
  cases b with
  | index digits =>
    obtain ⟨hsign, hrun⟩ := List.cons.inj htext
    obtain ⟨rest', hrun', hends'⟩ := Keyword.exists_run
      (isDigit_eq_false_of_isNameChar_eq_false hname) hrun hformed.2 hends
    refine ⟨index digits, rest', read?_eq_some_iff.2 ⟨?_, hformed, hends'⟩, fun _ hlive => hlive⟩
    rw [hsign, hrun']
    rfl
  | name identifier =>
    obtain ⟨hsign, hrun⟩ := List.cons.inj htext
    obtain ⟨rest', hrun', hends'⟩ := Keyword.exists_run hname hrun hformed.2 hends
    refine ⟨name identifier, rest', read?_eq_some_iff.2 ⟨?_, hformed, hends'⟩, fun _ hlive => hlive⟩
    rw [hsign, hrun']
    rfl
  | expression sign source =>
    obtain ⟨hsign, hsource⟩ := List.cons.inj htext
    obtain ⟨source', rest', hne, hbrace, hsource'⟩ := Keyword.exists_source hk hclose hformed.1
      hformed.2 (by simpa using hsource)
    refine ⟨expression sign source', rest', read?_eq_some_iff.2 ⟨?_, ⟨hne, hbrace⟩, trivial⟩,
      fun _ _ => trivial⟩
    rw [hsign, hsource']
    simp [text]

namespace Placeholder

theorem exists_append_of_keyword {p : Placeholder} {before cs : List Char} (hk : k.WellFormed)
    (hkeyword : ∀ k ∈ p.keyword, k.WellFormed) (hne : before ≠ [])
    (hbegin : Text.wordMayBegin before.getLast? = true)
    (h : before ++ (k.text ++ behind) = p.lead ++ (p.body.text ++ cs)) :
    ∃ between, before = p.lead ++ p.body.sign.char :: between := by
  obtain ⟨letter, letters, hword, hletter⟩ := Keyword.exists_word_eq_cons hk
  have htext : k.text ++ behind = letter :: (letters ++ k.blank :: behind) := by
    simp [Keyword.text, hword]
  have hsign : letter ≠ p.body.sign.char := by
    intro heq
    rw [heq] at hletter
    exact Keyword.sign_not_mem_letters _ hletter
  rw [htext, p.body.text_eq_sign_cons, List.cons_append] at h
  rcases List.append_eq_append_iff.1 h with ⟨between, hlead, hrest⟩ | ⟨between, hbefore, hrest⟩
  · cases between with
    | nil => exact absurd (List.cons.inj hrest).1 hsign
    | cons c between =>
      obtain ⟨hc, -⟩ := List.cons.inj hrest
      rw [← hc] at hlead
      have hinside := wordMayBegin_eq_false_of_lead_eq hkeyword hletter hne hlead
      rw [hbegin] at hinside
      cases hinside
  · cases between with
    | nil => exact absurd (List.cons.inj hrest).1.symm hsign
    | cons c between =>
      obtain ⟨hc, -⟩ := List.cons.inj hrest
      exact ⟨between, by rw [hbefore, hc]⟩

/-- Whether something can be read in front of a keyword does not depend on what is behind the
keyword, as long as no expression loses its closing brace. -/
theorem exists_readUnescaped?_of_keyword {first : Option Char} {before : List Char}
    {p : Placeholder} (hk : k.WellFormed) (hne : before ≠ [])
    (hbegin : Text.wordMayBegin before.getLast? = true)
    (hclose : '}' ∈ behind → '}' ∈ behind')
    (h : readUnescaped? first (before ++ (k.text ++ behind)) = some (p, rest)) :
    ∃ p' rest', readUnescaped? first (before ++ (k.text ++ behind')) = some (p', rest') := by
  obtain ⟨htext, hfits, hlive⟩ := readUnescaped?_eq_some_iff.1 h
  have hkeyword : ∀ k ∈ p.keyword, k.WellFormed := hfits.wellFormed_keyword
  rw [text_eq, List.append_assoc, List.append_assoc] at htext
  obtain ⟨between, rfl⟩ := exists_append_of_keyword hk hkeyword hne hbegin htext
  rw [List.append_assoc, List.cons_append] at htext
  have hbody : Body.read? (p.body.sign.char :: (between ++ (k.text ++ behind))) =
      some (p.body, p.trail ++ rest) := by
    refine Body.read?_eq_some_iff.2 ⟨List.append_cancel_left htext, hfits.body, hfits.body_ends⟩
  obtain ⟨b', rest', hread', hlive'⟩ := Body.exists_read?_of_keyword hk hclose hbody
  obtain ⟨htext', hformed', hends'⟩ := Body.read?_eq_some_iff.1 hread'
  obtain ⟨p', rest'', hread'', -⟩ :=
    exists_readUnescaped?_of_lead hfits.keyword hformed' hends' (hlive' _ hlive)
  refine ⟨p', rest'', ?_⟩
  rw [List.append_assoc, List.cons_append, htext']
  exact hread''

end Placeholder

end QueryParams
