import Mathlib.Data.List.Nodup
import QueryParams.Command.Arguments
import QueryParams.Command.Run
import QueryParams.Proofs.Binding.Written

/-!
# Keys on the command line

A value is given for a parameter under its key as the query writes it. An argument is split into
this key and the value whatever the value is, and the key finds the binding of the parameter, unless
it is a name that looks like a position: the sign in front, which would tell the two apart, is left
out of account.

Main statement: `Command.findBinding?_written`.
-/

namespace QueryParams

/-! ## The text of a key -/

namespace Key

variable {key : Key}

def bare : Key → List Char
  | .name identifier => identifier.toList
  | .position index => Text.numeral index.toNat

theorem toList_written (key : Key) : key.written.toList = key.body.sign.char :: key.bare := by
  cases key <;> simp [written, bare, body, Body.sign, Sign.char, Text.numeral]

theorem Readable.isNameChar_of_mem_bare (h : key.Readable) {c : Char} (hc : c ∈ key.bare) :
    isNameChar c = true := by
  cases key with
  | name identifier => exact (h identifier rfl).2 c hc
  | position index => exact isNameChar_of_isDigit (Text.isDigit_of_mem_numeral hc)

theorem Readable.bare_ne_nil (h : key.Readable) : key.bare ≠ [] := by
  cases key with
  | name identifier => simpa [bare] using (h identifier rfl).1
  | position index => exact Nat.toDigits_ne_nil

theorem Readable.of_mem_written (h : key.Readable) {c : Char} (hc : c ∈ key.written.toList) :
    Text.isBlank c = false ∧ c ≠ '=' := by
  rw [toList_written] at hc
  rcases List.mem_cons.1 hc with rfl | hc
  · cases key.body.sign <;> decide
  · have hname := h.isNameChar_of_mem_bare hc
    exact ⟨isBlank_eq_false_of_isNameChar hname, ne_of_isNameChar hname (by decide)⟩

/-- The key is a name that is written like this position. -/
def LooksLike (key : Key) (position : UInt32) : Prop :=
  ∃ identifier, key = .name identifier ∧ (∀ c ∈ identifier.toList, c.isDigit = true) ∧
    Text.numeralValue identifier.toList = position.toNat

end Key

theorem ParsedQuery.bindingWith?_key {q : ParsedQuery} {b : Binding} (hb : b ∈ q.bindings) :
    q.bindingWith? b.key = some b := by
  rw [bindingWith?_eq_find?]
  exact Binding.find?_key_of_agree (Binding.agree_of_nodup_keys q.registry.keys_nodup) hb

namespace Command

variable {q : ParsedQuery} {b : Binding} {key : Key}

theorem ofArgument?_written (h : key.Readable) (value : String) :
    Assignment.ofArgument? (key.written ++ "=" ++ value).toList = some ⟨key.written, value⟩ := by
  have hsplit : (key.written ++ "=" ++ value).toList =
      key.written.toList ++ '=' :: value.toList := by
    simp
  obtain ⟨htake, hdrop⟩ := (@Text.takeWhile_eq_and_dropWhile_eq_iff _ (· != '=')
    (key.written.toList ++ '=' :: value.toList) key.written.toList ('=' :: value.toList)).2
      ⟨rfl, fun c hc => by simpa using (h.of_mem_written hc).2, by simp⟩
  rw [hsplit, Assignment.ofArgument?, hdrop, htake,
    Text.trim_eq_self fun c hc => (h.of_mem_written hc).1]
  simp

theorem positionOfKey?_eq_some_iff {bare : List Char} {position : UInt32} (hne : bare ≠ [])
    (hname : ∀ c ∈ bare, isNameChar c = true) :
    positionOfKey? bare = some position ↔
      (∀ c ∈ bare, c.isDigit = true) ∧ Text.numeralValue bare = position.toNat := by
  have hplus : Text.takeChar '+' bare = (false, bare) := by
    refine Text.takeChar_eq_iff.2 ⟨rfl, fun _ hhead => ?_⟩
    exact absurd (hname '+' (List.mem_of_mem_head? hhead)) (by decide)
  rw [positionOfKey?, hplus]
  simp [hne, Text.word?_eq_some_iff]

theorem findBinding?_eq_of_readable (q : ParsedQuery) (h : key.Readable) :
    findBinding? q key.written =
      (positionOfKey? key.bare).elim (q.bindingNamed? (String.ofList key.bare)) q.bindingAt? := by
  have hdrop : key.written.toList.dropWhile (fun c => c == ':' || c == '?') = key.bare := by
    have hsplit : key.written.toList = [key.body.sign.char] ++ key.bare := key.toList_written
    -- one sign is dropped, and no name goes on with another one
    refine (Text.takeWhile_eq_and_dropWhile_eq_iff.2 ⟨hsplit, ?_, ?_⟩).2
    · intro c hc
      rw [List.mem_singleton.1 hc]
      cases key.body.sign <;> rfl
    · intro c hc
      have hname := h.isNameChar_of_mem_bare (List.mem_of_mem_head? hc)
      simp [ne_of_isNameChar hname (show isNameChar ':' = false by decide),
        ne_of_isNameChar hname (show isNameChar '?' = false by decide)]
  rw [findBinding?, hdrop]
  cases positionOfKey? key.bare <;> rfl

theorem findBinding?_of_looksLike {position : UInt32} (q : ParsedQuery) (h : key.Readable)
    (hlooks : key.LooksLike position) : findBinding? q key.written = q.bindingAt? position := by
  obtain ⟨identifier, rfl, hdigits, hvalue⟩ := hlooks
  have hposition := (positionOfKey?_eq_some_iff h.bare_ne_nil
    fun c hc => h.isNameChar_of_mem_bare hc).2 ⟨hdigits, hvalue⟩
  rw [findBinding?_eq_of_readable q h, hposition, Option.elim_some]

theorem findBinding?_of_not_looksLike (q : ParsedQuery) (h : key.Readable)
    (hlooks : ∀ position, ¬ key.LooksLike position) :
    findBinding? q key.written = q.bindingWith? key := by
  have hposition {position : UInt32} := @positionOfKey?_eq_some_iff key.bare position
    h.bare_ne_nil fun c hc => h.isNameChar_of_mem_bare hc
  rw [findBinding?_eq_of_readable q h]
  cases key with
  | name identifier =>
    have hnone : positionOfKey? (Key.bare (.name identifier)) = none := by
      refine Option.eq_none_iff_forall_ne_some.2 fun position hsome => ?_
      obtain ⟨hdigits, hvalue⟩ := hposition.1 hsome
      exact hlooks position ⟨identifier, rfl, hdigits, hvalue⟩
    rw [hnone, Option.elim_none, Key.bare, String.ofList_toList]
    rfl
  | position index =>
    have hsome : positionOfKey? (Key.bare (.position index)) = some index :=
      hposition.2 ⟨fun c hc => Text.isDigit_of_mem_numeral hc, Text.numeralValue_numeral _⟩
    rw [hsome, Option.elim_some]
    rfl

theorem bindingAt?_ne_of_looksLike {position : UInt32} (hlooks : b.key.LooksLike position) :
    q.bindingAt? position ≠ some b := by
  intro hfound
  obtain ⟨identifier, hkey, -⟩ := hlooks
  have hposition := List.find?_some hfound
  simp [Binding.hasPosition, Binding.position?, hkey] at hposition

/-- The assignment that is written with the key of a binding is read as it is written. The key finds
the binding, whatever else the query binds, unless it is a name that looks like a position: it finds
what is bound at this position then. -/
theorem findBinding?_written {query : String} (hparse : ParsedQuery.parse query = .ok q)
    (hb : b ∈ q.bindings) :
    (∀ value : String, Assignment.ofArgument? (b.key.written ++ "=" ++ value).toList =
        some ⟨b.key.written, value⟩) ∧
      (findBinding? q b.key.written = some b ↔ ∀ position, ¬ b.key.LooksLike position) ∧
      ∀ position, b.key.LooksLike position →
        findBinding? q b.key.written = q.bindingAt? position := by
  have hreadable := ParsedQuery.readable_of_mem_bindings hparse hb
  refine ⟨ofArgument?_written hreadable, ?_, fun _ => findBinding?_of_looksLike q hreadable⟩
  constructor
  · intro hfound position hlooks
    rw [findBinding?_of_looksLike q hreadable hlooks] at hfound
    exact bindingAt?_ne_of_looksLike hlooks hfound
  · intro hlooks
    rw [findBinding?_of_not_looksLike q hreadable hlooks, ParsedQuery.bindingWith?_key hb]

theorem findBinding?_written_like :
    ∃ q, ParsedQuery.parse "a = ?1 and b like :x2%" = .ok q ∧
      Assignment.ofArgument? ":x2=c=d".toList = some ⟨":x2", "c=d"⟩ ∧
      findBinding? q ":x2" = some { key := .name "x2", kind := .like .startingWith } := by
  have hparse : ParsedQuery.parse "a = ?1 and b like :x2%" = .ok
      { text := "a = ?1 and b like :x2"
        registry := ⟨[{ key := .position 1 },
          { key := .name "x2", kind := .like .startingWith }], by decide⟩
        usesPaging := false } := by
    decide +kernel
  have hlooks : ∀ position, ¬ Key.LooksLike (.name "x2") position := by
    rintro _ ⟨_, hname, hdigits, -⟩
    cases hname
    exact absurd (hdigits 'x' (by decide)) (by decide)
  obtain ⟨hargument, hfinds, -⟩ := @findBinding?_written _
    { key := .name "x2", kind := .like .startingWith } _ hparse (by decide +kernel)
  exact ⟨_, hparse, hargument "c=d", hfinds.2 hlooks⟩

/-- The key of the second binding finds the first one. -/
theorem name_looks_like_position :
    ∃ q b, ParsedQuery.parse "a = ?1 and b = :1" = .ok q ∧ b ∈ q.bindings ∧
      b.key.written = ":1" ∧ findBinding? q b.key.written = some { key := .position 1 } ∧
      findBinding? q b.key.written ≠ some b := by
  have hparse : ParsedQuery.parse "a = ?1 and b = :1" = .ok
      { text := "a = ?1 and b = :1"
        registry := ⟨[{ key := .position 1 }, { key := .name "1" }], by decide⟩
        usesPaging := false } := by
    decide +kernel
  exact ⟨_, { key := .name "1" }, hparse, by decide +kernel, by decide +kernel, by decide +kernel,
    by decide +kernel⟩

end Command

end QueryParams
