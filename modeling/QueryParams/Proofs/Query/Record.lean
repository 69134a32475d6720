import QueryParams.Proofs.Binding.Registry
import QueryParams.Proofs.Json.Reader
import QueryParams.Query.Record

/-!
# Nothing is lost in JSON

What a binding or a query is written as can be read back, and what is read shows every part of it:
which member holds the key and whether there are members for an expression and a wildcard say the
same as the cases of the binding. So no two bindings have one text, and no two queries have, be it
on one line or on indented lines.

Main statement: `toJson_text_inj`.
-/

namespace QueryParams

/-! ## The parts of a binding -/

def Kind.label : Kind → String
  | plain => "plain"
  | like _ => "like"
  | collection => "in"

theorem Wildcard.label_injective {w w' : Wildcard} (h : w.label = w'.label) : w = w' := by
  cases w <;> cases w' <;> simp_all [label]

theorem Key.member_injective {key key' : Key} (h : key.member = key'.member) : key = key' := by
  cases key with
  | name identifier => cases key' <;> simp_all [member]
  | position index =>
    cases key' with
    | name identifier => simp [member] at h
    | position index' =>
      have hvalue : (index.toNat : Int) = index'.toNat := by simpa [member] using h
      rw [UInt32.toNat_inj.1 (Int.ofNat_inj.1 hvalue)]

def optionalMember (name : String) (part : Option String) : List (String × Json) :=
  (part.map fun text => (name, Json.string text)).toList

theorem optionalMember_injective {name : String} {part part' : Option String}
    (h : optionalMember name part = optionalMember name part') : part = part' := by
  cases part <;> cases part' <;> simp_all [optionalMember]

namespace Binding

variable {b b' : Binding}

def sortedMembers (b : Binding) : List (String × Json) :=
  optionalMember "expression" b.expression ++
    ("kind", Json.string b.kind.label) :: b.key.member ::
      optionalMember "wildcard" (b.wildcard?.map Wildcard.label)

theorem sorted_toJson (b : Binding) : b.toJson.sorted = .object b.sortedMembers := by
  obtain ⟨key, kind, expression⟩ := b
  cases key <;> cases kind <;> cases expression <;>
    simp only [toJson, sortedMembers, optionalMember, Key.member, Kind.members, Kind.label,
      wildcard?, Json.sorted, Json.ofMembers, Json.insertMember, Option.map_none, Option.map_some,
      Option.toList_none, Option.toList_some, List.nil_append, List.cons_append, List.map_cons,
      List.map_nil, List.foldl_cons, List.foldl_nil, String.reduceLT, String.reduceEq, ↓reduceIte]

theorem kind_eq_of_label_eq (hlabel : b.kind.label = b'.kind.label)
    (hwildcard : b.wildcard?.map Wildcard.label = b'.wildcard?.map Wildcard.label) :
    b.kind = b'.kind := by
  unfold wildcard? at hwildcard
  cases hkind : b.kind <;> cases hkind' : b'.kind <;>
    simp_all [Kind.label]
  exact Wildcard.label_injective hwildcard

/-- The name of the first member tells whether there is an expression. -/
theorem expression_eq_of_sortedMembers_eq (h : b.sortedMembers = b'.sortedMembers) :
    b.expression = b'.expression := by
  unfold sortedMembers at h
  cases hb : b.expression <;> cases hb' : b'.expression <;>
    simp_all [optionalMember]

theorem sortedMembers_injective (h : b.sortedMembers = b'.sortedMembers) : b = b' := by
  have hexpression := expression_eq_of_sortedMembers_eq h
  rw [sortedMembers, sortedMembers, hexpression] at h
  obtain ⟨hlabel, h⟩ := List.cons.inj (List.append_cancel_left h)
  obtain ⟨hmember, hwildcard⟩ := List.cons.inj h
  have hkey := Key.member_injective hmember
  have hkind := kind_eq_of_label_eq (by simpa using hlabel) (optionalMember_injective hwildcard)
  obtain ⟨key, kind, expression⟩ := b
  cases hkey
  cases hkind
  cases hexpression
  rfl

theorem toJson_sorted_injective (h : b.toJson.sorted = b'.toJson.sorted) : b = b' := by
  rw [sorted_toJson, sorted_toJson, Json.object.injEq] at h
  exact sortedMembers_injective h

theorem readable_toJson (b : Binding) (depth : Nat) : Json.Readable (depth + 1) b.toJson := by
  refine .object fun member hmember => ?_
  simp only [List.mem_append, List.mem_cons, Option.mem_toList, Option.map_eq_some_iff] at hmember
  rcases hmember with (rfl | ⟨source, -, rfl⟩) | hmember
  · cases hkey : b.key with
    | name identifier => exact .string
    | position index => exact .integer (Or.inr ⟨index.toUInt64, rfl⟩)
  · exact .string
  · cases hkind : b.kind <;> simp only [hkind, Kind.members, List.mem_cons, List.not_mem_nil,
      or_false] at hmember
    · subst hmember
      exact .string
    · rcases hmember with rfl | rfl <;> exact .string
    · subst hmember
      exact .string

end Binding

/-! ## Queries -/

namespace ParsedQuery

variable {q q' : ParsedQuery}

theorem sorted_toJson (q : ParsedQuery) :
    q.toJson.sorted = .object [
      ("bindings", .array (q.bindings.map fun b => b.toJson.sorted)),
      ("query", .string q.text),
      ("uses_paging", .bool q.usesPaging)] := by
  simp only [toJson, Json.sorted, Json.ofMembers, Json.insertMember, List.map_cons, List.map_nil,
    List.map_map, List.foldl_cons, List.foldl_nil, String.reduceLT, String.reduceEq, ↓reduceIte]
  rfl

theorem toJson_sorted_injective (h : q.toJson.sorted = q'.toJson.sorted) : q = q' := by
  rw [sorted_toJson, sorted_toJson] at h
  simp only [Json.object.injEq, List.cons.injEq, Prod.mk.injEq, Json.array.injEq,
    Json.string.injEq, Json.bool.injEq, true_and, and_true] at h
  obtain ⟨hbindings, htext, hpaging⟩ := h
  have hregistry : q.registry = q'.registry := by
    refine Registry.ext_bindings ((List.map_inj_right fun _ _ => ?_).1 hbindings)
    exact Binding.toJson_sorted_injective
  cases q
  cases hregistry
  cases htext
  cases hpaging
  rfl

theorem readable_toJson (q : ParsedQuery) (depth : Nat) : Json.Readable (depth + 3) q.toJson := by
  refine .object fun member hmember => ?_
  simp only [List.mem_cons, List.not_mem_nil, or_false] at hmember
  rcases hmember with rfl | rfl | rfl
  · exact .string
  · refine .array fun j hj => ?_
    obtain ⟨b, -, rfl⟩ := List.mem_map.1 hj
    exact b.readable_toJson depth
  · exact .bool

end ParsedQuery

/-! ## Texts -/

namespace Json

variable {j j' : Json}

/-- The text of a readable tree determines the tree up to the order of members. -/
theorem sorted_eq_of_write_eq {style : Style} (hstyle : style.IsBlank)
    (h : Readable greatestDepth j) (h' : Readable greatestDepth j')
    (heq : String.ofList (write style 0 j) = String.ofList (write style 0 j')) :
    j.sorted = j'.sorted := by
  have hread := read?_write hstyle h
  rw [heq, read?_write hstyle h'] at hread
  exact (Option.some.inj hread).symm

end Json

theorem Binding.write_toJson_inj {style : Json.Style} (hstyle : style.IsBlank) {b b' : Binding} :
    String.ofList (Json.write style 0 b.toJson) = String.ofList (Json.write style 0 b'.toJson) ↔
      b = b' := by
  constructor
  · intro h
    exact toJson_sorted_injective (Json.sorted_eq_of_write_eq hstyle (b.readable_toJson 126)
      (b'.readable_toJson 126) h)
  · intro h
    rw [h]

theorem ParsedQuery.write_toJson_inj {style : Json.Style} (hstyle : style.IsBlank)
    {q q' : ParsedQuery} :
    String.ofList (Json.write style 0 q.toJson) = String.ofList (Json.write style 0 q'.toJson) ↔
      q = q' := by
  constructor
  · intro h
    exact toJson_sorted_injective (Json.sorted_eq_of_write_eq hstyle (q.readable_toJson 124)
      (q'.readable_toJson 124) h)
  · intro h
    rw [h]

/-- Two bindings are equal if their JSON texts are, and two queries as well, on one line and on
indented lines. -/
theorem toJson_text_inj :
    ((∀ b b' : Binding, b.toJson.compact = b'.toJson.compact ↔ b = b') ∧
        ∀ q q' : ParsedQuery, q.toJson.compact = q'.toJson.compact ↔ q = q') ∧
      (∀ b b' : Binding, b.toJson.indented = b'.toJson.indented ↔ b = b') ∧
        ∀ q q' : ParsedQuery, q.toJson.indented = q'.toJson.indented ↔ q = q' := by
  refine ⟨⟨fun b b' => ?_, fun q q' => ?_⟩, fun b b' => ?_, fun q q' => ?_⟩
  · exact Binding.write_toJson_inj Json.Style.isBlank_compact
  · exact ParsedQuery.write_toJson_inj Json.Style.isBlank_compact
  · exact Binding.write_toJson_inj Json.Style.isBlank_indented
  · exact ParsedQuery.write_toJson_inj Json.Style.isBlank_indented

/-- A name that looks like the end of its member and an expression behind it is told apart from this
expression. -/
theorem toJson_text_ne_of_quotes :
    ({ key := .name "x\",\"expression\":\"y" } : Binding).toJson.compact ≠
      ({ key := .name "x", expression := some "y" } : Binding).toJson.compact := by
  intro h
  exact absurd ((toJson_text_inj.1.1 _ _).1 h) (by decide)

end QueryParams
