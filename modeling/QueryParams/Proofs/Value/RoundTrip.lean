import QueryParams.Command.Run
import QueryParams.Proofs.Json.Reader
import QueryParams.Value.Conversion

/-!
# Values read back from their JSON

JSON shows the content of a value, but not its variant: bytes are written as whole numbers, arrays
and lists alike. So a value is read back in a normal form, in which every collection is an array,
as long as its collections are not nested too deeply and none of its numbers is a floating-point
number.

Main statement: `Value.read?_compact_toJson`.
-/

namespace QueryParams.Value

/-! ## Values -/

inductive FloatFree : Value → Prop
  | null : FloatFree null
  | bool {b : Bool} : FloatFree (bool b)
  | int {n : Int64} : FloatFree (int n)
  | text {s : String} : FloatFree (text s)
  | blob {bytes : List UInt8} : FloatFree (blob bytes)
  | array {items : List Value} (h : ∀ item ∈ items, FloatFree item) : FloatFree (array items)
  | list {items : List Value} (h : ∀ item ∈ items, FloatFree item) : FloatFree (list items)

inductive IsNormal : Value → Prop
  | null : IsNormal null
  | bool {b : Bool} : IsNormal (bool b)
  | int {n : Int64} : IsNormal (int n)
  | text {s : String} : IsNormal (text s)
  | array {items : List Value} (h : ∀ item ∈ items, IsNormal item) : IsNormal (array items)

/-- How deeply collections are nested in the value. Bytes are a collection. -/
def levels : Value → Nat
  | null => 0
  | bool _ => 0
  | int _ => 0
  | float _ => 0
  | text _ => 0
  | blob _ => 1
  | array items => (items.map levels).foldr max 0 + 1
  | list items => (items.map levels).foldr max 0 + 1

/-- The value with an array in place of every list, and with an array of whole numbers in place of
bytes. -/
def normal : Value → Value
  | null => null
  | bool b => bool b
  | int n => int n
  | float x => float x
  | text s => text s
  | blob bytes => array (bytes.map fun b => int (Int64.ofNat b.toNat))
  | array items => array (items.map normal)
  | list items => array (items.map normal)

theorem itemsToJson_eq (items : List Value) : itemsToJson items = items.map toJson := by
  induction items with
  | nil => rfl
  | cons item items ih => rw [itemsToJson, ih, List.map_cons]

theorem itemsOfJson_eq (items : List Json) : itemsOfJson items = items.map ofJson := by
  induction items with
  | nil => rfl
  | cons item items ih => rw [itemsOfJson, ih, List.map_cons]

theorem le_foldr_max {f : Value → Nat} {item : Value} {items : List Value} (h : item ∈ items) :
    f item ≤ (items.map f).foldr max 0 := by
  induction items with
  | nil => simp at h
  | cons other items ih =>
    rw [List.map_cons, List.foldr_cons]
    rcases List.mem_cons.1 h with rfl | h
    · exact Nat.le_max_left _ _
    · exact Nat.le_trans (ih h) (Nat.le_max_right _ _)

/-! ## Writing -/

theorem readable_array {items : List Value} {depth : Nat}
    (hlevels : (items.map levels).foldr max 0 + 1 ≤ depth)
    (h : ∀ item ∈ items, ∀ inner, item.levels ≤ inner → Json.Readable inner item.toJson) :
    Json.Readable depth (.array (itemsToJson items)) := by
  obtain ⟨inner, rfl⟩ : ∃ inner, depth = inner + 1 := ⟨depth - 1, by omega⟩
  rw [itemsToJson_eq]
  refine .array fun j hj => ?_
  obtain ⟨item, hitem, rfl⟩ := List.mem_map.1 hj
  have hmax := @le_foldr_max levels item items hitem
  exact h item hitem inner (by omega)

/-- The brackets in the JSON of a value are nested like its collections. -/
theorem FloatFree.readable_toJson {v : Value} {depth : Nat} (h : v.FloatFree)
    (hlevels : v.levels ≤ depth) : Json.Readable depth v.toJson := by
  induction h generalizing depth with
  | null => exact .null
  | bool => exact .bool
  | @int n => exact .integer (Or.inl ⟨n, rfl⟩)
  | text => exact .string
  | @blob bytes =>
    rw [levels] at hlevels
    obtain ⟨inner, rfl⟩ : ∃ inner, depth = inner + 1 := ⟨depth - 1, by omega⟩
    refine .array fun j hj => ?_
    obtain ⟨b, -, rfl⟩ := List.mem_map.1 hj
    exact .integer (Or.inr ⟨b.toUInt64, rfl⟩)
  | array _ ih | list _ ih =>
    rw [levels] at hlevels
    exact readable_array hlevels fun item hitem _ => ih item hitem

theorem FloatFree.sorted_toJson {v : Value} (h : v.FloatFree) : v.toJson.sorted = v.toJson := by
  induction h with
  | null | bool | int | text => rw [toJson, Json.sorted]
  | @blob bytes =>
    rw [toJson, Json.sorted, List.map_map, Json.array.injEq]
    refine List.map_congr_left fun b _ => ?_
    rw [Function.comp_apply, Json.sorted]
  | array _ ih | list _ ih =>
    rw [toJson, Json.sorted, itemsToJson_eq, List.map_map, Json.array.injEq]
    exact List.map_congr_left ih

/-! ## Reading -/

theorem ofInteger_toInt (n : Int64) : ofInteger n.toInt = int n := by
  rw [ofInteger, if_pos, Int64.ofInt_toInt]
  exact ⟨n.minValue_le_toInt, n.toInt_le⟩

theorem ofInteger_byte (b : UInt8) : ofInteger b.toNat = int (Int64.ofNat b.toNat) := by
  have hsize : b.toNat < 256 := b.toNat_lt
  have hlower : Int64.minValue.toInt = -2 ^ 63 := rfl
  have hupper : Int64.maxValue.toInt = 2 ^ 63 - 1 := rfl
  rw [ofInteger, if_pos (by omega), Int64.ofInt_eq_ofNat]

theorem FloatFree.ofJson_toJson {v : Value} (h : v.FloatFree) : ofJson v.toJson = v.normal := by
  induction h with
  | null | bool | text => rw [toJson, ofJson, normal]
  | int => rw [toJson, ofJson, ofInteger_toInt, normal]
  | @blob bytes =>
    rw [toJson, ofJson, itemsOfJson_eq, List.map_map, normal, array.injEq]
    refine List.map_congr_left fun b _ => ?_
    rw [Function.comp_apply, ofJson, ofInteger_byte]
  | array _ ih | list _ ih =>
    rw [toJson, ofJson, itemsOfJson_eq, itemsToJson_eq, List.map_map, normal, array.injEq]
    exact List.map_congr_left ih

theorem map_normal_eq_self_iff {items : List Value} :
    items.map normal = items ↔ ∀ item ∈ items, item.normal = item := by
  have hid : items.map normal = items.map id ↔ ∀ item ∈ items, item.normal = item :=
    List.map_inj_left
  rwa [List.map_id] at hid

theorem FloatFree.normal_eq_self_iff {v : Value} (h : v.FloatFree) :
    v.normal = v ↔ v.IsNormal := by
  constructor
  · intro hnormal
    induction h with
    | null => exact .null
    | bool => exact .bool
    | int => exact .int
    | text => exact .text
    | blob => simp [normal] at hnormal
    | array _ ih =>
      rw [normal, array.injEq, map_normal_eq_self_iff] at hnormal
      exact .array fun item hitem => ih item hitem (hnormal item hitem)
    | list => simp [normal] at hnormal
  · intro hnormal
    clear h
    induction hnormal with
    | null | bool | int | text => rw [normal]
    | array _ ih =>
      rw [normal, array.injEq, map_normal_eq_self_iff]
      exact ih

/-- A value without floating-point numbers, in which collections are nested to fewer than 128
levels, is read back from its JSON in normal form. Only the arrays among collections are in normal
form already. -/
theorem read?_compact_toJson {v : Value} (hfloat : v.FloatFree) (hlevels : v.levels < 128) :
    (∃ j, Json.read? v.toJson.compact = some j ∧ toValue j = v.normal) ∧
      Command.valueOfArgument v.toJson.compact = v.normal ∧ (v.normal = v ↔ v.IsNormal) := by
  have hread : Json.read? v.toJson.compact = some v.toJson := by
    rw [Json.read?_compact (hfloat.readable_toJson (Nat.le_of_lt_succ hlevels)),
      hfloat.sorted_toJson]
  refine ⟨⟨v.toJson, hread, hfloat.ofJson_toJson⟩, ?_, hfloat.normal_eq_self_iff⟩
  rw [Command.valueOfArgument, hread]
  exact hfloat.ofJson_toJson

theorem read?_compact_toJson_nested :
    ∃ j, Json.read? "[[0,255],\"\\\"\\n\",[-9223372036854775808,null]]" = some j ∧
      toValue j =
        array [array [int 0, int 255], text "\"\n", array [int Int64.minValue, null]] := by
  have hfloat : FloatFree
      (list [blob [0, 255], text "\"\n", array [int Int64.minValue, null]]) := by
    have hinner : ∀ item ∈ [int Int64.minValue, null], FloatFree item := by
      simp [FloatFree.int, FloatFree.null]
    refine .list ?_
    simp [FloatFree.blob, FloatFree.text, FloatFree.array hinner]
  have hcompact : (list [blob [0, 255], text "\"\n",
      array [int Int64.minValue, null]]).toJson.compact =
      "[[0,255],\"\\\"\\n\",[-9223372036854775808,null]]" := by
    decide +kernel
  obtain ⟨⟨j, hread, hvalue⟩, -, -⟩ := read?_compact_toJson hfloat (by simp [levels])
  rw [hcompact] at hread
  refine ⟨j, hread, hvalue.trans ?_⟩
  simp [normal]

end QueryParams.Value
