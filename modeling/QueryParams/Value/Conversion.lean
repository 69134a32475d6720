import QueryParams.Value.Record

/-!
# Conversion to values

The types that can be handed over as values of parameters.
-/

namespace QueryParams

/-- Types of which every member is a value for a parameter. -/
class ToValue (α : Type) where
  toValue : α → Value

export ToValue (toValue)

instance : ToValue Value := ⟨id⟩

instance : ToValue Bool := ⟨.bool⟩

instance : ToValue Int64 := ⟨.int⟩

instance : ToValue Int32 := ⟨fun n => .int n.toInt64⟩

instance : ToValue UInt32 := ⟨fun n => .int (Int64.ofNat n.toNat)⟩

instance : ToValue Float := ⟨.float⟩

instance : ToValue String := ⟨.text⟩

instance : ToValue ByteArray := ⟨fun bytes => .blob bytes.data.toList⟩

instance : ToValue Json := ⟨Value.ofJson⟩

instance {α : Type} [ToValue α] : ToValue (Option α) :=
  ⟨fun member => (member.map toValue).getD .null⟩

instance {α : Type} [ToValue α] : ToValue (Array α) :=
  ⟨fun members => .array (members.toList.map toValue)⟩

instance {α : Type} [ToValue α] {n : Nat} : ToValue (Vector α n) :=
  ⟨fun members => toValue members.toArray⟩

end QueryParams
