import QueryParams.Binding.Error

/-!
# The registry of bindings

The bindings of a query in the order in which they were first seen, one for each key. To register an
equal binding again changes nothing; a different one with the same key is refused.
-/

namespace QueryParams

/-- Bindings in the order in which they were first seen, no two of them with one key. -/
structure Registry where
  bindings : List Binding := []
  keys_nodup : (bindings.map Binding.key).Nodup := by decide
  deriving DecidableEq, Repr

namespace Registry

def empty : Registry := {}

def find? (r : Registry) (key : Key) : Option Binding := r.bindings.find? (·.key = key)

def size (r : Registry) : Nat := r.bindings.length

def isEmpty (r : Registry) : Bool := r.bindings.isEmpty

theorem find?_eq_none_iff {r : Registry} {key : Key} :
    r.find? key = none ↔ key ∉ r.bindings.map Binding.key := by
  simp [find?]

def push (r : Registry) (binding : Binding) (h : r.find? binding.key = none) : Registry where
  bindings := r.bindings ++ [binding]
  keys_nodup := by
    rw [List.map_append, List.nodup_append]
    refine ⟨r.keys_nodup, by simp, ?_⟩
    intro key hkey other hother heq
    rw [List.map_singleton, List.mem_singleton] at hother
    exact find?_eq_none_iff.1 h (hother ▸ heq ▸ hkey)

/-- Adds a binding at the end, unless it is there already. -/
def register (r : Registry) (binding : Binding) : Except BindingError Registry :=
  match h : r.find? binding.key with
  | none => .ok (r.push binding h)
  | some existing =>
    if existing = binding then .ok r else .error (.conflictingBinding existing binding)

end Registry

end QueryParams
