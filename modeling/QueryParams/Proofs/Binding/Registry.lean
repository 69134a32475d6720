import Mathlib.Data.List.Nodup
import QueryParams.Binding.Registry
import QueryParams.Proofs.Refusal

/-!
# Registering many bindings

Bindings registered one after another into an empty registry leave the first binding of each key, in
the order of these first ones. They all go through exactly if no two of them differ under one key.
-/

namespace QueryParams

namespace Binding

/-- The first binding of each key, in the order in which the keys are first seen. -/
def firstOfEachKey : List Binding → List Binding
  | [] => []
  | b :: bs => b :: (firstOfEachKey bs).filter (·.key ≠ b.key)

def Agree (bs : List Binding) : Prop := ∀ b ∈ bs, ∀ b' ∈ bs, b.key = b'.key → b = b'

theorem find?_key_of_agree {bs : List Binding} (h : Agree bs) {b : Binding} (hb : b ∈ bs) :
    bs.find? (·.key = b.key) = some b := by
  cases hfind : bs.find? (·.key = b.key) with
  | none =>
    have hnone := List.find?_eq_none.1 hfind b hb
    simp at hnone
  | some found =>
    have hmem := List.mem_of_find?_eq_some hfind
    have hkey := List.find?_some hfind
    rw [h found hmem b hb (by simpa using hkey)]

theorem nodup_keys_firstOfEachKey (bs : List Binding) :
    ((firstOfEachKey bs).map key).Nodup := by
  induction bs with
  | nil => exact List.nodup_nil
  | cons first bs ih =>
    rw [firstOfEachKey, List.map_cons, List.nodup_cons]
    constructor
    · intro hmem
      obtain ⟨b, hb, hkey⟩ := List.mem_map.1 hmem
      simpa [hkey] using (List.mem_filter.1 hb).2
    · exact ih.sublist (List.filter_sublist.map key)

theorem agree_of_nodup_keys {bs : List Binding} (h : (bs.map key).Nodup) : Agree bs := by
  intro b hb b' hb' hkey
  exact List.inj_on_of_nodup_map h hb hb' hkey

theorem mem_of_mem_firstOfEachKey {bs : List Binding} {b : Binding}
    (h : b ∈ firstOfEachKey bs) : b ∈ bs := by
  induction bs with
  | nil => cases h
  | cons first bs ih =>
    rcases List.mem_cons.1 h with rfl | h
    · exact List.mem_cons_self
    · exact List.mem_cons_of_mem _ (ih (List.mem_filter.1 h).1)

theorem find?_firstOfEachKey (k : Key) (bs : List Binding) :
    (firstOfEachKey bs).find? (·.key = k) = bs.find? (·.key = k) := by
  induction bs with
  | nil => rfl
  | cons first bs ih =>
    rw [firstOfEachKey]
    by_cases hk : first.key = k
    · simp [hk]
    · rw [List.find?_cons_of_neg (by simpa using hk), List.find?_cons_of_neg (by simpa using hk),
        ← ih, List.find?_filter]
      apply congrArg fun p => (firstOfEachKey bs).find? p
      funext b
      by_cases hb : b.key = k
      · simp [hb, Ne.symm hk]
      · simp [hb]

theorem firstOfEachKey_concat (bs : List Binding) (b : Binding) :
    firstOfEachKey (bs ++ [b]) =
      match bs.find? (·.key = b.key) with
      | none => firstOfEachKey bs ++ [b]
      | some _ => firstOfEachKey bs := by
  induction bs with
  | nil => rfl
  | cons first bs ih =>
    rw [List.cons_append, firstOfEachKey, ih, firstOfEachKey]
    by_cases hk : first.key = b.key
    · rw [List.find?_cons_of_pos (by simpa using hk)]
      cases bs.find? (·.key = b.key) <;> simp [hk]
    · rw [List.find?_cons_of_neg (by simpa using hk)]
      cases bs.find? (·.key = b.key) <;> simp [Ne.symm hk]

theorem firstOfEachKey_map {f : Binding → Binding} (hf : ∀ b, (f b).key = b.key)
    (bs : List Binding) : firstOfEachKey (bs.map f) = (firstOfEachKey bs).map f := by
  induction bs with
  | nil => rfl
  | cons first bs ih =>
    rw [List.map_cons, firstOfEachKey, firstOfEachKey, List.map_cons, ih, List.filter_map, hf]
    apply congrArg fun p => f first :: ((firstOfEachKey bs).filter p).map f
    funext b
    rw [Function.comp_apply, hf]

theorem Agree.map {f : Binding → Binding} (hf : ∀ b, (f b).key = b.key) {bs : List Binding}
    (h : Agree bs) : Agree (bs.map f) := by
  intro c hc c' hc' hkey
  obtain ⟨b, hb, rfl⟩ := List.mem_map.1 hc
  obtain ⟨b', hb', rfl⟩ := List.mem_map.1 hc'
  rw [hf, hf] at hkey
  rw [h b hb b' hb' hkey]

theorem agree_concat_iff {bs : List Binding} {b : Binding} :
    Agree (bs ++ [b]) ↔ Agree bs ∧ ∀ existing ∈ bs.find? (·.key = b.key), existing = b := by
  constructor
  · intro h
    constructor
    · intro c hc c' hc'
      exact h c (by simp [hc]) c' (by simp [hc'])
    · intro existing hexisting
      have hmem := List.mem_of_find?_eq_some hexisting
      have hkey := List.find?_some hexisting
      exact h existing (by simp [hmem]) b (by simp) (by simpa using hkey)
  · intro h
    have hlast : ∀ c ∈ bs, c.key = b.key → c = b := by
      intro c hc hkey
      exact h.2 c (by rw [← hkey]; exact find?_key_of_agree h.1 hc)
    intro c hc c' hc' hkey
    rcases List.mem_append.1 hc with hc | hc <;> rcases List.mem_append.1 hc' with hc' | hc'
    · exact h.1 c hc c' hc' hkey
    · have hb' := List.mem_singleton.1 hc'
      exact (hlast c hc (by rw [hkey, hb'])).trans hb'.symm
    · have hb := List.mem_singleton.1 hc
      exact hb.trans (hlast c' hc' (by rw [← hkey, hb])).symm
    · rw [List.mem_singleton.1 hc, List.mem_singleton.1 hc']

def conflict? (earlier : List Binding) (b : Binding) : Option BindingError :=
  (earlier.find? (·.key = b.key)).bind fun existing =>
    if existing = b then none else some (.conflictingBinding existing b)

theorem conflict?_eq_some_iff {earlier : List Binding} {b : Binding} {e : BindingError} :
    conflict? earlier b = some e ↔
      ∃ existing, earlier.find? (·.key = b.key) = some existing ∧ existing ≠ b ∧
        e = .conflictingBinding existing b := by
  simp [conflict?, Option.bind_eq_some_iff, @eq_comm _ e]

end Binding

namespace Registry

open Binding

@[ext] theorem ext_bindings {r r' : Registry} (h : r.bindings = r'.bindings) : r = r' := by
  cases r
  cases r'
  cases h
  rfl

theorem find?_of_bindings_eq {r : Registry} {earlier : List Binding}
    (hr : r.bindings = firstOfEachKey earlier) (key : Key) :
    r.find? key = earlier.find? (·.key = key) := by
  rw [find?, hr, find?_firstOfEachKey]

theorem register_of_find?_eq_none {r : Registry} {b : Binding} (h : r.find? b.key = none) :
    r.register b = .ok (r.push b h) := by
  unfold register
  split
  · rfl
  · rename_i existing hsome
    cases h.symm.trans hsome

theorem register_of_find?_eq_some {r : Registry} {b existing : Binding}
    (h : r.find? b.key = some existing) :
    r.register b = if existing = b then .ok r else .error (.conflictingBinding existing b) := by
  unfold register
  split
  · rename_i hnone
    cases h.symm.trans hnone
  · rename_i existing' hsome
    cases h.symm.trans hsome
    rfl

theorem register_eq_ok_iff {r r' : Registry} {b : Binding} {earlier : List Binding}
    (hr : r.bindings = firstOfEachKey earlier) :
    r.register b = .ok r' ↔
      (∀ existing ∈ earlier.find? (·.key = b.key), existing = b) ∧
        r'.bindings = firstOfEachKey (earlier ++ [b]) := by
  rw [firstOfEachKey_concat, ← find?_of_bindings_eq hr, ← hr]
  cases hfind : r.find? b.key with
  | none =>
    rw [register_of_find?_eq_none hfind, Except.ok.injEq]
    constructor
    · intro h
      rw [← h]
      exact ⟨by simp, rfl⟩
    · intro h
      exact ext_bindings h.2.symm
  | some existing =>
    rw [register_of_find?_eq_some hfind]
    by_cases hexisting : existing = b
    · rw [if_pos hexisting, Except.ok.injEq]
      constructor
      · intro h
        rw [h]
        exact ⟨by simpa using hexisting, rfl⟩
      · intro h
        exact ext_bindings h.2.symm
    · simp [hexisting]

theorem register_eq_error_iff {r : Registry} {b : Binding} {e : BindingError}
    {earlier : List Binding} (hr : r.bindings = firstOfEachKey earlier) :
    r.register b = .error e ↔ conflict? earlier b = some e := by
  rw [conflict?, ← find?_of_bindings_eq hr]
  cases hfind : r.find? b.key with
  | none => simp [register_of_find?_eq_none hfind]
  | some existing =>
    rw [register_of_find?_eq_some hfind]
    by_cases hexisting : existing = b <;> simp [hexisting]

/-- A run: bindings are registered one after another over those that came before them. -/
theorem foldlM_register_eq_ok_iff {r r' : Registry} {bs earlier : List Binding}
    (hr : r.bindings = firstOfEachKey earlier) (hagree : Agree earlier) :
    bs.foldlM register r = .ok r' ↔
      Agree (earlier ++ bs) ∧ r'.bindings = firstOfEachKey (earlier ++ bs) := by
  induction bs generalizing r earlier with
  | nil =>
    rw [List.foldlM_nil, List.append_nil, ← hr]
    constructor
    · intro h
      cases h
      exact ⟨hagree, rfl⟩
    · intro h
      exact congrArg Except.ok (ext_bindings h.2.symm)
  | cons b bs ih =>
    have hassoc : earlier ++ b :: bs = earlier ++ [b] ++ bs := by simp
    rw [List.foldlM_cons, bind_eq_ok_iff, hassoc]
    constructor
    · intro h
      obtain ⟨next, hstep, hrun⟩ := h
      obtain ⟨hsame, hnext⟩ := (register_eq_ok_iff hr).1 hstep
      exact (ih hnext (agree_concat_iff.2 ⟨hagree, hsame⟩)).1 hrun
    · intro h
      have hprefix : Agree (earlier ++ [b]) := by
        intro c hc c' hc'
        exact h.1 c (List.mem_append_left _ hc) c' (List.mem_append_left _ hc')
      have hnodup := nodup_keys_firstOfEachKey (earlier ++ [b])
      exact ⟨⟨_, hnodup⟩, (register_eq_ok_iff hr).2 ⟨(agree_concat_iff.1 hprefix).2, rfl⟩,
        (ih rfl hprefix).2 h⟩

theorem foldlM_register_empty_eq_ok_iff {r : Registry} {bs : List Binding} :
    bs.foldlM register .empty = .ok r ↔ Agree bs ∧ r.bindings = firstOfEachKey bs :=
  @foldlM_register_eq_ok_iff .empty r bs [] rfl (by simp [Agree])

theorem exists_foldlM_register_empty_iff {bs : List Binding} :
    (∃ r, bs.foldlM register .empty = .ok r) ↔ Agree bs := by
  constructor
  · intro h
    obtain ⟨r, hr⟩ := h
    exact (foldlM_register_empty_eq_ok_iff.1 hr).1
  · intro h
    exact ⟨⟨_, nodup_keys_firstOfEachKey bs⟩, foldlM_register_empty_eq_ok_iff.2 ⟨h, rfl⟩⟩

end Registry

end QueryParams
