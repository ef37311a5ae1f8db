import MMRelay.Lib.PyValue

/-!
# Values that differ at some keys only

Two dictionaries with the same keys in the same order, whose values are equal but for those of
some keys, which are related. Whatever reads other keys finds the same in both.

* `Alike`;
* `Alike.key?_eq`, `Alike.field_eq`, `Alike.get_eq`, `Alike.getItem_eq`: what other keys hold;
* **`Alike.field`**: what those keys hold is related.
-/

namespace MMRelay

/-- Equal, or dictionaries that differ at the keys only, where their values are related. -/
inductive Alike (keys : List String) (R : Py → Py → Prop) : Py → Py → Prop
  | same (v : Py) : Alike keys R v v
  | dict {kvs kvs' : List (String × Py)} :
    List.Forall₂ (fun a b => a.1 = b.1 ∧ (a.2 = b.2 ∨ (a.1 ∈ keys ∧ R a.2 b.2))) kvs kvs' →
      Alike keys R (.dict kvs) (.dict kvs')

namespace Alike

variable {keys : List String} {R : Py → Py → Prop} {v v' : Py} {k : String}

theorem isDict_eq (h : Alike keys R v v') : v.isDict = v'.isDict := by
  cases h <;> rfl

theorem isNone_eq (h : Alike keys R v v') : v.isNone = v'.isNone := by
  cases h <;> rfl

theorem truthy_eq (h : Alike keys R v v') : v.truthy = v'.truthy := by
  cases h with
  | same => rfl
  | dict h => cases h <;> rfl

theorem lookup_eq {kvs kvs' : List (String × Py)}
    (h : List.Forall₂ (fun a b => a.1 = b.1 ∧ (a.2 = b.2 ∨ (a.1 ∈ keys ∧ R a.2 b.2))) kvs kvs')
    (hk : k ∉ keys) : kvs.lookup k = kvs'.lookup k := by
  induction h with
  | nil => rfl
  | @cons a b as bs hab _ ih =>
    obtain ⟨key, value⟩ := a
    obtain ⟨key', value'⟩ := b
    obtain ⟨rfl, hvalue⟩ := hab
    rw [List.lookup_cons, List.lookup_cons, ih]
    by_cases hkey : k = key
    · obtain rfl | ⟨hmem, -⟩ := hvalue
      · rfl
      · exact absurd (hkey ▸ hmem) hk
    · have hne : (k == key) = false := by simpa using hkey
      rw [hne]

theorem lookup_rel {kvs kvs' : List (String × Py)}
    (h : List.Forall₂ (fun a b => a.1 = b.1 ∧ (a.2 = b.2 ∨ (a.1 ∈ keys ∧ R a.2 b.2))) kvs kvs')
    (k : String) : kvs.lookup k = kvs'.lookup k ∨
      ∃ a b, kvs.lookup k = some a ∧ kvs'.lookup k = some b ∧ R a b := by
  induction h with
  | nil => exact .inl rfl
  | @cons a b as bs hab _ ih =>
    obtain ⟨key, value⟩ := a
    obtain ⟨key', value'⟩ := b
    obtain ⟨rfl, hvalue⟩ := hab
    rw [List.lookup_cons, List.lookup_cons]
    by_cases hkey : k = key
    · subst hkey
      rw [beq_self_eq_true]
      obtain rfl | ⟨-, hR⟩ := hvalue
      · exact .inl rfl
      · exact .inr ⟨value, value', rfl, rfl, hR⟩
    · have hne : (k == key) = false := by simpa using hkey
      rw [hne]
      exact ih

theorem key?_eq (h : Alike keys R v v') (hk : k ∉ keys) : v.key? k = v'.key? k := by
  cases h with
  | same => rfl
  | dict h => exact lookup_eq h hk

theorem field_eq (h : Alike keys R v v') (hk : k ∉ keys) : v.field k = v'.field k := by
  rw [Py.field, Py.field, h.key?_eq hk]

theorem get_eq (h : Alike keys R v v') (hk : k ∉ keys) (default : Py) :
    v.get k default = v'.get k default := by
  cases h with
  | same => rfl
  | dict h => rw [Py.get, Py.get, lookup_eq h hk]

theorem getItem_eq (h : Alike keys R v v') (hk : k ∉ keys) : v.getItem k = v'.getItem k := by
  cases h with
  | same => rfl
  | dict h =>
    simp only [Py.getItem, lookup_eq h hk]

theorem getD (h : Alike keys R v v') (hR : ∀ x, R x x) (k : String) (default : Py) :
    R ((v.key? k).getD default) ((v'.key? k).getD default) := by
  cases h with
  | same => exact hR _
  | dict h =>
    obtain heq | ⟨a, b, ha, hb, hab⟩ := lookup_rel h k
    · rw [Py.key?, Py.key?, heq]
      exact hR _
    · rw [Py.key?, Py.key?, ha, hb]
      exact hab

theorem field (h : Alike keys R v v') (hR : ∀ x, R x x) (k : String) :
    R (v.field k) (v'.field k) := h.getD hR k .none

end Alike

end MMRelay
