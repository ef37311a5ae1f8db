import Mathlib.Data.List.Nodup
import Mathlib.Tactic.Common

/-!
# Insertion-ordered dictionaries

A Python dictionary as the list of its items: an assignment keeps the place of a key that is
there and appends a new one.

* `dictSet`, `dictPop`, `dictGet?`, `dictUpdate`;
* `lookup_dictSet`, `lookup_dictPop`, `nodup_dictSet`, `nodup_dictPop`: what the two leave;
* **`lookup_eq_some_iff_mem`**: with distinct keys, what is looked up is what is stored;
* `lookup_dictUpdate`, **`dictUpdate_again`**: an update with distinct keys, and the same one again.
-/

namespace MMRelay

variable {κ α : Type} [DecidableEq κ]

/-- `d[k] = v`. -/
def dictSet : List (κ × α) → κ → α → List (κ × α)
  | [], k, v => [(k, v)]
  | item :: items, k, v => if item.1 = k then (k, v) :: items else item :: dictSet items k v

/-- `d.pop(k, None)`. -/
def dictPop (d : List (κ × α)) (k : κ) : List (κ × α) := d.filter fun item => item.1 ≠ k

/-- `d.get(k)`. -/
def dictGet? (d : List (κ × α)) (k : κ) : Option α := d.lookup k

variable {d : List (κ × α)} {k : κ} {v : α}

theorem lookup_dictSet (d : List (κ × α)) (k : κ) (v : α) (k' : κ) :
    (dictSet d k v).lookup k' = if k' = k then some v else d.lookup k' := by
  induction d with
  | nil =>
    by_cases h : k' = k
    · simp [dictSet, h]
    · have hne : (k' == k) = false := by simpa using h
      simp [dictSet, List.lookup_cons, hne, h]
  | cons item items ih =>
    obtain ⟨key, old⟩ := item
    unfold dictSet
    by_cases hk : key = k
    · rw [if_pos hk]
      by_cases h : k' = k
      · simp [h]
      · have hne : (k' == k) = false := by simpa using h
        have hne' : (k' == key) = false := by rw [hk]; exact hne
        rw [if_neg h, List.lookup_cons, hne, List.lookup_cons, hne']
    · rw [if_neg hk, List.lookup_cons, List.lookup_cons, ih]
      by_cases h : k' = key
      · have hne : k' ≠ k := by rw [h]; exact hk
        rw [if_neg hne]
        simp [h, hk]
      · have hne : (k' == key) = false := by simpa using h
        rw [hne]

theorem lookup_dictPop (d : List (κ × α)) (k k' : κ) :
    (dictPop d k).lookup k' = if k' = k then none else d.lookup k' := by
  unfold dictPop
  induction d with
  | nil => simp
  | cons item items ih =>
    obtain ⟨key, old⟩ := item
    by_cases hk : key = k
    · rw [List.filter_cons_of_neg (by simpa using hk), ih, List.lookup_cons]
      by_cases h : k' = k
      · rw [if_pos h, if_pos h]
      · have hne : (k' == key) = false := by rw [hk]; simpa using h
        rw [if_neg h, if_neg h, hne]
    · rw [List.filter_cons_of_pos (by simpa using hk), List.lookup_cons, List.lookup_cons, ih]
      by_cases h : k' = key
      · simp [h, hk]
      · have hne : (k' == key) = false := by simpa using h
        rw [hne]

theorem map_fst_dictSet (d : List (κ × α)) (k : κ) (v : α) :
    (dictSet d k v).map Prod.fst =
      if k ∈ d.map Prod.fst then d.map Prod.fst else d.map Prod.fst ++ [k] := by
  induction d with
  | nil => simp [dictSet]
  | cons item items ih =>
    unfold dictSet
    by_cases hk : item.1 = k
    · simp [hk]
    · rw [if_neg hk, List.map_cons, ih, List.map_cons]
      have hne : ¬ k = item.1 := fun h => hk h.symm
      by_cases hmem : k ∈ items.map Prod.fst
      · rw [if_pos hmem, if_pos (List.mem_cons_of_mem _ hmem)]
      · rw [if_neg hmem, if_neg (by simpa [hne] using hmem), List.cons_append]

theorem nodup_dictSet (h : (d.map Prod.fst).Nodup) : ((dictSet d k v).map Prod.fst).Nodup := by
  rw [map_fst_dictSet]
  split_ifs with hmem
  · exact h
  · exact h.append (List.nodup_singleton k) (by simpa using hmem)

theorem nodup_dictPop (h : (d.map Prod.fst).Nodup) : ((dictPop d k).map Prod.fst).Nodup :=
  h.sublist ((List.filter_sublist (l := d)).map _)

/-- **Lookup.** With distinct keys, what is looked up is what is stored. -/
theorem lookup_eq_some_iff_mem (h : (d.map Prod.fst).Nodup) :
    d.lookup k = some v ↔ (k, v) ∈ d := by
  induction d with
  | nil => simp
  | cons item items ih =>
    obtain ⟨key, old⟩ := item
    rw [List.map_cons, List.nodup_cons] at h
    rw [List.lookup_cons, List.mem_cons]
    by_cases hk : k = key
    · subst hk
      simp only [beq_self_eq_true, Option.some.injEq]
      constructor
      · rintro rfl
        exact Or.inl rfl
      · rintro (heq | hmem)
        · exact (congrArg Prod.snd heq).symm
        · exact absurd (List.mem_map_of_mem hmem) h.1
    · have hne : (k == key) = false := by simpa using hk
      rw [hne]
      simp only [ih h.2]
      constructor
      · exact Or.inr
      · rintro (heq | hmem)
        · exact absurd (congrArg Prod.fst heq) hk
        · exact hmem

theorem dictGet?_eq_some_iff_mem (h : (d.map Prod.fst).Nodup) :
    dictGet? d k = some v ↔ (k, v) ∈ d := lookup_eq_some_iff_mem h

theorem dictGet?_dictSet (d : List (κ × α)) (k : κ) (v : α) (k' : κ) :
    dictGet? (dictSet d k v) k' = if k' = k then some v else dictGet? d k' :=
  lookup_dictSet d k v k'

theorem dictGet?_dictPop (d : List (κ × α)) (k k' : κ) :
    dictGet? (dictPop d k) k' = if k' = k then none else dictGet? d k' :=
  lookup_dictPop d k k'

theorem mem_of_dictGet?_eq_some (h : dictGet? d k = some v) : k ∈ d.map Prod.fst := by
  by_contra hmem
  have hnone : d.lookup k = none := by
    rw [List.lookup_eq_none_iff]
    intro entry hentry
    have hne : k ≠ entry.1 := fun heq => hmem (heq ▸ List.mem_map_of_mem hentry)
    simpa using hne
  exact absurd (hnone.symm.trans h) (by simp)

theorem notMem_of_dictGet?_eq_none (h : dictGet? d k = none) : k ∉ d.map Prod.fst := by
  intro hmem
  obtain ⟨entry, hentry, rfl⟩ := List.mem_map.1 hmem
  exact absurd (List.lookup_eq_none_iff.1 h entry hentry) (by simp)

theorem dictSet_of_notMem (h : k ∉ d.map Prod.fst) (v : α) : dictSet d k v = d ++ [(k, v)] := by
  induction d with
  | nil => rfl
  | cons item items ih =>
    rw [List.map_cons, List.mem_cons, not_or] at h
    rw [dictSet, if_neg (Ne.symm h.1), ih h.2, List.cons_append]

theorem dictSet_of_lookup (h : d.lookup k = some v) : dictSet d k v = d := by
  induction d with
  | nil => cases h
  | cons item items ih =>
    obtain ⟨key, old⟩ := item
    rw [List.lookup_cons] at h
    unfold dictSet
    by_cases hk : key = k
    · subst hk
      rw [beq_self_eq_true] at h
      rw [if_pos rfl, Option.some.inj h]
    · have hne : (k == key) = false := by simpa using Ne.symm hk
      rw [hne] at h
      rw [if_neg hk, ih h]

/-- `d.update(e)`. -/
def dictUpdate (d e : List (κ × α)) : List (κ × α) :=
  e.foldl (fun d item => dictSet d item.1 item.2) d

variable {e : List (κ × α)}

theorem lookup_dictUpdate (he : (e.map Prod.fst).Nodup) (d : List (κ × α)) (k : κ) :
    (dictUpdate d e).lookup k = (e.lookup k).or (d.lookup k) := by
  induction e generalizing d with
  | nil => rfl
  | cons item items ih =>
    obtain ⟨key, new⟩ := item
    rw [List.map_cons, List.nodup_cons] at he
    have hrest : (dictUpdate d ((key, new) :: items)).lookup k =
        (items.lookup k).or ((dictSet d key new).lookup k) := ih he.2 _
    rw [hrest, lookup_dictSet, List.lookup_cons]
    by_cases hk : k = key
    · subst hk
      have hnone : items.lookup k = none := by
        rw [List.lookup_eq_none_iff]
        intro entry hentry
        have hne : k ≠ entry.1 := fun h => he.1 (h ▸ List.mem_map.mpr ⟨entry, hentry, rfl⟩)
        simpa using hne
      rw [hnone, if_pos rfl, beq_self_eq_true]
      rfl
    · have hne : (k == key) = false := by simpa using hk
      rw [if_neg hk, hne]

theorem dictUpdate_of_agree (h : ∀ item ∈ e, d.lookup item.1 = some item.2) :
    dictUpdate d e = d := by
  induction e with
  | nil => rfl
  | cons item items ih =>
    show dictUpdate (dictSet d item.1 item.2) items = d
    rw [dictSet_of_lookup (h item List.mem_cons_self)]
    exact ih fun entry hentry => h entry (List.mem_cons_of_mem item hentry)

/-- **The same update again changes nothing.** -/
theorem dictUpdate_again (he : (e.map Prod.fst).Nodup) (d : List (κ × α)) :
    dictUpdate (dictUpdate d e) e = dictUpdate d e := by
  refine dictUpdate_of_agree fun item hitem => ?_
  rw [lookup_dictUpdate he, (lookup_eq_some_iff_mem he).mpr hitem]
  rfl

end MMRelay
