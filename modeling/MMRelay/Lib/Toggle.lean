import Mathlib.Algebra.Group.Nat.Even
import Mathlib.Data.List.Nodup
import Mathlib.Data.List.Induction
import Mathlib.Data.List.Perm.Basic
import Mathlib.Tactic.Common

/-!
# Cells that conflicting values empty

A cell takes the first value, keeps it while the same value comes again and is emptied by another
one. What a list of values leaves in it depends on their order, unless they are all the same or
all different and even in number.

* `toggle`, `toggles`: one value, a list of values;
* `Uniform`, `Paired`: lists whose order does not matter;
* `toggles_of_uniform`, `toggles_of_paired`: what they leave;
* **`toggles_perm_iff`**: no other list leaves the same in every order.
-/

namespace MMRelay

variable {α : Type} [DecidableEq α]

/-- A value meets a cell. -/
def toggle (cell : Option α) (a : α) : Option α :=
  match cell with
  | none => some a
  | some b => if b = a then some b else none

/-- The values meet the cell one after the other. -/
def toggles (cell : Option α) (l : List α) : Option α := l.foldl toggle cell

@[simp] theorem toggle_none (a : α) : toggle none a = some a := rfl

@[simp] theorem toggle_self (a : α) : toggle (some a) a = some a := if_pos rfl

theorem toggle_of_ne {a b : α} (h : b ≠ a) : toggle (some b) a = none := if_neg h

theorem toggle_eq_or (cell : Option α) (a : α) : toggle cell a = some a ∨ toggle cell a = none := by
  cases cell with
  | none => exact .inl rfl
  | some b =>
    by_cases h : b = a
    · exact .inl (by rw [h, toggle_self])
    · exact .inr (toggle_of_ne h)

@[simp] theorem toggles_nil (cell : Option α) : toggles cell [] = cell := rfl

@[simp] theorem toggles_cons (cell : Option α) (a : α) (l : List α) :
    toggles cell (a :: l) = toggles (toggle cell a) l := rfl

theorem toggles_append (cell : Option α) (l l' : List α) :
    toggles cell (l ++ l') = toggles (toggles cell l) l' := List.foldl_append

theorem toggles_concat (cell : Option α) (l : List α) (a : α) :
    toggles cell (l ++ [a]) = toggle (toggles cell l) a := toggles_append cell l [a]

/-- All values are the same. -/
def Uniform (l : List α) : Prop := ∀ a ∈ l, ∀ b ∈ l, a = b

/-- The values are distinct and even in number. -/
def Paired (l : List α) : Prop := l.Nodup ∧ Even l.length

instance (l : List α) : Decidable (Uniform l) :=
  inferInstanceAs (Decidable (∀ a ∈ l, ∀ b ∈ l, a = b))

instance (l : List α) : Decidable (Paired l) :=
  inferInstanceAs (Decidable (l.Nodup ∧ Even l.length))

omit [DecidableEq α] in
theorem Uniform.perm {l l' : List α} (h : Uniform l) (hp : l.Perm l') : Uniform l' :=
  fun a ha b hb => h a (hp.mem_iff.mpr ha) b (hp.mem_iff.mpr hb)

omit [DecidableEq α] in
theorem Paired.perm {l l' : List α} (h : Paired l) (hp : l.Perm l') : Paired l' :=
  ⟨hp.nodup_iff.mp h.1, hp.length_eq ▸ h.2⟩

omit [DecidableEq α] in
theorem exists_first_other {l : List α} (h : ¬ Uniform l) :
    ∃ a u b v, l = a :: (u ++ b :: v) ∧ (∀ c ∈ u, c = a) ∧ b ≠ a := by
  classical
  cases l with
  | nil => exact absurd (fun a ha => by cases ha) h
  | cons a l =>
    cases hf : l.find? (fun c => decide (c ≠ a)) with
    | none =>
      have same : ∀ b ∈ a :: l, b = a := by
        intro b hb
        rcases List.mem_cons.mp hb with rfl | hb
        · rfl
        · simpa using List.find?_eq_none.mp hf b hb
      exact absurd (fun b hb c hc => (same b hb).trans (same c hc).symm) h
    | some b =>
      obtain ⟨hb, u, v, rfl, hu⟩ := List.find?_eq_some_iff_append.mp hf
      exact ⟨a, u, b, v, rfl, fun c hc => by simpa using hu c hc, of_decide_eq_true hb⟩

/-! ## What a list leaves -/

theorem toggles_some_of_forall {a : α} {l : List α} (h : ∀ b ∈ l, b = a) :
    toggles (some a) l = some a := by
  induction l with
  | nil => rfl
  | cons b l ih =>
    rw [toggles_cons, h b List.mem_cons_self, toggle_self]
    exact ih fun c hc => h c (List.mem_cons_of_mem b hc)

/-- **The same value** stays. -/
theorem toggles_of_uniform {l : List α} (h : Uniform l) : toggles none l = l.head? := by
  cases l with
  | nil => rfl
  | cons a l =>
    exact toggles_some_of_forall fun b hb => h b (List.mem_cons_of_mem a hb) a List.mem_cons_self

omit [DecidableEq α] in
theorem Uniform.head?_perm {l l' : List α} (h : Uniform l) (hp : l.Perm l') :
    l.head? = l'.head? := by
  cases l with
  | nil => rw [hp.nil_eq]
  | cons a l =>
    cases l' with
    | nil => cases hp.symm.nil_eq
    | cons b l' =>
      exact congrArg some (h a List.mem_cons_self b (hp.mem_iff.mpr List.mem_cons_self))

/-- Values that are not the same empty the cell at some time. -/
theorem exists_prefix_none {l : List α} (h : ¬ Uniform l) :
    ∃ pre post, l = pre ++ post ∧ toggles none pre = none ∧ pre ≠ [] := by
  obtain ⟨a, u, b, v, rfl, hu, hne⟩ := exists_first_other h
  refine ⟨a :: u ++ [b], v, by simp, ?_, by simp⟩
  rw [List.cons_append, toggles_cons, toggle_none, toggles_concat, toggles_some_of_forall hu,
    toggle_of_ne hne.symm]

/-- **Distinct values** empty the cell at every second one. -/
theorem toggles_of_nodup (l : List α) (h : l.Nodup) :
    (Even l.length → toggles none l = none) ∧
    (¬ Even l.length → ∃ w b, l = w ++ [b] ∧ toggles none l = some b) := by
  induction l using List.reverseRecOn with
  | nil => exact ⟨fun _ => rfl, fun h => absurd ⟨0, rfl⟩ h⟩
  | append_singleton l a ih =>
    have hl : l.Nodup := h.of_append_left
    have ha : a ∉ l := by
      intro hmem
      exact (List.nodup_append.mp h).2.2 a hmem a (List.mem_singleton_self a) rfl
    rw [toggles_concat, List.length_append, List.length_singleton, Nat.even_add_one]
    constructor
    · intro hodd
      obtain ⟨w, b, rfl, hcell⟩ := (ih hl).2 hodd
      have hne : b ≠ a := fun heq => ha (by simp [heq])
      rw [hcell, toggle_of_ne hne]
    · intro heven
      rw [not_not] at heven
      rw [(ih hl).1 heven]
      exact ⟨l, a, rfl, rfl⟩

theorem toggles_of_paired {l : List α} (h : Paired l) : toggles none l = none :=
  (toggles_of_nodup l h.1).1 h.2

/-! ## Lists whose order matters -/

/-- A value, the value again and another one empty any cell. -/
theorem toggles_twice {a b : α} (h : a ≠ b) (cell : Option α) : toggles cell [a, a, b] = none := by
  rw [toggles_cons, toggles_cons, toggles_cons, toggles_nil]
  rcases toggle_eq_or cell a with hc | hc
  · rw [hc, toggle_self, toggle_of_ne h]
  · rw [hc, toggle_none, toggle_of_ne h]

/-- In another order they leave the first value in any cell. -/
theorem toggles_thrice {a b : α} (h : a ≠ b) (cell : Option α) :
    toggles cell [b, a, a] = some a := by
  rw [toggles_cons, toggles_cons, toggles_cons, toggles_nil]
  rcases toggle_eq_or cell b with hc | hc
  · rw [hc, toggle_of_ne h.symm, toggle_none]
  · rw [hc, toggle_none, toggle_self]

omit [DecidableEq α] in
theorem exists_cons_perm {l : List α} {a : α} (h : a ∈ l) : ∃ l', l.Perm (a :: l') := by
  obtain ⟨u, v, rfl⟩ := List.append_of_mem h
  exact ⟨u ++ v, List.perm_middle⟩

omit [DecidableEq α] in
theorem exists_cons_cons_perm {l : List α} {a b : α} (ha : a ∈ l) (hb : b ∈ l)
    (hne : b ≠ a) : ∃ l', l.Perm (a :: b :: l') := by
  obtain ⟨l₁, h₁⟩ := exists_cons_perm ha
  obtain ⟨l₂, h₂⟩ := exists_cons_perm ((List.mem_cons.mp (h₁.mem_iff.mp hb)).resolve_left hne)
  exact ⟨l₂, h₁.trans (h₂.cons a)⟩

/-- A repeated value can be brought to the end together with another one. -/
theorem exists_perm_of_not_nodup {l : List α} (hd : ¬ l.Nodup) (hu : ¬ Uniform l) :
    ∃ w a b, a ≠ b ∧ l.Perm (w ++ [a, a, b]) := by
  rw [List.nodup_iff_sublist] at hd
  push Not at hd
  obtain ⟨a, hsub⟩ := hd
  obtain ⟨b, hb, hne⟩ : ∃ b ∈ l, a ≠ b := by
    by_contra hall
    push Not at hall
    exact hu fun c hc d hd => (hall c hc).symm.trans (hall d hd)
  obtain ⟨w, hw⟩ := hsub.exists_perm_append
  have hbw : b ∈ w := by
    have := hw.mem_iff.mp hb
    simpa [hne.symm] using this
  refine ⟨w.erase b, a, b, hne, hw.trans ?_⟩
  calc [a, a] ++ w
      _ |>.Perm (w ++ [a, a]) := List.perm_append_comm
      _ |>.Perm ((b :: w.erase b) ++ [a, a]) := (List.perm_cons_erase hbw).append_right _
      _ |>.Perm (w.erase b ++ ([a, a] ++ [b])) := by
        rw [← List.append_assoc]
        exact (List.perm_append_singleton b (w.erase b ++ [a, a])).symm

/-- After a first value, different values empty the cell in some order, unless that value is not one
of them and they are distinct and even in number. -/
theorem exists_perm_toggles_none {l : List α} (hu : ¬ Uniform l) (c : α) :
    (∃ l', l.Perm l' ∧ toggles (some c) l' = none) ∨ Paired l ∧ c ∉ l := by
  have from_none : ∀ l' : List α, toggles (some c) l' = toggles none (c :: l') := fun _ => rfl
  by_cases hd : l.Nodup
  · by_cases hc : c ∈ l
    · left
      by_cases he : Even l.length
      · obtain ⟨l₁, hp⟩ := exists_cons_perm hc
        refine ⟨c :: l₁, hp, ?_⟩
        rw [toggles_cons, toggle_self, from_none]
        exact toggles_of_paired (Paired.perm ⟨hd, he⟩ hp)
      · obtain ⟨u, hmem, hne⟩ : ∃ u ∈ l, c ≠ u := by
          by_contra hall
          push Not at hall
          exact hu fun a ha b hb => (hall a ha).symm.trans (hall b hb)
        obtain ⟨l₂, hp⟩ := exists_cons_cons_perm hmem hc hne
        refine ⟨u :: c :: l₂, hp, ?_⟩
        rw [toggles_cons, toggle_of_ne hne]
        have hnd := (List.nodup_cons.mp (hp.nodup_iff.mp hd)).2
        rw [hp.length_eq, List.length_cons, Nat.even_add_one, not_not] at he
        exact toggles_of_paired ⟨hnd, he⟩
    · by_cases he : Even l.length
      · exact .inr ⟨⟨hd, he⟩, hc⟩
      · refine .inl ⟨l, .refl l, ?_⟩
        rw [from_none]
        exact toggles_of_paired ⟨List.nodup_cons.mpr ⟨hc, hd⟩, Nat.even_add_one.mpr he⟩
  · obtain ⟨w, a, b, hne, hp⟩ := exists_perm_of_not_nodup hd hu
    exact .inl ⟨_, hp, by rw [toggles_append, toggles_twice hne]⟩

/-- **The order of the values.** They leave the same in every order exactly when they are all the
same, or all different and even in number. -/
theorem toggles_perm_iff (l : List α) :
    (∀ l', l.Perm l' → toggles none l' = toggles none l) ↔ Uniform l ∨ Paired l := by
  constructor
  · intro h
    by_contra hn
    push Not at hn
    obtain ⟨hu, hp⟩ := hn
    by_cases hd : l.Nodup
    · -- odd: whatever comes last stays
      have hodd : ¬ Even l.length := fun he => hp ⟨hd, he⟩
      have last : ∀ a ∈ l, toggles none l = some a := by
        intro a ha
        have hperm : l.Perm (l.erase a ++ [a]) :=
          (List.perm_cons_erase ha).trans (List.perm_append_singleton a _).symm
        have heven : Even (l.erase a).length := by
          have hlen := hperm.length_eq
          rw [List.length_append, List.length_singleton] at hlen
          rw [hlen, Nat.even_add_one, not_not] at hodd
          exact hodd
        rw [← h _ hperm, toggles_concat, (toggles_of_nodup _ (hd.erase a)).1 heven, toggle_none]
      exact hu fun a ha b hb => Option.some.inj ((last a ha).symm.trans (last b hb))
    · obtain ⟨w, a, b, hne, hperm⟩ := exists_perm_of_not_nodup hd hu
      have hperm' : l.Perm (w ++ [b, a, a]) :=
        hperm.trans (List.Perm.append_left w (@List.perm_append_comm _ [a, a] [b]))
      have h1 := h _ hperm
      have h2 := h _ hperm'
      rw [toggles_append, toggles_twice hne] at h1
      rw [toggles_append, toggles_thrice hne, ← h1] at h2
      cases h2
  · rintro (hu | hp) l' hperm
    · rw [toggles_of_uniform hu, toggles_of_uniform (hu.perm hperm), hu.head?_perm hperm]
    · rw [toggles_of_paired hp, toggles_of_paired (hp.perm hperm)]

end MMRelay
