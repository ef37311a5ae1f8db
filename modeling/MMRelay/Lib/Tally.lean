import Mathlib

/-!
# Counters kept by many parties

A shared counter that every party raises for itself: `Tally n f` says that `n` is the sum of the
shares `f i`, of which only finitely many are not zero.

* **`Tally.set`**: one party changes its share, and the counter follows.
* `Tally.le`: a share is at most the counter.
-/

namespace MMRelay

variable {ι : Type} [DecidableEq ι] {n : ℕ} {f : ι → ℕ}

/-- The counter is the sum of the shares. -/
def Tally (n : ℕ) (f : ι → ℕ) : Prop :=
  ∃ m : Multiset ι, m.card = n ∧ ∀ i, m.count i = f i

namespace Tally

theorem zero : Tally 0 (fun _ : ι => 0) := ⟨0, rfl, fun i => Multiset.count_zero i⟩

theorem le (h : Tally n f) (i : ι) : f i ≤ n := by
  obtain ⟨m, hm, hf⟩ := h
  rw [← hm, ← hf i]
  exact Multiset.count_le_card i m

theorem set (h : Tally n f) (i : ι) (k : ℕ) : Tally (n - f i + k) (Function.update f i k) := by
  obtain ⟨m, hm, hf⟩ := h
  refine ⟨m.filter (i ≠ ·) + Multiset.replicate k i, ?_, fun j => ?_⟩
  · have hsplit := congrArg Multiset.card (Multiset.filter_add_not (i = ·) m)
    rw [Multiset.card_add, ← Multiset.countP_eq_card_filter] at hsplit
    have hcount : m.countP (i = ·) = f i := hf i
    rw [Multiset.card_add, Multiset.card_replicate]
    show (m.filter fun j => ¬ i = j).card + k = _
    omega
  · rw [Multiset.count_add, Multiset.count_filter]
    by_cases hj : j = i
    · subst hj
      simp
    · have hij : i ≠ j := Ne.symm hj
      rw [if_pos hij, Function.update_of_ne hj, hf j, Multiset.count_replicate, if_neg hij]
      rfl

end Tally

end MMRelay
