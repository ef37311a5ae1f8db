import Mathlib

/-!
# Programs with state, notes and exceptions

A program changes a state, leaves notes, and returns or raises; the changes and the notes made
before an exception stay.

* `Run`, `Prog`, `Prog.get`, `Prog.note`, `Prog.raise`, `Prog.attempt`,
  `Prog.mapErr`;
* `Prog.each`, `Prog.collect`: loops.
-/

namespace MMRelay

/-- The outcome of a program: its result or exception, the state and its notes. -/
structure Run (σ ι ε α : Type) where
  result : Except ε α
  state : σ
  notes : List ι

/-- A program with states in `σ`, notes in `ι` and exceptions in `ε`. -/
def Prog (σ ι ε α : Type) := σ → Run σ ι ε α

namespace Prog

variable {σ ι ε α β : Type}

/-- What follows a program that has been run. -/
def followedBy (r : Run σ ι ε α) (f : α → Prog σ ι ε β) : Run σ ι ε β :=
  match r.result with
  | .ok a => { f a r.state with notes := r.notes ++ (f a r.state).notes }
  | .error e => ⟨.error e, r.state, r.notes⟩

instance : Monad (Prog σ ι ε) where
  pure a s := ⟨.ok a, s, []⟩
  bind x f s := followedBy (x s) f

def get : Prog σ ι ε σ := fun s => ⟨.ok s, s, []⟩

/-- Leave a note. -/
def note (f : σ → ι) : Prog σ ι ε Unit := fun s => ⟨.ok (), s, [f s]⟩

def raise (e : ε) : Prog σ ι ε α := fun s => ⟨.error e, s, []⟩

/-- Run a program and return its exception. -/
def attempt (x : Prog σ ι ε α) : Prog σ ι ε (Except ε α) := fun s =>
  ⟨.ok (x s).result, (x s).state, (x s).notes⟩

/-- Change the exceptions of a program. -/
def mapErr (f : ε → ε) (x : Prog σ ι ε α) : Prog σ ι ε α := fun s =>
  { x s with result := (x s).result.mapError f }

/-- A loop over a list. -/
def each : List α → (α → Prog σ ι ε Unit) → Prog σ ι ε Unit
  | [], _ => pure ()
  | a :: as, body => do
    body a
    each as body

/-- A loop that collects results. -/
def collect : List α → (α → Prog σ ι ε β) → Prog σ ι ε (List β)
  | [], _ => pure []
  | a :: as, body => do
    let b ← body a
    let bs ← collect as body
    pure (b :: bs)

end Prog

end MMRelay
