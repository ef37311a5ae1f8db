import MMRelay.Lib.Trees

/-!
# Specifications that count operations

Specifications about the whole state of a program on files: the file system and the number of
operations tried, by which a plan of faults says which operation fails.

* `Prog` is a lawful monad, so that programs can be cut at other places;
* `Ends`, `Counted`: the outcome of a run, in terms of the states before and after it;
* `Counted.bind`, `Counted.each`, `Counted.collect`, **`Counted.tryOp`**, …: the rules;
* `Counted.ofFs`: a specification about the file system alone;
* `Quiet`: none of some consecutive operations fails.
-/

namespace MMRelay

variable {ι ε α β σ : Type}

/-! ## Programs as a monad -/

namespace Prog

theorem followedBy_assoc {γ : Type} (r : Run σ ι ε α) (f : α → Prog σ ι ε β)
    (g : β → Prog σ ι ε γ) :
    followedBy (followedBy r f) g = followedBy r fun a => f a >>= g := by
  obtain ⟨result, state, notes⟩ := r
  cases result with
  | error e => rfl
  | ok a =>
    show followedBy { f a state with notes := notes ++ (f a state).notes } g =
      { followedBy (f a state) g with notes := notes ++ (followedBy (f a state) g).notes }
    unfold followedBy
    cases (f a state).result with
    | error e => rfl
    | ok b => simp [List.append_assoc]

theorem followedBy_pure (r : Run σ ι ε α) : followedBy r pure = r := by
  obtain ⟨result, state, notes⟩ := r
  cases result with
  | error e => rfl
  | ok a => simp [followedBy, pure]

instance : LawfulMonad (Prog σ ι ε) :=
  LawfulMonad.mk' _ (fun x => funext fun s => followedBy_pure (x s)) (fun _ _ => rfl)
    fun x f g => funext fun s => followedBy_assoc (x s) f g

end Prog

/-! ## Specifications -/

/-- The run returned with `Y` or raised with `Z`. -/
def Ends (Y : α → σ → Prop) (Z : σ → Prop) (r : Run σ ι ε α) : Prop :=
  match r.result with
  | .ok a => Y a r.state
  | .error _ => Z r.state

/-- From a state with `X` the program returns with `Y` or raises with `Z`. -/
def Counted (X : σ → Prop) (x : Prog σ ι ε α) (Y : α → σ → Prop) (Z : σ → Prop) : Prop :=
  ∀ s, X s → Ends Y Z (x s)

namespace Counted

variable {X : σ → Prop} {x : Prog σ ι ε α} {Y : α → σ → Prop} {Z : σ → Prop}

theorem pure {a : α} (h : ∀ s, X s → Y a s) :
    Counted X (Pure.pure a : Prog σ ι ε α) Y Z :=
  h

theorem raise {e : ε} (h : ∀ s, X s → Z s) : Counted X (Prog.raise e : Prog σ ι ε α) Y Z := h

/-- **Sequences.** -/
theorem bind {R : α → σ → Prop} {Y : β → σ → Prop} {f : α → Prog σ ι ε β}
    (hx : Counted X x R Z) (hf : ∀ a, Counted (R a) (f a) Y Z) : Counted X (x >>= f) Y Z := by
  intro s hs
  have hfirst := hx s hs
  show Ends Y Z (Prog.followedBy (x s) f)
  unfold Prog.followedBy
  unfold Ends at hfirst
  cases hr : (x s).result with
  | ok a =>
    rw [hr] at hfirst
    exact hf a (x s).state hfirst
  | error e =>
    rw [hr] at hfirst
    exact hfirst

theorem conseq {X' Z' : σ → Prop} {Y' : α → σ → Prop} (h : Counted X' x Y' Z')
    (hX : ∀ s, X s → X' s) (hY : ∀ a s, Y' a s → Y a s) (hZ : ∀ s, Z' s → Z s) :
    Counted X x Y Z := by
  intro s hs
  have hends := h s (hX s hs)
  unfold Ends at hends ⊢
  cases hr : (x s).result with
  | ok a =>
    rw [hr] at hends
    exact hY a _ hends
  | error e =>
    rw [hr] at hends
    exact hZ _ hends

theorem pre {W : σ → Prop} (h : Counted W x Y Z) (hX : ∀ s, X s → W s) : Counted X x Y Z :=
  h.conseq hX (fun _ _ h => h) fun _ h => h

theorem post {Y' : α → σ → Prop} (h : Counted X x Y' Z) (hY : ∀ a s, Y' a s → Y a s) :
    Counted X x Y Z :=
  h.conseq (fun _ h => h) hY fun _ h => h

theorem err {Z' : σ → Prop} (h : Counted X x Y Z') (hZ : ∀ s, Z' s → Z s) : Counted X x Y Z :=
  h.conseq (fun _ h => h) (fun _ _ h => h) hZ

theorem and {X' Z' : σ → Prop} {Y' : α → σ → Prop} (h : Counted X x Y Z)
    (h' : Counted X' x Y' Z') :
    Counted (fun s => X s ∧ X' s) x (fun a s => Y a s ∧ Y' a s) (fun s => Z s ∧ Z' s) := by
  intro s hs
  have hends := h s hs.1
  have hends' := h' s hs.2
  unfold Ends at hends hends' ⊢
  cases hr : (x s).result with
  | ok a =>
    rw [hr] at hends hends'
    exact ⟨hends, hends'⟩
  | error e =>
    rw [hr] at hends hends'
    exact ⟨hends, hends'⟩

theorem fact {φ : Prop} (h : φ → Counted X x Y Z) : Counted (fun s => φ ∧ X s) x Y Z :=
  fun s hs => h hs.1 s hs.2

theorem attempt {W : σ → Prop} {Y : Except ε α → σ → Prop}
    (h : Counted X x (fun a => Y (.ok a)) W) (hW : ∀ e s, W s → Y (.error e) s) :
    Counted X x.attempt Y Z := by
  intro s hs
  have hends := h s hs
  show Y (x s).result (x s).state
  unfold Ends at hends
  cases hr : (x s).result with
  | ok a =>
    rw [hr] at hends
    exact hends
  | error e =>
    rw [hr] at hends
    exact hW e _ hends

theorem mapErr {f : ε → ε} (h : Counted X x Y Z) : Counted X (x.mapErr f) Y Z := by
  intro s hs
  have hends := h s hs
  unfold Ends Prog.mapErr at *
  cases hr : (x s).result <;> rw [hr] at hends <;> exact hends

/-- **Loops.** The invariant says which elements are done and which are left. -/
theorem each {xs : List α} {body : α → Prog σ ι ε Unit} (Inv : List α → List α → σ → Prop)
    (hbody : ∀ done a rest, xs = done ++ a :: rest →
      Counted (Inv done (a :: rest)) (body a) (fun _ => Inv (done ++ [a]) rest) Z) :
    Counted (Inv [] xs) (Prog.each xs body) (fun _ => Inv xs []) Z := by
  have key : ∀ rest done, xs = done ++ rest →
      Counted (Inv done rest) (Prog.each rest body) (fun _ => Inv xs []) Z := by
    intro rest
    induction rest with
    | nil =>
      intro done hsplit
      rw [List.append_nil] at hsplit
      rw [hsplit]
      exact pure fun _ h => h
    | cons a rest ih =>
      intro done hsplit
      exact bind (hbody done a rest hsplit) fun _ => ih (done ++ [a]) (by simp [hsplit])
  exact key xs [] rfl

theorem collect {xs : List α} {body : α → Prog σ ι ε β} (Inv : List α → List α → σ → Prop)
    (hbody : ∀ done a rest, xs = done ++ a :: rest →
      Counted (Inv done (a :: rest)) (body a) (fun _ => Inv (done ++ [a]) rest) Z) :
    Counted (Inv [] xs) (Prog.collect xs body) (fun _ => Inv xs []) Z := by
  have key : ∀ rest done, xs = done ++ rest →
      Counted (Inv done rest) (Prog.collect rest body) (fun _ => Inv xs []) Z := by
    intro rest
    induction rest with
    | nil =>
      intro done hsplit
      rw [List.append_nil] at hsplit
      rw [hsplit]
      exact pure fun _ h => h
    | cons a rest ih =>
      intro done hsplit
      refine bind (hbody done a rest hsplit) fun b => ?_
      exact bind (ih (done ++ [a]) (by simp [hsplit])) fun bs => pure fun _ h => h
  exact key xs [] rfl

theorem ite {c : Prop} [Decidable c] {y : Prog σ ι ε α} (hx : c → Counted X x Y Z)
    (hy : ¬ c → Counted X y Y Z) : Counted X (if c then x else y) Y Z := by
  by_cases h : c
  · rw [if_pos h]
    exact hx h
  · rw [if_neg h]
    exact hy h

end Counted

/-! ## Programs on files -/

namespace Counted

variable {X : Machine → Prop} {x : Prog Machine ι ε α} {Y : α → Machine → Prop}
variable {Z : Machine → Prop}

theorem getFs {f : Fs → Prog Machine ι ε α}
    (h : ∀ fs, Counted (fun s => s.fs = fs ∧ X s) (f fs) Y Z) :
    Counted X (FileOps.getFs >>= f) Y Z :=
  fun s hs => h s.fs s ⟨rfl, hs⟩

theorem getTick {f : ℕ → Prog Machine ι ε α}
    (h : ∀ n, Counted (fun s => s.tick = n ∧ X s) (f n) Y Z) :
    Counted X (FileOps.getTick >>= f) Y Z :=
  fun s hs => h s.tick s ⟨rfl, hs⟩

theorem note {f : Fs → ι} : Counted X (FileOps.note f : Prog Machine ι ε Unit) (fun _ => X) Z :=
  fun _ hs => hs

theorem change {f : Fs → Fs} {Y : Machine → Prop} (h : ∀ s, X s → Y ⟨f s.fs, s.tick⟩) :
    Counted X (FileOps.change f : Prog Machine ι ε Unit) (fun _ => Y) Z :=
  h

theorem whenFs {test : Fs → Bool} {x : Prog Machine ι ε Unit} {Y : Machine → Prop}
    (hx : Counted (fun s => test s.fs = true ∧ X s) x (fun _ => Y) Z)
    (hno : ∀ s, test s.fs = false → X s → Y s) :
    Counted X (FileOps.whenFs test x) (fun _ => Y) Z := by
  refine getFs fun fs => ?_
  cases htest : test fs with
  | true =>
    rw [if_pos rfl]
    exact hx.pre fun s h => ⟨h.1 ▸ htest, h.2⟩
  | false =>
    rw [if_neg Bool.false_ne_true]
    exact pure fun s h => hno s (h.1 ▸ htest) h.2

variable [OsError ε]

/-- **An operation** succeeds, is not possible, or fails by the plan; it is counted in any case. -/
theorem tryOp {faults : ℕ → Option Damage} {op : Fs → Option Fs} {damaged : Damage → Fs → Fs}
    {Y : Machine → Prop}
    (hop : ∀ s fs', X s → faults s.tick = none → op s.fs = some fs' → Y ⟨fs', s.tick + 1⟩)
    (hno : ∀ s, X s → faults s.tick = none → op s.fs = none → Z ⟨s.fs, s.tick + 1⟩)
    (hdamage : ∀ s d, X s → faults s.tick = some d → Z ⟨damaged d s.fs, s.tick + 1⟩) :
    Counted X (FileOps.tryOp faults op damaged : Prog Machine ι ε Unit) (fun _ => Y) Z := by
  intro s hs
  unfold FileOps.tryOp
  split
  · next d hd => exact hdamage s d hs hd
  · next hnone =>
    split
    · next hfs => exact hno s hs hnone hfs
    · next fs' hfs => exact hop s fs' hs hnone hfs

end Counted

/-- None of the operations from number `a` up to `b` fails. -/
def Quiet (faults : ℕ → Option Damage) (a b : ℕ) : Prop := ∀ t, a ≤ t → t < b → faults t = none

namespace Quiet

variable {faults : ℕ → Option Damage} {a b c : ℕ}

theorem refl (faults : ℕ → Option Damage) (a : ℕ) : Quiet faults a a :=
  fun _ h h' => absurd h (Nat.not_le.mpr h')

theorem succ (h : Quiet faults a b) (hb : faults b = none) : Quiet faults a (b + 1) := by
  intro t ht ht'
  rcases Nat.lt_succ_iff_lt_or_eq.mp ht' with hlt | rfl
  · exact h t ht hlt
  · exact hb

end Quiet

end MMRelay
