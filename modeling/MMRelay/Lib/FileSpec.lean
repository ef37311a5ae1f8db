import MMRelay.Lib.Kept

/-!
# Specifications of programs on files

Specifications about the file system alone, for runs whose notes are all acceptable, and the
specifications of the single operations in terms of the contents that they keep.

* `Accepted`, `Outcome`, `FsSpec`;
* `FsSpec.pure`, **`FsSpec.bind`**, `FsSpec.conseq`, `FsSpec.attempt`, **`FsSpec.each`**,
  `FsSpec.note`, `FsSpec.getFs`, `FsSpec.tryOp`: the rules.
-/

namespace MMRelay

variable {ι ε α β : Type}

/-- Every note is acceptable. -/
def Accepted (ok : ι → Prop) (notes : List ι) : Prop := ∀ e ∈ notes, ok e

/-- The program returned with `Y` or raised with `Z`. -/
def Outcome (Y : α → Fs → Prop) (Z : Fs → Prop) (r : Run Machine ι ε α) : Prop :=
  match r.result with
  | .ok a => Y a r.state.fs
  | .error _ => Z r.state.fs

/-- If its notes are acceptable, the program returns with `Y` or raises with `Z` from a file system
with `X`. -/
def FsSpec (ok : ι → Prop) (X : Fs → Prop) (x : Prog Machine ι ε α) (Y : α → Fs → Prop)
    (Z : Fs → Prop) : Prop :=
  ∀ s, X s.fs → Accepted ok (x s).notes → Outcome Y Z (x s)

namespace FsSpec

variable {ok : ι → Prop} {X Z : Fs → Prop} {x : Prog Machine ι ε α} {Y : α → Fs → Prop}

theorem pure {a : α} (h : ∀ fs, X fs → Y a fs) :
    FsSpec ok X (Pure.pure a : Prog Machine ι ε α) Y Z :=
  fun s hs _ => h s.fs hs

theorem raise {e : ε} (h : ∀ fs, X fs → Z fs) :
    FsSpec ok X (Prog.raise e : Prog Machine ι ε α) Y Z :=
  fun s hs _ => h s.fs hs

/-- **Sequences.** -/
theorem bind {R : α → Fs → Prop} {Y : β → Fs → Prop} {f : α → Prog Machine ι ε β}
    (hx : FsSpec ok X x R Z) (hf : ∀ a, FsSpec ok (R a) (f a) Y Z) :
    FsSpec ok X (x >>= f) Y Z := by
  intro s hs hok
  have hsound := hx s hs
  change Accepted ok (Prog.followedBy (x s) f).notes at hok
  show Outcome Y Z (Prog.followedBy (x s) f)
  unfold Prog.followedBy at hok ⊢
  unfold Outcome at hsound
  cases hr : (x s).result with
  | ok a =>
    rw [hr] at hsound hok
    have hfirst := hsound fun e he => hok e (List.mem_append_left _ he)
    exact hf a (x s).state hfirst fun e he => hok e (List.mem_append_right _ he)
  | error e =>
    rw [hr] at hsound hok
    exact hsound hok

theorem conseq {X' Z' : Fs → Prop} {Y' : α → Fs → Prop} (h : FsSpec ok X' x Y' Z')
    (hX : ∀ fs, X fs → X' fs) (hY : ∀ a fs, Y' a fs → Y a fs) (hZ : ∀ fs, Z' fs → Z fs) :
    FsSpec ok X x Y Z := by
  intro s hs hok
  have hsound := h s (hX s.fs hs) hok
  unfold Outcome at hsound ⊢
  split at hsound
  · next a ha => exact hY a _ hsound
  · exact hZ _ hsound

theorem pre {W : Fs → Prop} (h : FsSpec ok W x Y Z) (hX : ∀ fs, X fs → W fs) :
    FsSpec ok X x Y Z :=
  h.conseq hX (fun _ _ h => h) fun _ h => h

theorem post {Y' : α → Fs → Prop} (h : FsSpec ok X x Y' Z) (hY : ∀ a fs, Y' a fs → Y a fs) :
    FsSpec ok X x Y Z :=
  h.conseq (fun _ h => h) hY fun _ h => h

theorem err {Z' : Fs → Prop} (h : FsSpec ok X x Y Z') (hZ : ∀ fs, Z' fs → Z fs) :
    FsSpec ok X x Y Z :=
  h.conseq (fun _ h => h) (fun _ _ h => h) hZ

theorem and {X' Z' : Fs → Prop} {Y' : α → Fs → Prop} (h : FsSpec ok X x Y Z)
    (h' : FsSpec ok X' x Y' Z') :
    FsSpec ok (fun fs => X fs ∧ X' fs) x (fun a fs => Y a fs ∧ Y' a fs)
      (fun fs => Z fs ∧ Z' fs) := by
  intro s hs hok
  have hsound := h s hs.1 hok
  have hsound' := h' s hs.2 hok
  unfold Outcome at hsound hsound' ⊢
  split
  · next a ha =>
    rw [ha] at hsound hsound'
    exact ⟨hsound, hsound'⟩
  · next e he =>
    rw [he] at hsound hsound'
    exact ⟨hsound, hsound'⟩

theorem fact {φ : Prop} (h : φ → FsSpec ok X x Y Z) : FsSpec ok (fun fs => φ ∧ X fs) x Y Z :=
  fun s hs hok => h hs.1 s hs.2 hok

theorem attempt {Y : Except ε α → Fs → Prop} {W : Fs → Prop}
    (h : FsSpec ok X x (fun a => Y (.ok a)) W) (hW : ∀ e fs, W fs → Y (.error e) fs) :
    FsSpec ok X x.attempt Y Z := by
  intro s hs hok
  have hsound := h s hs hok
  show Y (x s).result (x s).state.fs
  unfold Outcome at hsound
  cases hr : (x s).result with
  | ok a =>
    rw [hr] at hsound
    exact hsound
  | error e =>
    rw [hr] at hsound
    exact hW e _ hsound

theorem mapErr {f : ε → ε} (h : FsSpec ok X x Y Z) : FsSpec ok X (x.mapErr f) Y Z := by
  intro s hs hok
  have hsound := h s hs hok
  unfold Outcome Prog.mapErr at *
  cases hr : (x s).result <;> rw [hr] at hsound <;> exact hsound

/-- **Loops.** The invariant says which elements are done and which are left. -/
theorem each {xs : List α} {body : α → Prog Machine ι ε Unit}
    (Inv : List α → List α → Fs → Prop)
    (hbody : ∀ done a rest, xs = done ++ a :: rest →
      FsSpec ok (Inv done (a :: rest)) (body a) (fun _ => Inv (done ++ [a]) rest) Z) :
    FsSpec ok (Inv [] xs) (Prog.each xs body) (fun _ => Inv xs []) Z := by
  have key : ∀ rest done, xs = done ++ rest →
      FsSpec ok (Inv done rest) (Prog.each rest body) (fun _ => Inv xs []) Z := by
    intro rest
    induction rest with
    | nil =>
      intro done hsplit
      rw [List.append_nil] at hsplit
      rw [hsplit]
      exact pure fun _ h => h
    | cons a rest ih =>
      intro done hsplit
      exact bind (hbody done a rest hsplit) fun _ => ih (done ++ [a]) (by simp [hsplit])
  exact key xs [] rfl

theorem each_inv {xs : List α} {body : α → Prog Machine ι ε Unit}
    (hbody : ∀ a ∈ xs, FsSpec ok X (body a) (fun _ => X) Z) :
    FsSpec ok X (Prog.each xs body) (fun _ => X) Z :=
  each (fun _ _ => X) fun done a rest hsplit => hbody a (by simp [hsplit])

theorem collect {xs : List α} {body : α → Prog Machine ι ε β}
    (Inv : List α → List α → Fs → Prop)
    (hbody : ∀ done a rest, xs = done ++ a :: rest →
      FsSpec ok (Inv done (a :: rest)) (body a) (fun _ => Inv (done ++ [a]) rest) Z) :
    FsSpec ok (Inv [] xs) (Prog.collect xs body) (fun _ => Inv xs []) Z := by
  have key : ∀ rest done, xs = done ++ rest →
      FsSpec ok (Inv done rest) (Prog.collect rest body) (fun _ => Inv xs []) Z := by
    intro rest
    induction rest with
    | nil =>
      intro done hsplit
      rw [List.append_nil] at hsplit
      rw [hsplit]
      exact pure fun _ h => h
    | cons a rest ih =>
      intro done hsplit
      refine bind (hbody done a rest hsplit) fun b => ?_
      exact bind (ih (done ++ [a]) (by simp [hsplit])) fun bs => pure fun _ h => h
  exact key xs [] rfl

theorem collect_inv {xs : List α} {body : α → Prog Machine ι ε β}
    (hbody : ∀ a ∈ xs, FsSpec ok X (body a) (fun _ => X) Z) :
    FsSpec ok X (Prog.collect xs body) (fun _ => X) Z :=
  collect (fun _ _ => X) fun done a rest hsplit => hbody a (by simp [hsplit])

open FileOps

theorem note {f : Fs → ι} :
    FsSpec ok X (FileOps.note f : Prog Machine ι ε Unit) (fun _ fs => ok (f fs) ∧ X fs) Z :=
  fun s hs hok => ⟨hok (f s.fs) List.mem_cons_self, hs⟩

theorem change {f : Fs → Fs} {Y : Fs → Prop} (h : ∀ fs, X fs → Y (f fs)) :
    FsSpec ok X (FileOps.change f : Prog Machine ι ε Unit) (fun _ => Y) Z :=
  fun s hs _ => h s.fs hs

theorem getFs {f : Fs → Prog Machine ι ε α}
    (h : ∀ fs, FsSpec ok (fun fs' => fs' = fs ∧ X fs') (f fs) Y Z) :
    FsSpec ok X (FileOps.getFs >>= f) Y Z :=
  fun s hs hok => h s.fs s ⟨rfl, hs⟩ hok

theorem read {f : Fs → Prog Machine ι ε α} (h : ∀ fs, FsSpec ok X (f fs) Y Z) :
    FsSpec ok X (FileOps.getFs >>= f) Y Z :=
  getFs fun fs => (h fs).pre fun _ hX => hX.2

theorem getTick {f : ℕ → Prog Machine ι ε α} (h : ∀ n, FsSpec ok X (f n) Y Z) :
    FsSpec ok X (FileOps.getTick >>= f) Y Z :=
  fun s hs hok => h s.tick s hs hok

theorem whenFs {test : Fs → Bool} {x : Prog Machine ι ε Unit} {Y : Fs → Prop}
    (hx : FsSpec ok (fun fs => test fs = true ∧ X fs) x (fun _ => Y) Z)
    (hno : ∀ fs, test fs = false → X fs → Y fs) :
    FsSpec ok X (FileOps.whenFs test x) (fun _ => Y) Z := by
  refine getFs fun fs => ?_
  cases htest : test fs with
  | true =>
    rw [if_pos rfl]
    exact hx.pre fun fs' h => ⟨h.1 ▸ htest, h.2⟩
  | false =>
    rw [if_neg Bool.false_ne_true]
    exact pure fun fs' h => hno fs' (h.1 ▸ htest) h.2

theorem ite {c : Prop} [Decidable c] {y : Prog Machine ι ε α}
    (hx : c → FsSpec ok X x Y Z) (hy : ¬ c → FsSpec ok X y Y Z) :
    FsSpec ok X (if c then x else y) Y Z := by
  by_cases h : c
  · rw [if_pos h]
    exact hx h
  · rw [if_neg h]
    exact hy h

variable [OsError ε]

theorem tryOp {faults : ℕ → Option Damage} {op : Fs → Option Fs} {damaged : Damage → Fs → Fs}
    {Y : Fs → Prop} (hop : ∀ fs fs', X fs → op fs = some fs' → Y fs') (hno : ∀ fs, X fs → Z fs)
    (hdamage : ∀ d fs, X fs → Z (damaged d fs)) :
    FsSpec ok X (FileOps.tryOp faults op damaged : Prog Machine ι ε Unit) (fun _ => Y) Z := by
  intro s hs _
  unfold FileOps.tryOp
  split
  · exact hdamage _ _ hs
  · split
    · exact hno _ hs
    · next fs hfs => exact hop _ _ hs hfs

/-! ## The operations -/

section Operations

variable {faults : ℕ → Option Damage} {P : Set String} {A : Path → Prop} {p q src dst : Path}

theorem mkdir (hX : Stable (fun _ => True) X) :
    FsSpec ok X (FileOps.mkdir faults p : Prog Machine ι ε Unit) (fun _ => X) X := by
  refine tryOp (fun fs fs' h hop => hX fs fs' h (survive_mkdirOp hop)) (fun _ h => h) ?_
  intro d fs h
  by_cases hd : d.phase = .untouched
  · rw [if_pos hd]
    exact h
  · rw [if_neg hd]
    exact hX fs _ h (Survive.mkdirs _)

theorem rmdir (hX : Stable (fun _ => True) X) :
    FsSpec ok X (FileOps.rmdir faults p : Prog Machine ι ε Unit) (fun _ => X) X :=
  tryOp (fun fs fs' h hop => hX fs fs' h (survive_rmdirOp hop)) (fun _ h => h) fun _ _ h => h

theorem unlink (hX : Stable (fun q => q ≠ p) X) :
    FsSpec ok X (FileOps.unlink faults p : Prog Machine ι ε Unit) (fun _ => X) X :=
  tryOp (fun fs fs' h hop => hX fs fs' h (survive_unlinkOp hop)) (fun _ h => h) fun _ _ h => h

theorem rmtree (hX : Stable (fun q => ¬ p <+: q) X) :
    FsSpec ok X (FileOps.rmtree faults p : Prog Machine ι ε Unit) (fun _ => X) X :=
  tryOp (fun fs fs' h hop => hX fs fs' h (survive_rmtreeOp hop)) (fun _ h => h)
    fun d fs h => hX fs _ h (survive_rmtreeDamage d)

theorem rmtreeIgnore (hX : Stable (fun q => ¬ p <+: q) X) :
    FsSpec ok X (FileOps.rmtreeIgnore faults p : Prog Machine ι ε Unit) (fun _ => X) Z :=
  bind (attempt (Y := fun _ => X) (rmtree hX) fun _ _ h => h) fun _ => pure fun _ h => h

theorem writeText {text : String} {m : ℕ} (hX : Stable (fun q => q ≠ p) X) :
    FsSpec ok X (FileOps.writeText faults p text m : Prog Machine ι ε Unit) (fun _ => X) X :=
  tryOp (fun fs fs' h hop => hX fs fs' h (survive_writeTextOp hop)) (fun _ h => h)
    fun d fs h => hX fs _ h (survive_writeTextDamage d)

theorem copy2 (hX : Stable (fun q => ¬ dst <+: q) X) :
    FsSpec ok X (FileOps.copy2 faults src dst : Prog Machine ι ε Unit) (fun _ => X) X :=
  tryOp (fun fs fs' h hop => hX fs fs' h (survive_copy2Op hop)) (fun _ h => h)
    fun d fs h => hX fs _ h (survive_copy2Damage d)

theorem copytree (hX : Stable (fun _ => True) X) :
    FsSpec ok X (FileOps.copytree faults src dst : Prog Machine ι ε Unit) (fun _ => X) X :=
  tryOp (fun fs fs' h hop => hX fs fs' h (survive_copytreeOp hop)) (fun _ h => h)
    fun d fs h => hX fs _ h (survive_copytreeDamage d)

theorem move (hX : Stable (fun q => ¬ src <+: q ∧ ¬ dst <+: q) X) :
    FsSpec ok X (FileOps.move faults src dst : Prog Machine ι ε Unit) (fun _ => X) X :=
  tryOp (fun fs fs' h hop => hX fs fs' h (survive_moveOp hop)) (fun _ h => h)
    fun d fs h => hX fs _ h (survive_moveDamage d)

/-! ## Where the contents go -/

end Operations

end FsSpec

end MMRelay
