import MMRelay.Lib.FileSpec

/-!
# Frames of programs on files

A program changes nothing outside a region, whether it succeeds or fails.

* `Agree`, `Framed`: two file systems agree outside a region, and a program keeps this;
* `Covers`: a region with all below a path and the missing directories above it;
* **`Framed.bind`**, `Framed.attempt`, `Framed.each`, …: the rules;
* `Framed.mkdir`, `Framed.move`, …: the regions of the operations;
* `Prog.bind_eq_ok`: a successful run, cut at a sequence.
-/

namespace MMRelay

/-- The file systems agree outside the region. -/
def Agree (T : Path → Prop) (fs fs' : Fs) : Prop := ∀ q, ¬ T q → fs'.node q = fs.node q

namespace Agree

variable {T T' : Path → Prop} {fs fs' fs'' : Fs}

theorem refl (T : Path → Prop) (fs : Fs) : Agree T fs fs := fun _ _ => rfl

theorem mono (h : Agree T fs fs') (hT : ∀ q, T q → T' q) : Agree T' fs fs' :=
  fun q hq => h q fun hbad => hq (hT q hbad)

end Agree

/-- The region holds all below the path, and the directories above it that are missing. -/
structure Covers (T : Path → Prop) (fs : Fs) (p : Path) : Prop where
  below : ∀ q, p <+: q → T q
  above : ∀ q, q <+: p → fs.node q = none → T q

theorem Covers.mono {T : Path → Prop} {fs : Fs} {p q : Path} (h : Covers T fs p) (hpq : p <+: q) :
    Covers T fs q := by
  refine ⟨fun r hr => h.below r (hpq.trans hr), fun r hr hnone => ?_⟩
  rcases List.prefix_or_prefix_of_prefix hpq hr with hp | hp
  · exact h.below r hp
  · exact h.above r hp hnone

theorem Covers.parents {T : Path → Prop} {fs : Fs} {p q : Path} (h : Covers T fs p)
    (hq : q <+: p) : ∀ r, r <+: q → fs.node r = none → T r :=
  fun r hr hnone => h.above r (hr.trans hq) hnone

namespace Fs

variable {fs : Fs} {p q src dst : Path}

theorem node_mkdirs_eq (h : ¬ (q <+: p ∧ fs.node q = none)) : (fs.mkdirs p).node q = fs.node q := by
  unfold mkdirs
  split_ifs
  · rfl
  · exact if_neg h

theorem node_copyTree_of_not_below (h : ¬ dst <+: q) :
    (fs.copyTree src dst).node q = fs.node q := by
  unfold copyTree
  split_ifs
  · exact if_neg h
  · rfl

end Fs

/-! ## The regions of the operations -/

namespace FileOps

variable {fs fs' : Fs} {p q src dst : Path} {d : Damage}

theorem node_copy2Damage (hq : ¬ dst <+: q) : (copy2Damage src dst d fs).node q = fs.node q := by
  unfold copy2Damage
  split
  · next t ht =>
    split_ifs
    · rfl
    · exact Fs.node_writeFile_of_ne fun heq => hq (heq ▸ (copyTarget_below ht))
  · rfl

theorem node_renamed (hs : ¬ src <+: q) (hd : ¬ dst <+: q) :
    (renamed fs src dst).node q = fs.node q := by
  unfold renamed
  rw [Fs.node_removeTree, if_neg hs, Fs.node_copyTree_of_not_below hd, Fs.node_removeTree,
    if_neg hd]

theorem node_moveDamage (hs : ¬ src <+: q) (hd : ¬ dst <+: q) :
    (moveDamage src dst d fs).node q = fs.node q := by
  unfold moveDamage
  split
  · rfl
  · next target ht =>
    have hout : ¬ target <+: q := fun hbad => hd ((moveTarget_spec ht).1.trans hbad)
    by_cases heq : src = target
    · rw [if_pos heq]
    rw [if_neg heq]
    split
    · rfl
    · split_ifs
      · exact Fs.node_writeFile_of_ne fun heq => hout (heq ▸ List.prefix_rfl)
      · rw [Fs.node_removePart hout, Fs.node_copyTree_of_not_below hout]
    · rw [Fs.node_removePart hs, Fs.node_copyTree_of_not_below hout, Fs.removeTree,
        Fs.node_removePart hout]

end FileOps

/-! ## Programs -/

variable {ι ε α β : Type}

/-- The program changes nothing outside the region, compared with `fs₀`. -/
def Framed (T : Path → Prop) (fs₀ : Fs) (x : Prog Machine ι ε α) : Prop :=
  FsSpec (fun _ => True) (Agree T fs₀) x (fun _ => Agree T fs₀) (Agree T fs₀)

namespace Framed

open FileOps

variable {T : Path → Prop} {fs₀ : Fs} {x : Prog Machine ι ε α}

theorem agree (h : Framed T fs₀ x) {s : Machine} (hs : Agree T fs₀ s.fs) :
    Agree T fs₀ (x s).state.fs := by
  have hout := h s hs fun _ _ => trivial
  unfold Outcome at hout
  split at hout <;> exact hout

theorem pure (a : α) : Framed T fs₀ (Pure.pure a : Prog Machine ι ε α) :=
  FsSpec.pure fun _ h => h

theorem raise (e : ε) : Framed T fs₀ (Prog.raise e : Prog Machine ι ε α) :=
  FsSpec.raise fun _ h => h

theorem bind {f : α → Prog Machine ι ε β} (hx : Framed T fs₀ x) (hf : ∀ a, Framed T fs₀ (f a)) :
    Framed T fs₀ (x >>= f) :=
  FsSpec.bind hx hf

theorem attempt (h : Framed T fs₀ x) : Framed T fs₀ x.attempt :=
  FsSpec.attempt (Y := fun _ => Agree T fs₀) h fun _ _ h => h

theorem mapErr {f : ε → ε} (h : Framed T fs₀ x) : Framed T fs₀ (x.mapErr f) := FsSpec.mapErr h

theorem each {xs : List α} {body : α → Prog Machine ι ε Unit}
    (h : ∀ a ∈ xs, Framed T fs₀ (body a)) : Framed T fs₀ (Prog.each xs body) :=
  FsSpec.each_inv h

theorem collect {xs : List α} {body : α → Prog Machine ι ε β}
    (h : ∀ a ∈ xs, Framed T fs₀ (body a)) : Framed T fs₀ (Prog.collect xs body) :=
  FsSpec.collect_inv h

theorem read {f : Fs → Prog Machine ι ε α} (h : ∀ fs, Framed T fs₀ (f fs)) :
    Framed T fs₀ (FileOps.getFs >>= f) :=
  FsSpec.read h

theorem getTick {f : ℕ → Prog Machine ι ε α} (h : ∀ n, Framed T fs₀ (f n)) :
    Framed T fs₀ (FileOps.getTick >>= f) :=
  FsSpec.getTick h

theorem change {f : Fs → Fs} (h : ∀ fs, Agree T fs₀ fs → Agree T fs₀ (f fs)) :
    Framed T fs₀ (FileOps.change f : Prog Machine ι ε Unit) :=
  FsSpec.change h

theorem note {f : Fs → ι} : Framed T fs₀ (FileOps.note f : Prog Machine ι ε Unit) :=
  FsSpec.note.post fun _ _ h => h.2

theorem whenFs {test : Fs → Bool} {x : Prog Machine ι ε Unit} (h : Framed T fs₀ x) :
    Framed T fs₀ (FileOps.whenFs test x) :=
  FsSpec.whenFs (FsSpec.pre h fun _ h => h.2) fun _ _ h => h

theorem ite {c : Prop} [Decidable c] {y : Prog Machine ι ε α} (hx : Framed T fs₀ x)
    (hy : Framed T fs₀ y) : Framed T fs₀ (if c then x else y) :=
  FsSpec.ite (fun _ => hx) fun _ => hy

section Operations

variable [OsError ε] {faults : ℕ → Option Damage} {p src dst : Path}

theorem tryOp {op : Fs → Option Fs} {damaged : Damage → Fs → Fs}
    (hop : ∀ fs fs', op fs = some fs' → Agree T fs₀ fs → Agree T fs₀ fs')
    (hdamage : ∀ d fs, Agree T fs₀ fs → Agree T fs₀ (damaged d fs)) :
    Framed T fs₀ (FileOps.tryOp faults op damaged : Prog Machine ι ε Unit) :=
  FsSpec.tryOp (fun fs fs' h hfs => hop fs fs' hfs h) (fun _ h => h) hdamage

theorem agree_mkdirs {fs : Fs} (hp : ∀ q, q <+: p → fs₀.node q = none → T q)
    (h : Agree T fs₀ fs) : Agree T fs₀ (fs.mkdirs p) := by
  intro q hq
  rw [Fs.node_mkdirs_eq, h q hq]
  rintro ⟨hqp, hnone⟩
  rw [h q hq] at hnone
  exact hq (hp q hqp hnone)

theorem mkdir (hp : ∀ q, q <+: p → fs₀.node q = none → T q) :
    Framed T fs₀ (FileOps.mkdir faults p : Prog Machine ι ε Unit) := by
  refine tryOp (fun fs fs' hfs h => ?_) fun d fs h => ?_
  · unfold mkdirOp at hfs
    split_ifs at hfs
    rw [← Option.some.inj hfs]
    exact agree_mkdirs hp h
  · split_ifs
    · exact h
    · exact agree_mkdirs (fun q hq => hp q (hq.trans (List.dropLast_prefix p))) h

theorem agree_removePart {fs : Fs} {keep : Path → Bool} (hp : ∀ q, p <+: q → T q)
    (h : Agree T fs₀ fs) : Agree T fs₀ (fs.removePart p keep) := by
  intro q hq
  rw [Fs.node_removePart fun hbad => hq (hp q hbad), h q hq]

theorem unlink (hp : ∀ q, p <+: q → T q) :
    Framed T fs₀ (FileOps.unlink faults p : Prog Machine ι ε Unit) := by
  refine tryOp (fun fs fs' hfs h => ?_) fun _ _ h => h
  unfold unlinkOp at hfs
  split_ifs at hfs
  rw [← Option.some.inj hfs]
  exact agree_removePart hp h

theorem rmtree (hp : ∀ q, p <+: q → T q) :
    Framed T fs₀ (FileOps.rmtree faults p : Prog Machine ι ε Unit) := by
  refine tryOp (fun fs fs' hfs h => ?_) fun d fs h => ?_
  · unfold rmtreeOp at hfs
    split_ifs at hfs
    rw [← Option.some.inj hfs]
    exact agree_removePart hp h
  · unfold rmtreeDamage
    split_ifs
    · exact agree_removePart hp h
    · exact h

theorem rmtreeIgnore (hp : ∀ q, p <+: q → T q) :
    Framed T fs₀ (FileOps.rmtreeIgnore faults p : Prog Machine ι ε Unit) :=
  bind (attempt (rmtree hp)) fun _ => pure ()

theorem rmdir (hp : ∀ q, p <+: q → T q) :
    Framed T fs₀ (FileOps.rmdir faults p : Prog Machine ι ε Unit) := by
  refine tryOp (fun fs fs' hfs h => ?_) fun _ _ h => h
  unfold rmdirOp at hfs
  split_ifs at hfs
  rw [← Option.some.inj hfs]
  exact agree_removePart hp h

theorem agree_writeFile {fs : Fs} {c : String} {m : ℕ} (hp : T p) (h : Agree T fs₀ fs) :
    Agree T fs₀ (fs.writeFile p c m) := by
  intro q hq
  have hne : q ≠ p := fun heq => hq (by rw [heq]; exact hp)
  rw [Fs.node_writeFile_of_ne hne, h q hq]

theorem writeText {text : String} {m : ℕ} (hp : T p) :
    Framed T fs₀ (FileOps.writeText faults p text m : Prog Machine ι ε Unit) := by
  refine tryOp (fun fs fs' hfs h => ?_) fun d fs h => ?_
  · unfold writeTextOp at hfs
    split_ifs at hfs
    rw [← Option.some.inj hfs]
    exact agree_writeFile hp h
  · unfold writeTextDamage
    split_ifs
    · exact agree_writeFile hp h
    · exact h

theorem copy2 (hp : ∀ q, dst <+: q → T q) :
    Framed T fs₀ (FileOps.copy2 faults src dst : Prog Machine ι ε Unit) := by
  refine tryOp (fun fs fs' hfs h q hq => ?_) fun d fs h q hq => ?_
  · rw [node_copy2Op hfs fun hbad => hq (hp q hbad), h q hq]
  · rw [node_copy2Damage fun hbad => hq (hp q hbad), h q hq]

theorem agree_copyTree {fs : Fs} (hp : ∀ q, dst <+: q → T q) (h : Agree T fs₀ fs) :
    Agree T fs₀ (fs.copyTree src dst) := by
  intro q hq
  rw [Fs.node_copyTree_of_not_below fun hbad => hq (hp q hbad), h q hq]

theorem copytree (hp : ∀ q, dst <+: q → T q)
    (hparent : ∀ q, q <+: dst.dropLast → fs₀.node q = none → T q) :
    Framed T fs₀ (FileOps.copytree faults src dst : Prog Machine ι ε Unit) := by
  refine tryOp (fun fs fs' hfs h => ?_) fun d fs h => ?_
  · unfold copytreeOp at hfs
    split_ifs at hfs
    rw [← Option.some.inj hfs]
    exact agree_copyTree hp (agree_mkdirs hparent h)
  · unfold copytreeDamage
    split_ifs
    · exact agree_removePart hp (agree_copyTree hp (agree_mkdirs hparent h))
    · exact h

theorem move (hs : ∀ q, src <+: q → T q) (hd : ∀ q, dst <+: q → T q) :
    Framed T fs₀ (FileOps.move faults src dst : Prog Machine ι ε Unit) := by
  refine tryOp (fun fs fs' hfs h q hq => ?_) fun d fs h q hq => ?_
  · rw [node_moveOp hfs fun hbad => hq (hd q hbad), if_neg fun hbad => hq (hs q hbad), h q hq]
  · rw [node_moveDamage (fun hbad => hq (hs q hbad)) fun hbad => hq (hd q hbad), h q hq]

theorem replace (hs : ∀ q, src <+: q → T q) (hd : ∀ q, dst <+: q → T q) :
    Framed T fs₀ (FileOps.replace faults src dst : Prog Machine ι ε Unit) := by
  refine tryOp (fun fs fs' hfs h q hq => ?_) fun _ _ h => h
  rcases replaceOp_cases hfs with ⟨-, ⟨-, rfl⟩ | ⟨-, rfl⟩⟩
  · exact h q hq
  · rw [node_renamed (fun hbad => hq (hs q hbad)) fun hbad => hq (hd q hbad), h q hq]

end Operations

end Framed

/-! ## Successful runs -/

namespace Prog

variable {σ : Type} {s : σ} {b : β}

theorem bind_eq_ok {x : Prog σ ι ε α} {f : α → Prog σ ι ε β} :
    ((x >>= f) s).result = .ok b ↔
      ∃ a, (x s).result = .ok a ∧ (f a (x s).state).result = .ok b := by
  show (followedBy (x s) f).result = .ok b ↔ _
  unfold followedBy
  cases (x s).result with
  | ok a => simp
  | error e => simp

theorem bind_state {x : Prog σ ι ε α} {f : α → Prog σ ι ε β} {a : α}
    (h : (x s).result = .ok a) : ((x >>= f) s).state = (f a (x s).state).state := by
  show (followedBy (x s) f).state = _
  unfold followedBy
  rw [h]

end Prog

end MMRelay
