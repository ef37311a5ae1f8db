import MMRelay.Lib.Prog

/-!
# What a program that returns has done

A specification of a program by its notes and by what holds when it returns; nothing is asked of
the state in which it raises, so the handler of an exception starts from any state.

* `Prog.catching`, `Prog.within`: `try` and `except`, and a program on one of several states;
* `Ensures`;
* `Ensures.pure`, **`Ensures.bind`**, `Ensures.conseq`, **`Ensures.catching`**, `Ensures.ite`: the
  rules;
* **`Ensures.collect_at`**: a loop that collects, at one of its items;
* `Ensures.within`, `Ensures.within_of_ne`: one of several states;
* `Throughout`, **`Throughout.catching`**: what a program keeps, also where it raises.
-/

namespace MMRelay

variable {σ ι ε α β κ : Type}

namespace Prog

/-- `try` and `except` for the exceptions that `caught` names. -/
def catching (caught : ε → Bool) (x handler : Prog σ ι ε α) : Prog σ ι ε α := do
  match ← x.attempt with
  | .ok a => pure a
  | .error e => if caught e then handler else raise e

/-- A program on the state that belongs to `k`. -/
def within [DecidableEq κ] (k : κ) (x : Prog σ ι ε α) : Prog (κ → σ) (κ × ι) ε α := fun w =>
  ⟨(x (w k)).result, Function.update w k (x (w k)).state, (x (w k)).notes.map (k, ·)⟩

end Prog

/-- From a state with `X` the program makes only notes in `N`, and what it returns is in `Y`. -/
def Ensures (N : ι → Prop) (X : σ → Prop) (x : Prog σ ι ε α) (Y : α → σ → Prop) : Prop :=
  ∀ s, X s → (∀ n ∈ (x s).notes, N n) ∧ ∀ a, (x s).result = .ok a → Y a (x s).state

namespace Ensures

variable {N : ι → Prop} {X : σ → Prop} {x : Prog σ ι ε α} {Y : α → σ → Prop}

theorem pure {a : α} (h : ∀ s, X s → Y a s) : Ensures N X (Pure.pure a : Prog σ ι ε α) Y :=
  fun s hs => ⟨fun _ hn => absurd hn List.not_mem_nil, fun _ ha => Except.ok.inj ha ▸ h s hs⟩

theorem raise {e : ε} : Ensures N X (Prog.raise e : Prog σ ι ε α) Y :=
  fun _ _ => ⟨fun _ hn => absurd hn List.not_mem_nil, fun _ ha => nomatch ha⟩

/-- **Sequences.** -/
theorem bind {R : α → σ → Prop} {Y : β → σ → Prop} {f : α → Prog σ ι ε β} (hx : Ensures N X x R)
    (hf : ∀ a, Ensures N (R a) (f a) Y) : Ensures N X (x >>= f) Y := by
  intro s hs
  obtain ⟨hnotes, hresult⟩ := hx s hs
  change (∀ n ∈ (Prog.followedBy (x s) f).notes, N n) ∧
    ∀ b, (Prog.followedBy (x s) f).result = .ok b → Y b (Prog.followedBy (x s) f).state
  unfold Prog.followedBy
  split
  · next a ha =>
    obtain ⟨hnext, hlast⟩ := hf a (x s).state (hresult a ha)
    refine ⟨fun n hn => ?_, hlast⟩
    obtain hn | hn := List.mem_append.mp hn
    · exact hnotes n hn
    · exact hnext n hn
  · exact ⟨hnotes, fun _ hb => nomatch hb⟩

theorem conseq {N' : ι → Prop} {X' : σ → Prop} {Y' : α → σ → Prop} (h : Ensures N' X' x Y')
    (hN : ∀ n, N' n → N n) (hX : ∀ s, X s → X' s) (hY : ∀ a s, Y' a s → Y a s) :
    Ensures N X x Y :=
  fun s hs => ⟨fun n hn => hN n ((h s (hX s hs)).1 n hn),
    fun a ha => hY a _ ((h s (hX s hs)).2 a ha)⟩

theorem pre {X' : σ → Prop} (h : Ensures N X' x Y) (hX : ∀ s, X s → X' s) : Ensures N X x Y :=
  h.conseq (fun _ hn => hn) hX fun _ _ hy => hy

theorem attempt (h : Ensures N X x Y) :
    Ensures N X x.attempt fun r s => ∀ a, r = .ok a → Y a s :=
  fun s hs => ⟨(h s hs).1, fun _ hr a ha => (h s hs).2 a ((Except.ok.inj hr).trans ha)⟩

/-- **Exceptions that are caught.** -/
theorem catching {caught : ε → Bool} {handler : Prog σ ι ε α} (hx : Ensures N X x Y)
    (hhandler : Ensures N (fun _ => True) handler Y) :
    Ensures N X (Prog.catching caught x handler) Y := by
  refine hx.attempt.bind fun r => ?_
  cases r with
  | ok a => exact pure fun s hs => hs a rfl
  | error e =>
    show Ensures N _ (if caught e then handler else Prog.raise e) Y
    split
    · exact hhandler.pre fun _ _ => trivial
    · exact raise

theorem ite {b : Bool} {y : Prog σ ι ε α} (hx : b = true → Ensures N X x Y)
    (hy : b = false → Ensures N X y Y) : Ensures N X (if b then x else y) Y := by
  cases b with
  | true => exact hx rfl
  | false => exact hy rfl

/-! ## Loops -/

variable {body : α → Prog σ ι ε β}

theorem collect {as : List α} (h : ∀ a ∈ as, Ensures N X (body a) fun _ => X) :
    Ensures N X (Prog.collect as body) fun _ => X := by
  induction as with
  | nil => exact pure fun _ hs => hs
  | cons a as ih =>
    refine (h a List.mem_cons_self).bind fun b => ?_
    refine (ih fun c hc => h c (List.mem_cons_of_mem a hc)).bind fun bs => ?_
    exact pure fun _ hs => hs

/-- **A loop that collects, at one of its items**: those before it keep what it needs, and those
after it what it has done. -/
theorem collect_at {before after : List α} {a : α} {Y : β → σ → Prop}
    (hbefore : ∀ c ∈ before, Ensures N X (body c) fun _ => X) (ha : Ensures N X (body a) Y)
    (hafter : ∀ c ∈ after, ∀ b, Ensures N (Y b) (body c) fun _ => Y b) :
    Ensures N X (Prog.collect (before ++ a :: after) body)
      fun bs s => ∃ b ∈ bs[before.length]?, Y b s := by
  induction before with
  | nil =>
    refine ha.bind fun b => ?_
    refine (collect fun c hc => hafter c hc b).bind fun bs => ?_
    exact pure fun s hs => ⟨b, rfl, hs⟩
  | cons c before ih =>
    refine (hbefore c List.mem_cons_self).bind fun b => ?_
    refine (ih fun d hd => hbefore d (List.mem_cons_of_mem c hd)).bind fun bs => ?_
    exact pure fun s hs => hs

/-! ## One of several states -/

variable [DecidableEq κ] {k : κ}

theorem within (h : Ensures N X x Y) :
    Ensures (fun n : κ × ι => n.1 = k ∧ N n.2) (fun w => X (w k)) (Prog.within k x)
      fun a w => Y a (w k) := by
  intro w hw
  obtain ⟨hnotes, hresult⟩ := h (w k) hw
  refine ⟨fun n hn => ?_, fun a ha => ?_⟩
  · obtain ⟨m, hm, rfl⟩ := List.mem_map.mp hn
    exact ⟨rfl, hnotes m hm⟩
  · show Y a (Function.update w k (x (w k)).state k)
    rw [Function.update_self]
    exact hresult a ha

theorem within_of_ne {P : σ → Prop} {j : κ} (hne : j ≠ k) :
    Ensures (fun n : κ × ι => n.1 = j) (fun w => P (w k)) (Prog.within j x)
      fun _ w => P (w k) := by
  intro w hw
  refine ⟨fun n hn => ?_, fun a ha => ?_⟩
  · obtain ⟨m, -, rfl⟩ := List.mem_map.mp hn
    rfl
  · show P (Function.update w j (x (w j)).state k)
    rwa [Function.update_of_ne hne.symm]

end Ensures

/-- Whatever the program returns or raises, it makes only notes in `N` and keeps `I`. -/
def Throughout (N : ι → Prop) (I : σ → Prop) (x : Prog σ ι ε α) : Prop :=
  ∀ s, I s → (∀ n ∈ (x s).notes, N n) ∧ I (x s).state

namespace Throughout

variable {N : ι → Prop} {I : σ → Prop} {x : Prog σ ι ε α}

theorem ensures (h : Throughout N I x) : Ensures N I x fun _ => I :=
  fun s hs => ⟨(h s hs).1, fun _ _ => (h s hs).2⟩

theorem pure {a : α} : Throughout N I (Pure.pure a : Prog σ ι ε α) :=
  fun _ hs => ⟨fun _ hn => absurd hn List.not_mem_nil, hs⟩

theorem raise {e : ε} : Throughout N I (Prog.raise e : Prog σ ι ε α) :=
  fun _ hs => ⟨fun _ hn => absurd hn List.not_mem_nil, hs⟩

theorem bind {f : α → Prog σ ι ε β} (hx : Throughout N I x) (hf : ∀ a, Throughout N I (f a)) :
    Throughout N I (x >>= f) := by
  intro s hs
  obtain ⟨hnotes, hkept⟩ := hx s hs
  change (∀ n ∈ (Prog.followedBy (x s) f).notes, N n) ∧ I (Prog.followedBy (x s) f).state
  unfold Prog.followedBy
  split
  · next a ha =>
    obtain ⟨hnext, hlast⟩ := hf a (x s).state hkept
    refine ⟨fun n hn => ?_, hlast⟩
    exact (List.mem_append.mp hn).elim (hnotes n) (hnext n)
  · exact ⟨hnotes, hkept⟩

theorem attempt (h : Throughout N I x) : Throughout N I x.attempt := h

theorem catching {caught : ε → Bool} {handler : Prog σ ι ε α} (hx : Throughout N I x)
    (hhandler : Throughout N I handler) : Throughout N I (Prog.catching caught x handler) := by
  refine hx.attempt.bind fun r => ?_
  cases r with
  | ok a => exact pure
  | error e =>
    show Throughout N I (if caught e then handler else Prog.raise e)
    split
    · exact hhandler
    · exact raise

theorem ite {b : Bool} {y : Prog σ ι ε α} (hx : b = true → Throughout N I x)
    (hy : b = false → Throughout N I y) : Throughout N I (if b then x else y) := by
  cases b with
  | true => exact hx rfl
  | false => exact hy rfl

end Throughout

end MMRelay
