import MMRelay.Lib.Run
import Mathlib.Data.List.Nodup
import Mathlib.Data.Rat.Defs
import Mathlib.Algebra.Order.Ring.Rat
import Mathlib.Tactic.Linarith

/-!
# The accounting of metadata probes

`_submit_metadata_probe`, `_schedule_metadata_future_cleanup`,
`_reset_metadata_executor_for_stale_probe`, `_clear_metadata_future_if_current` and
`reset_executor_degraded_state` (`meshtastic/executors.py`). A section that holds
`_metadata_future_lock` is one step; between two sections of a caller or a watchdog the others may
run. A probe is found to be stale in one section and the executor is reset in another.

* `State`, `Act`, `step`: callers, watchdogs, probes and executors;
* `Current`: a reset finds the future for which it was called;
* **`probes_sound`**: then every probe is counted once and no later probe is abandoned;
* `threshold_kept`: the bound on the orphans, without a condition;
* `stale_twice`: two parties that saw the same stale probe both reset.
-/

namespace MMRelay.Executor.Probe

/-! ## The parties -/

/-- `METADATA_WATCHDOG_SECS`. -/
def metadataWatchdogSecs : ℚ := 30

/-- `EXECUTOR_ORPHAN_THRESHOLD`. -/
def executorOrphanThreshold : ℕ := 5

/-- A probe: its executor, `future.done()`, the time of its submission, and whether the executor was
degraded then. -/
structure Entry where
  executor : ℕ
  done : Bool
  startedAt : ℚ
  degraded : Bool
  deriving DecidableEq

/-- Why the executor is reset. -/
inductive Cause
  /-- The probe was the current one and was stale. -/
  | stale (p : ℕ)
  /-- `submit` raised `RuntimeError`, with this future. -/
  | failure (future : Option ℕ)
  deriving DecidableEq

/-- The future that was current when the reset was decided. -/
def Cause.observed : Cause → Option ℕ
  | stale p => some p
  | failure future => future

/-- The probe that the reset counts as an orphan. -/
def Cause.orphan : Cause → List ℕ
  | stale p => [p]
  | failure _ => []

theorem Cause.observed_of_mem_orphan {cause : Cause} {p : ℕ} (h : p ∈ cause.orphan) :
    cause.observed = some p := by
  cases cause with
  | stale q =>
    rw [List.mem_singleton.mp h]
    rfl
  | failure future => cases h

/-- Where a caller of `_submit_metadata_probe` or a watchdog is. -/
inductive Task
  /-- A caller, before its second section. -/
  | submission
  /-- A watchdog, before the section that compares the futures. -/
  | cleanup (p : ℕ)
  /-- Before `_reset_metadata_executor_for_stale_probe`; `seen` is the number of probes when the
  reset was decided, and a caller that `retries` goes on to its second section. -/
  | reset (cause : Cause) (seen : ℕ) (retries : Bool)
  deriving DecidableEq

/-- The shared variables, the probes and the parties. `counted` and `wronged` record which probes a
reset counted as orphans, and which it cleared or abandoned although they were submitted later than
it was decided. -/
structure State where
  now : ℚ
  future : Option ℕ := none
  executor : Option ℕ := none
  nextExecutor : ℕ := 0
  /-- Executors that are to be shut down, and those that were. -/
  stopping : List ℕ := []
  stopped : List ℕ := []
  orphans : ℕ := 0
  degraded : Bool := false
  probes : List Entry := []
  /-- Watchdogs that have not fired. -/
  armed : List ℕ := []
  tasks : List Task := []
  counted : List ℕ := []
  wronged : List ℕ := []
  deriving DecidableEq

inductive Act
  | tick (t : ℚ)
  /-- The first section of `_submit_metadata_probe`. -/
  | call
  /-- Its second section; `fails` if the executor raises `RuntimeError`. -/
  | submit (i : ℕ) (fails : Bool)
  | finish (p : ℕ)
  /-- `_clear_metadata_future_if_current`. -/
  | clear (p : ℕ)
  /-- The watchdog fires and tests `future.done()`. -/
  | fire (p : ℕ)
  | cleanup (i : ℕ)
  | reset (i : ℕ)
  | stop (e : ℕ)
  /-- `reset_executor_degraded_state`. -/
  | recover
  deriving DecidableEq

namespace State

variable (s : State)

/-- `not future.done()`. -/
def pending (p : ℕ) : Bool :=
  match s.probes[p]? with
  | some entry => !entry.done
  | none => false

/-- The executor can take probes: it is there and was not shut down. -/
def usable : Option ℕ → Bool
  | some e => !s.stopped.contains e
  | none => false

/-- The current probe is not done. -/
def busy : Bool := s.future.any s.pending

/-- The probe runs on the current executor. -/
def onExecutor (p : ℕ) : Bool :=
  match s.probes[p]?, s.executor with
  | some entry, some e => entry.executor == e
  | _, _ => false

/-- The probes that a reset now clears or abandons, from the number `seen` on. -/
def lost (seen : ℕ) : List ℕ :=
  (List.range s.probes.length).filter fun p =>
    decide (seen ≤ p) && (decide (s.future = some p) || s.onExecutor p && s.pending p)

/-- `_get_metadata_executor`. -/
def getExecutor : ℕ := if s.usable s.executor then s.executor.getD 0 else s.nextExecutor

/-- The executor is created if it is needed. -/
def withExecutor : State :=
  if s.usable s.executor then s
  else { s with executor := some s.nextExecutor, nextExecutor := s.nextExecutor + 1 }

/-- `_reset_metadata_executor_for_stale_probe`. -/
def resetFor (cause : Cause) (seen : ℕ) : State :=
  if s.degraded then s
  else
    let s' : State :=
      { s with
        future := none
        wronged := s.wronged ++ s.lost seen
        stopping := s.stopping ++ s.executor.toList }
    if executorOrphanThreshold ≤ s.orphans + 1 then
      { s' with
        degraded := true, orphans := s.orphans + 1, executor := none
        counted := s.counted ++ cause.orphan }
    else
      let s' := { s' with executor := some s.nextExecutor, nextExecutor := s.nextExecutor + 1 }
      if s.usable s.executor then
        { s' with orphans := s.orphans + 1, counted := s.counted ++ cause.orphan }
      else s'

/-- The probe is submitted. -/
def submitProbe : State :=
  let s' := s.withExecutor
  { s' with
    future := some s.probes.length
    probes := s.probes ++ [⟨s.getExecutor, false, s.now, s.degraded⟩]
    armed := s.armed ++ [s.probes.length] }

/-- The task goes on as `t`, or ends. -/
def advance (i : ℕ) : Option Task → State
  | some t => { s with tasks := s.tasks.set i t }
  | none => { s with tasks := s.tasks.eraseIdx i }

end State

/-- The first section of `_submit_metadata_probe`. -/
def call (s : State) : State :=
  match s.future with
  | some p =>
    if s.pending p then
      if s.now - (s.probes[p]?.map Entry.startedAt).getD s.now < metadataWatchdogSecs then s
      else { s with tasks := s.tasks ++ [.reset (.stale p) s.probes.length true] }
    else { s with tasks := s.tasks ++ [.submission] }
  | none => { s with tasks := s.tasks ++ [.submission] }

/-- The second section. -/
def submit (s : State) (i : ℕ) (fails : Bool) : State :=
  if s.degraded then s.advance i none
  else if s.busy then s.advance i none
  else if fails then
    s.withExecutor.advance i (some (.reset (.failure s.future) s.probes.length false))
  else s.submitProbe.advance i none

def step (s : State) : Act → Option State
  | .tick t => if s.now ≤ t then some { s with now := t } else none
  | .call => some (call s)
  | .submit i fails => if s.tasks[i]? = some .submission then some (submit s i fails) else none
  | .finish p =>
    match s.probes[p]? with
    | some entry => some { s with probes := s.probes.set p { entry with done := true } }
    | none => none
  | .clear p =>
    if p < s.probes.length ∧ s.pending p = false then
      some (if s.future = some p then { s with future := none } else s)
    else none
  | .fire p =>
    match s.probes[p]? with
    | some entry =>
      if p ∈ s.armed ∧ entry.startedAt + metadataWatchdogSecs ≤ s.now then
        some { s with armed := s.armed.erase p
                      tasks := s.tasks ++ if entry.done then [] else [.cleanup p] }
      else none
    | none => none
  | .cleanup i =>
    match s.tasks[i]? with
    | some (.cleanup p) =>
      some (s.advance i
        (if s.future = some p then some (.reset (.stale p) s.probes.length false) else none))
    | _ => none
  | .reset i =>
    match s.tasks[i]? with
    | some (.reset cause seen retries) =>
      some ((s.resetFor cause seen).advance i (if retries then some .submission else none))
    | _ => none
  | .stop e =>
    if e ∈ s.stopping then
      some { s with stopping := s.stopping.erase e, stopped := e :: s.stopped }
    else none
  | .recover =>
    some (if s.degraded then
      { s with degraded := false, orphans := 0, executor := none
               stopping := s.stopping ++ s.executor.toList }
      else s)

/-- The state after a run from the time `now`. -/
def run (now : ℚ) (as : List Act) : Option State := runActs step { now := now } as

/-- A reset finds the future for which it was decided, or a degraded executor. -/
def isCurrent (s : State) : Act → Bool
  | .reset i =>
    match s.tasks[i]? with
    | some (.reset cause _ _) => s.degraded || decide (s.future = cause.observed)
    | _ => true
  | _ => true

def Current (s : State) (a : Act) : Prop := isCurrent s a = true

instance (s : State) (a : Act) : Decidable (Current s a) :=
  inferInstanceAs (Decidable (isCurrent s a = true))

/-- The accounting is right. -/
structure Sound (s : State) : Prop where
  once : s.counted.Nodup
  /-- No reset clears or abandons a probe that was submitted after the reset was decided. -/
  spared : s.wronged = []
  threshold : s.degraded = false → s.orphans < executorOrphanThreshold
  refused : ∀ entry ∈ s.probes, entry.degraded = false

/-! ## What every step keeps -/

variable {s s' : State}

/-- What holds in every reachable state. -/
structure Inv (s : State) : Prop where
  threshold : s.degraded = false → s.orphans < executorOrphanThreshold
  refused : ∀ entry ∈ s.probes, entry.degraded = false
  current : ∀ p, s.future = some p → p < s.probes.length
  fresh : ∀ e, s.executor = some e → e < s.nextExecutor
  placed : ∀ entry ∈ s.probes, entry.executor < s.nextExecutor
  /-- The current executor runs no other probe than the current one. -/
  alone : ∀ (p : ℕ) entry, s.probes[p]? = some entry → s.executor = some entry.executor →
    entry.done = false → s.future = some p
  tasks : ∀ cause seen retries, Task.reset cause seen retries ∈ s.tasks →
    seen ≤ s.probes.length ∧ ∀ p, cause.observed = some p → p < seen

namespace Inv

theorem setTasks (h : Inv s) {tasks : List Task}
    (htasks : ∀ cause seen retries, Task.reset cause seen retries ∈ tasks →
      Task.reset cause seen retries ∈ s.tasks ∨
        seen = s.probes.length ∧ ∀ p, cause.observed = some p → s.future = some p) :
    Inv { s with tasks := tasks } := by
  refine { h with tasks := fun cause seen retries hmem => ?_ }
  rcases htasks cause seen retries hmem with hold | ⟨rfl, hnew⟩
  · exact h.tasks cause seen retries hold
  · exact ⟨Nat.le_refl _, fun p hp => h.current p (hnew p hp)⟩

theorem advance (h : Inv s) (i : ℕ) {next : Option Task}
    (hnext : ∀ cause seen retries, next = some (.reset cause seen retries) →
      seen = s.probes.length ∧ ∀ p, cause.observed = some p → s.future = some p) :
    Inv (s.advance i next) := by
  cases next with
  | none =>
    exact h.setTasks fun cause seen retries hmem => Or.inl (List.mem_of_mem_eraseIdx hmem)
  | some t =>
    refine h.setTasks fun cause seen retries hmem => ?_
    rcases List.mem_or_eq_of_mem_set hmem with hold | rfl
    · exact Or.inl hold
    · exact Or.inr (hnext cause seen retries rfl)

theorem withExecutor (h : Inv s) : Inv s.withExecutor := by
  unfold State.withExecutor
  split_ifs
  · exact h
  · refine { h with fresh := ?_, placed := ?_, alone := ?_ }
    · intro e he
      cases he
      exact Nat.lt_succ_self _
    · intro entry hentry
      exact Nat.lt_succ_of_lt (h.placed entry hentry)
    · intro p entry hp he hdone
      -- a new executor runs no probe
      have hlt := h.placed entry (List.mem_of_getElem? hp)
      rw [← Option.some.inj he] at hlt
      exact absurd hlt (Nat.lt_irrefl _)

theorem getExecutor_eq : s.withExecutor.executor = some s.getExecutor := by
  unfold State.withExecutor State.getExecutor
  split_ifs with husable
  · cases he : s.executor with
    | none =>
      rw [he] at husable
      cases husable
    | some e => rfl
  · rfl

theorem submitProbe (h : Inv s) (hdegraded : s.degraded = false) (hbusy : s.busy = false) :
    Inv s.submitProbe := by
  have hwith := h.withExecutor
  have hprobes : s.withExecutor.probes = s.probes := by
    unfold State.withExecutor
    split_ifs <;> rfl
  have hfuture : s.withExecutor.future = s.future := by
    unfold State.withExecutor
    split_ifs <;> rfl
  have hdeg : s.withExecutor.degraded = s.degraded := by
    unfold State.withExecutor
    split_ifs <;> rfl
  have htasks : s.withExecutor.tasks = s.tasks := by
    unfold State.withExecutor
    split_ifs <;> rfl
  unfold State.submitProbe
  refine ⟨hwith.threshold, ?_, ?_, hwith.fresh, ?_, ?_, ?_⟩
  · intro entry hentry
    rcases List.mem_append.mp hentry with hentry | hentry
    · exact h.refused entry hentry
    · rw [List.mem_singleton.mp hentry]
      exact hdegraded
  · intro p hp
    rw [← Option.some.inj hp]
    simp
  · intro entry hentry
    rcases List.mem_append.mp hentry with hentry | hentry
    · exact hwith.placed entry (hprobes ▸ hentry)
    · rw [List.mem_singleton.mp hentry]
      exact hwith.fresh _ getExecutor_eq
  · intro p entry hp he hdone
    change (s.probes ++ [_])[p]? = some entry at hp
    rw [List.getElem?_append] at hp
    split_ifs at hp with hlt
    · -- the probes before are done: the future would have been busy
      have hold := hwith.alone p entry (hprobes ▸ hp) he hdone
      rw [hfuture] at hold
      rw [State.busy, hold] at hbusy
      simp [State.pending, hp, hdone] at hbusy
    · have hlt' := (List.getElem?_eq_some_iff.mp hp).1
      simp only [List.length_singleton] at hlt'
      show some s.probes.length = some p
      congr 1
      omega
  · intro cause seen retries hmem
    change _ ∈ s.withExecutor.tasks at hmem
    rw [htasks] at hmem
    obtain ⟨hle, hp⟩ := h.tasks cause seen retries hmem
    refine ⟨?_, hp⟩
    simp only [List.length_append, List.length_singleton]
    omega

theorem resetFor (h : Inv s) (cause : Cause) (seen : ℕ) : Inv (s.resetFor cause seen) := by
  unfold State.resetFor
  simp only
  split_ifs with hdegraded hthreshold husable
  · exact h
  · refine { h with threshold := ?_, current := ?_, fresh := ?_, alone := ?_ }
    · intro hfalse
      cases hfalse
    · intro p hp
      cases hp
    · intro e he
      cases he
    · intro p entry _ he _
      cases he
  · refine { h with threshold := ?_, current := ?_, fresh := ?_, placed := ?_, alone := ?_ }
    · intro _
      show s.orphans + 1 < executorOrphanThreshold
      omega
    · intro p hp
      cases hp
    · intro e he
      cases he
      exact Nat.lt_succ_self _
    · intro entry hentry
      exact Nat.lt_succ_of_lt (h.placed entry hentry)
    · intro p entry hp he _
      have hlt := h.placed entry (List.mem_of_getElem? hp)
      rw [← Option.some.inj he] at hlt
      exact absurd hlt (Nat.lt_irrefl _)
  · refine { h with current := ?_, fresh := ?_, placed := ?_, alone := ?_ }
    · intro p hp
      cases hp
    · intro e he
      cases he
      exact Nat.lt_succ_self _
    · intro entry hentry
      exact Nat.lt_succ_of_lt (h.placed entry hentry)
    · intro p entry hp he _
      have hlt := h.placed entry (List.mem_of_getElem? hp)
      rw [← Option.some.inj he] at hlt
      exact absurd hlt (Nat.lt_irrefl _)

theorem call (h : Inv s) : Inv (Probe.call s) := by
  have hsubmission : Inv { s with tasks := s.tasks ++ [.submission] } := by
    refine h.setTasks fun cause seen retries hmem => ?_
    rcases List.mem_append.mp hmem with hmem | hmem
    · exact Or.inl hmem
    · cases List.mem_singleton.mp hmem
  unfold Probe.call
  split
  · next p hp =>
    split_ifs
    · exact h
    · refine h.setTasks fun cause seen retries hmem => ?_
      rcases List.mem_append.mp hmem with hmem | hmem
      · exact Or.inl hmem
      · cases List.mem_singleton.mp hmem
        exact Or.inr ⟨rfl, fun q hq => by rw [← hq]; exact hp⟩
    · exact hsubmission
  · exact hsubmission

theorem submit (h : Inv s) (i : ℕ) (fails : Bool) : Inv (Probe.submit s i fails) := by
  unfold Probe.submit
  split_ifs with hdegraded hbusy hfails
  · exact h.advance i (by simp)
  · exact h.advance i (by simp)
  · refine h.withExecutor.advance i ?_
    intro cause seen retries heq
    cases heq
    unfold State.withExecutor
    split_ifs
    · exact ⟨rfl, fun p hp => hp⟩
    · exact ⟨rfl, fun p hp => hp⟩
  · exact (h.submitProbe (by simpa using hdegraded) (by simpa using hbusy)).advance i (by simp)

theorem finish (h : Inv s) {p : ℕ} {entry : Entry} (hp : s.probes[p]? = some entry) :
    Inv { s with probes := s.probes.set p { entry with done := true } } := by
  have hmem : ∀ x ∈ s.probes.set p { entry with done := true },
      ∃ y ∈ s.probes, x.degraded = y.degraded ∧ x.executor = y.executor := by
    intro x hx
    rcases List.mem_or_eq_of_mem_set hx with hx | rfl
    · exact ⟨x, hx, rfl, rfl⟩
    · exact ⟨entry, List.mem_of_getElem? hp, rfl, rfl⟩
  refine ⟨h.threshold, ?_, ?_, h.fresh, ?_, ?_, ?_⟩
  · intro x hx
    obtain ⟨y, hy, hdeg, -⟩ := hmem x hx
    rw [hdeg]
    exact h.refused y hy
  · intro q hq
    rw [List.length_set]
    exact h.current q hq
  · intro x hx
    obtain ⟨y, hy, -, hexec⟩ := hmem x hx
    rw [hexec]
    exact h.placed y hy
  · intro q x hq hexec hdone
    change (s.probes.set p _)[q]? = some x at hq
    by_cases hpq : p = q
    · subst hpq
      rw [List.getElem?_set_self (List.getElem?_eq_some_iff.mp hp).1] at hq
      rw [← Option.some.inj hq] at hdone
      cases hdone
    · rw [List.getElem?_set_ne hpq] at hq
      exact h.alone q x hq hexec hdone
  · intro cause seen retries hmem
    rw [List.length_set]
    exact h.tasks cause seen retries hmem

theorem clear (h : Inv s) {p : ℕ} (hdone : s.pending p = false) (hp : s.future = some p) :
    Inv { s with future := none } := by
  refine { h with current := ?_, alone := ?_ }
  · intro q hq
    cases hq
  intro q entry hq hexec hundone
  have hfuture := h.alone q entry hq hexec hundone
  rw [hp] at hfuture
  rw [Option.some.inj hfuture, State.pending, hq] at hdone
  simp [hundone] at hdone

theorem step {a : Act} (h : Inv s) (hs : Probe.step s a = some s') : Inv s' := by
  cases a with
  | tick t =>
    simp only [Probe.step] at hs
    split_ifs at hs
    cases hs
    exact ⟨h.threshold, h.refused, h.current, h.fresh, h.placed, h.alone, h.tasks⟩
  | call =>
    cases hs
    exact h.call
  | submit i fails =>
    simp only [Probe.step] at hs
    split at hs
    · cases hs
      exact h.submit i fails
    · cases hs
  | finish p =>
    simp only [Probe.step] at hs
    split at hs
    · next entry hp =>
      cases hs
      exact h.finish hp
    · cases hs
  | clear p =>
    simp only [Probe.step] at hs
    split at hs
    · next hguard =>
      cases hs
      split_ifs with hp
      · exact h.clear hguard.2 hp
      · exact h
    · cases hs
  | fire p =>
    simp only [Probe.step] at hs
    split at hs
    · split_ifs at hs
      all_goals cases hs
      · have hkeep : Inv { s with tasks := s.tasks ++ [] } :=
          h.setTasks fun cause seen retries hmem => Or.inl (by simpa using hmem)
        exact ⟨h.threshold, h.refused, h.current, h.fresh, h.placed, h.alone, hkeep.tasks⟩
      · have hkeep : Inv { s with tasks := s.tasks ++ [.cleanup p] } :=
          h.setTasks fun cause seen retries hmem => Or.inl (by simpa using hmem)
        exact ⟨h.threshold, h.refused, h.current, h.fresh, h.placed, h.alone, hkeep.tasks⟩
    · cases hs
  | cleanup i =>
    simp only [Probe.step] at hs
    split at hs
    · next p _ =>
      cases hs
      refine h.advance i fun cause seen retries heq => ?_
      split_ifs at heq with hp
      cases heq
      exact ⟨rfl, fun q hq => by rw [← hq]; exact hp⟩
    · cases hs
  | reset i =>
    simp only [Probe.step] at hs
    split at hs
    · next cause seen retries _ =>
      cases hs
      refine (h.resetFor cause seen).advance i fun cause' seen' retries' heq => ?_
      split_ifs at heq
      cases heq
    · cases hs
  | stop e =>
    simp only [Probe.step] at hs
    split_ifs at hs
    cases hs
    exact ⟨h.threshold, h.refused, h.current, h.fresh, h.placed, h.alone, h.tasks⟩
  | recover =>
    cases hs
    split_ifs
    · refine { h with threshold := fun _ => ?_, fresh := ?_, alone := ?_ }
      · show 0 < executorOrphanThreshold
        decide
      · intro e he
        cases he
      · intro p entry _ he _
        cases he
    · exact h

end Inv

/-! ## Runs -/

theorem resetFor_cases (s : State) (cause : Cause) (seen : ℕ) :
    (s.degraded = true ∧ s.resetFor cause seen = s) ∨
      (s.degraded = false ∧ (s.resetFor cause seen).future = none ∧
        (s.resetFor cause seen).probes = s.probes ∧
        (s.resetFor cause seen).wronged = s.wronged ++ s.lost seen ∧
        ((s.resetFor cause seen).counted = s.counted ∨
          (s.resetFor cause seen).counted = s.counted ++ cause.orphan)) := by
  unfold State.resetFor
  cases hdegraded : s.degraded with
  | true => exact Or.inl ⟨rfl, rfl⟩
  | false =>
    refine Or.inr ⟨rfl, ?_⟩
    simp only [Bool.false_eq_true, if_false]
    split_ifs
    · exact ⟨rfl, rfl, rfl, Or.inr rfl⟩
    · exact ⟨rfl, rfl, rfl, Or.inr rfl⟩
    · exact ⟨rfl, rfl, rfl, Or.inl rfl⟩

/-- What holds as long as every reset finds the future for which it was decided. -/
structure Kept (s : State) : Prop where
  inv : Inv s
  once : s.counted.Nodup
  spared : s.wronged = []
  gone : ∀ p ∈ s.counted, p < s.probes.length ∧ s.future ≠ some p

namespace Kept

theorem sound (h : Kept s) : Sound s where
  once := h.once
  spared := h.spared
  threshold := h.inv.threshold
  refused := h.inv.refused

theorem same (h : Kept s) (hinv : Inv s') (hcounted : s'.counted = s.counted)
    (hwronged : s'.wronged = s.wronged) (hprobes : s.probes.length ≤ s'.probes.length)
    (hfuture : ∀ p, s'.future = some p → s.future = some p ∨ s.probes.length ≤ p) : Kept s' := by
  refine ⟨hinv, by rw [hcounted]; exact h.once, by rw [hwronged]; exact h.spared, ?_⟩
  intro p hp
  rw [hcounted] at hp
  obtain ⟨hlt, hne⟩ := h.gone p hp
  refine ⟨by omega, fun hcurrent => ?_⟩
  rcases hfuture p hcurrent with hold | hnew
  · exact hne hold
  · omega

theorem setTasks (h : Kept s) {tasks : List Task} (hinv : Inv { s with tasks := tasks }) :
    Kept { s with tasks := tasks } :=
  h.same hinv rfl rfl (Nat.le_refl _) fun _ hp => Or.inl hp

theorem advance (h : Kept s) {i : ℕ} {next : Option Task} (hinv : Inv (s.advance i next)) :
    Kept (s.advance i next) := by
  cases next with
  | none => exact h.setTasks hinv
  | some t => exact h.setTasks hinv

theorem call (h : Kept s) (hinv : Inv (Probe.call s)) : Kept (Probe.call s) := by
  unfold Probe.call at hinv ⊢
  split at hinv
  · split_ifs at hinv ⊢
    · exact h
    · exact h.setTasks hinv
    · exact h.setTasks hinv
  · exact h.setTasks hinv

theorem withExecutor (h : Kept s) : Kept s.withExecutor := by
  have hinv := h.inv.withExecutor
  unfold State.withExecutor at hinv ⊢
  split_ifs at hinv ⊢
  · exact h
  · exact h.same hinv rfl rfl (Nat.le_refl _) fun _ hp => Or.inl hp

theorem submitProbe (h : Kept s) (hinv : Inv s.submitProbe) : Kept s.submitProbe := by
  have hwith := h.withExecutor
  have hprobes : s.withExecutor.probes = s.probes := by
    unfold State.withExecutor
    split_ifs <;> rfl
  refine hwith.same hinv rfl rfl ?_ fun p hp => ?_
  · show s.withExecutor.probes.length ≤ (s.probes ++ [_]).length
    rw [hprobes, List.length_append]
    exact Nat.le_add_right _ _
  · rw [hprobes, ← Option.some.inj hp]
    exact Or.inr (Nat.le_refl _)

theorem submit (h : Kept s) {i : ℕ} {fails : Bool} (hinv : Inv (Probe.submit s i fails)) :
    Kept (Probe.submit s i fails) := by
  unfold Probe.submit at hinv ⊢
  split_ifs at hinv ⊢ with hdegraded hbusy
  · exact h.advance hinv
  · exact h.advance hinv
  · exact h.withExecutor.advance hinv
  · have hprobe := h.inv.submitProbe (by simpa using hdegraded) (by simpa using hbusy)
    exact (h.submitProbe hprobe).advance hinv

theorem lost_eq_nil (h : Kept s) {cause : Cause} {seen : ℕ}
    (htask : ∀ p, cause.observed = some p → p < seen) (hcurrent : s.future = cause.observed) :
    s.lost seen = [] := by
  rw [List.eq_nil_iff_forall_not_mem]
  intro p hp
  have hlost := (List.mem_filter.mp hp).2
  rw [Bool.and_eq_true, decide_eq_true_eq, Bool.or_eq_true, decide_eq_true_eq] at hlost
  obtain ⟨hle, hp⟩ := hlost
  have hfuture : s.future = some p := by
    rcases hp with hp | hp
    · exact hp
    · rw [Bool.and_eq_true] at hp
      obtain ⟨hon, hpending⟩ := hp
      unfold State.onExecutor at hon
      unfold State.pending at hpending
      split at hon
      · next entry e hentry he =>
        rw [hentry] at hpending
        rw [← beq_iff_eq.mp hon] at he
        exact h.inv.alone p entry hentry he (by simpa using hpending)
      · cases hon
  have hlt := htask p (hcurrent ▸ hfuture)
  omega

theorem resetFor (h : Kept s) {cause : Cause} {seen : ℕ}
    (htask : ∀ p, cause.observed = some p → p < seen)
    (hcurrent : s.degraded = true ∨ s.future = cause.observed) :
    Kept (s.resetFor cause seen) := by
  have hinv := h.inv.resetFor cause seen
  rcases resetFor_cases s cause seen with ⟨-, heq⟩ | ⟨hopen, hnone, hprobes, hwronged, hcounted⟩
  · rw [heq]
    exact h
  have hfuture : s.future = cause.observed := by
    rcases hcurrent with hdegraded | hfuture
    · rw [hopen] at hdegraded
      cases hdegraded
    · exact hfuture
  have hspared : (s.resetFor cause seen).wronged = [] := by
    rw [hwronged, h.spared, h.lost_eq_nil htask hfuture]
    rfl
  have hgone : ∀ p ∈ (s.resetFor cause seen).counted, p < s.probes.length := by
    intro p hp
    rcases hcounted with hcounted | hcounted
    · rw [hcounted] at hp
      exact (h.gone p hp).1
    · rw [hcounted] at hp
      rcases List.mem_append.mp hp with hp | hp
      · exact (h.gone p hp).1
      · exact h.inv.current p (by rw [hfuture]; exact Cause.observed_of_mem_orphan hp)
  refine ⟨hinv, ?_, hspared, fun p hp => ⟨by rw [hprobes]; exact hgone p hp, by simp [hnone]⟩⟩
  rcases hcounted with hcounted | hcounted
  · rw [hcounted]
    exact h.once
  · rw [hcounted, List.nodup_append]
    refine ⟨h.once, ?_, fun p hp q hq hpq => ?_⟩
    · cases cause with
      | stale p => exact List.nodup_singleton p
      | failure future => exact List.nodup_nil
    · -- the probe that is counted now is current, one that was counted is not
      have hq' := Cause.observed_of_mem_orphan hq
      rw [← hpq, ← hfuture] at hq'
      exact (h.gone p hp).2 hq'

theorem step {a : Act} (h : Kept s) (hcurrent : Current s a) (hs : Probe.step s a = some s') :
    Kept s' := by
  have hinv := h.inv.step hs
  cases a with
  | reset i =>
    simp only [Probe.step] at hs
    split at hs
    · next cause seen retries htask =>
      cases hs
      have hmem := List.mem_of_getElem? htask
      have hkept := h.resetFor (h.inv.tasks cause seen retries hmem).2
        (by simpa [Current, isCurrent, htask] using hcurrent)
      exact hkept.advance hinv
    · cases hs
  | submit i fails =>
    simp only [Probe.step] at hs
    split at hs
    · cases hs
      exact h.submit hinv
    · cases hs
  | tick t =>
    simp only [Probe.step] at hs
    split_ifs at hs
    cases hs
    exact h.same hinv rfl rfl (Nat.le_refl _) fun p hp => Or.inl hp
  | call =>
    cases hs
    exact h.call hinv
  | finish p =>
    simp only [Probe.step] at hs
    split at hs
    · cases hs
      refine h.same hinv rfl rfl ?_ fun p hp => Or.inl hp
      rw [List.length_set]
    · cases hs
  | clear p =>
    simp only [Probe.step] at hs
    split at hs
    · cases hs
      split_ifs at hinv ⊢
      · refine h.same hinv rfl rfl (Nat.le_refl _) fun q hq => ?_
        cases hq
      · exact h
    · cases hs
  | fire p =>
    simp only [Probe.step] at hs
    split at hs
    · split_ifs at hs
      all_goals
        cases hs
        exact h.same hinv rfl rfl (Nat.le_refl _) fun p hp => Or.inl hp
    · cases hs
  | cleanup i =>
    simp only [Probe.step] at hs
    split at hs
    · cases hs
      exact h.advance hinv
    · cases hs
  | stop e =>
    simp only [Probe.step] at hs
    split_ifs at hs
    cases hs
    exact h.same hinv rfl rfl (Nat.le_refl _) fun p hp => Or.inl hp
  | recover =>
    cases hs
    split_ifs at hinv ⊢
    · exact h.same hinv rfl rfl (Nat.le_refl _) fun p hp => Or.inl hp
    · exact h

end Kept

theorem inv_init (now : ℚ) : Inv { now := now } where
  threshold _ := by
    show 0 < executorOrphanThreshold
    decide
  refused _ h := by cases h
  current _ h := by cases h
  fresh _ h := by cases h
  placed _ h := by cases h
  alone _ _ h := by simp at h
  tasks _ _ _ h := by cases h

theorem kept_init (now : ℚ) : Kept { now := now } where
  inv := inv_init now
  once := List.nodup_nil
  spared := rfl
  gone _ h := by cases h

/-- The orphans stay below the threshold while the executor is not degraded, and no probe is
submitted while it is, in every run. -/
theorem threshold_kept {now : ℚ} {as : List Act} (h : run now as = some s) :
    (s.degraded = false → s.orphans < executorOrphanThreshold) ∧
      ∀ entry ∈ s.probes, entry.degraded = false := by
  have hinv : Inv s := runActs_keeps (fun t a t' ht hstep => ht.step hstep) (inv_init now) h
  exact ⟨hinv.threshold, hinv.refused⟩

/-- **The accounting of probes.** In a run in which every reset finds the future for which it was
decided, every state is sound. -/
theorem probes_sound (now : ℚ) (as : List Act)
    (h : AllSteps step Current { now := now } as) : Visited step Sound { now := now } as :=
  visited_of_invariant (fun _ _ _ hs hcurrent hstep => hs.step hcurrent hstep)
    (fun _ hs => hs.sound) (kept_init now) h

/-- A probe hangs, a later call resets the executor and submits another one. -/
def oneRetry : List Act :=
  [.call, .submit 0 false, .tick 30, .call, .reset 0, .submit 0 false]

theorem current_oneRetry : AllSteps step Current { now := 0 } oneRetry := by
  decide +kernel

theorem probes_sound_oneRetry : Visited step Sound { now := 0 } oneRetry :=
  probes_sound 0 oneRetry current_oneRetry

/-- What two callers leave that saw the same stale probe. -/
def twiceState : State where
  now := 30
  executor := some 2
  nextExecutor := 3
  stopping := [0, 1]
  orphans := 2
  probes := [⟨0, false, 0, false⟩, ⟨1, false, 30, false⟩]
  armed := [0, 1]
  tasks := [.submission]
  counted := [0, 0]
  wronged := [1]

/-- Two callers see the same stale probe: the first resets the executor and submits a probe, the
second counts the stale probe again and abandons the new one. -/
theorem stale_twice :
    run 0 [.call, .submit 0 false, .tick 30, .call, .call, .reset 0, .submit 0 false, .reset 0] =
      some twiceState ∧ ¬ Sound twiceState := by
  refine ⟨by decide +kernel, fun hsound => ?_⟩
  have honce := hsound.once
  exact absurd honce (by decide)

end MMRelay.Executor.Probe
