import MMRelay.Queue.Lifecycle

/-!
# The failed-stop latch

A watchdog finds its wait timed out outside the lock and sets `_stop_failed` later, under it. In
between the cleanup may complete and a new `start()` may succeed.

* `Unpoisoned`: the queue is not both running and latched, and a running queue does not refuse
  `enqueue` because of the latch.
* `step_unpoisoned`: a step keeps this exactly when it does not latch a running queue.
* **`latch_run`**: a run never poisons the queue if and only if every `_mark_stop_failed` of the
  run takes the lock while the queue is not running.
* `lateWatchdog`: the run in which a late watchdog latches a restarted queue.
-/

namespace MMRelay.Queue

/-- The latch does not poison a running queue. -/
def Unpoisoned (s : State) : Prop :=
  ¬ (s.stopFailed = true ∧ s.running = true) ∧
    (s.running = true → (enqueueAdmission s).1 ≠ .failedStop)

/-- The step is the lock-held section of `_mark_stop_failed`. -/
def marksStopFailed (s : State) : Act → Bool
  | .thread i .quiet =>
    match nextOp s i with
    | some (_, _, .markStopFailed, _) => true
    | _ => false
  | _ => false

/-- The latch is set only while the queue is not running. -/
abbrev Timely (s : State) (a : Act) : Prop := marksStopFailed s a = true → s.running = false

theorem clearFailed_of_running {s : State} (hr : s.running = true) :
    clearFailedStopStateIfRecovered s = (false, s) := by
  unfold clearFailedStopStateIfRecovered
  split_ifs with h1 h2
  · rfl
  · rfl
  · rw [hr] at h2
    exact absurd rfl h2

theorem unpoisoned_iff {s : State} :
    Unpoisoned s ↔ ¬ (s.stopFailed = true ∧ s.running = true) := by
  refine ⟨fun h => h.1, fun h => ⟨h, fun hr => ?_⟩⟩
  have hf : ¬ s.stopFailed = true := fun hf => h ⟨hf, hr⟩
  rw [enqueueAdmission, clearFailed_of_running hr]
  simp only [hf, Bool.false_eq_true, if_false]
  split_ifs <;> simp

theorem unpoisoned_init : Unpoisoned init := unpoisoned_iff.mpr (by decide)

/-! ## What each section does to the two flags -/

theorem clearFailed_flags (s : State) :
    (clearFailedStopStateIfRecovered s).2.running = s.running ∧
    ((clearFailedStopStateIfRecovered s).2.stopFailed = true → s.stopFailed = true) := by
  unfold clearFailedStopStateIfRecovered
  split_ifs
  · exact ⟨rfl, id⟩
  · exact ⟨rfl, id⟩
  · exact ⟨rfl, fun h => by cases h⟩

theorem start_flags (s : State) (loopRunning : Bool)
    (h : ¬ (s.stopFailed = true ∧ s.running = true)) :
    ¬ ((start s loopRunning).2.stopFailed = true ∧ (start s loopRunning).2.running = true) := by
  obtain ⟨hr, hf⟩ := clearFailed_flags s
  unfold start
  simp only
  split_ifs with h1 h2 h3 h4
  · rintro ⟨-, hrun⟩
    exact h ⟨hf h1, hr ▸ hrun⟩
  · rintro ⟨hfail, -⟩
    exact h1 hfail
  · rintro ⟨hfail, -⟩
    exact h1 hfail
  · rintro ⟨hfail, -⟩
    unfold ensureExecutor createTask at hfail
    simp only at hfail
    split at hfail <;> exact h1 hfail
  · rintro ⟨hfail, -⟩
    unfold ensureExecutor at hfail
    simp only at hfail
    split at hfail <;> exact h1 hfail

theorem finalizeLocked_flags (s : State) (c : StopCall) :
    (finalizeLocked s c).running = s.running ∧
    ((finalizeLocked s c).stopFailed = true → s.stopFailed = true) := by
  have hd : (dropExecutor (dropTask s c) c).running = s.running ∧
      (dropExecutor (dropTask s c) c).stopFailed = s.stopFailed := by
    unfold dropExecutor dropTask
    split_ifs <;> exact ⟨rfl, rfl⟩
  obtain ⟨hr, hf⟩ := clearFailed_flags (dropExecutor (dropTask s c) c)
  unfold finalizeLocked finishStop
  simp only
  split_ifs with h1 h2
  · exact ⟨hr.trans hd.1, fun h => hd.2 ▸ hf h⟩
  · exact ⟨hd.1, fun h => hd.2 ▸ h⟩
  · exact ⟨hd.1, fun h => hd.2 ▸ h⟩

/-- Only `_mark_stop_failed` sets the latch, and no operation of a thread starts the queue. -/
theorem execOp_flags {s : State} {g : ℕ} {c : StopCall} {op : Op} {e : Env} {r : Effect}
    (hop : op ≠ .markStopFailed) (hr : execOp s g c op e = some r) :
    r.state.running = s.running ∧ (r.state.stopFailed = true → s.stopFailed = true) := by
  cases op with
  | markStopFailed => exact absurd rfl hop
  | finalizeLocked =>
    cases e <;> simp only [execOp, reduceCtorEq] at hr
    cases hr
    exact finalizeLocked_flags s c
  | stopTask =>
    simp only [execOp] at hr
    split at hr
    all_goals try split_ifs at hr
    all_goals cases hr
    all_goals exact ⟨rfl, id⟩
  | stopExecutor | cancelAndCleanup | onTaskDone | waitTask | waitExecutor | runUntilComplete
  | shutdownExecutor | setTaskDone | setTaskCleanupComplete | setExecutorDone
  | setExecutorCleanupComplete | finalizeStopState =>
    cases e <;> simp only [execOp, reduceCtorEq] at hr
    all_goals try split at hr
    all_goals try split_ifs at hr
    all_goals cases hr
    all_goals exact ⟨rfl, id⟩

theorem marksStopFailed_iff {s : State} {i : ℕ} {e : Env} {th : Thread} {c : StopCall} {op : Op}
    {rest : List Op} {r : Effect} (hn : nextOp s i = some (th, c, op, rest))
    (hr : execOp s th.gen c op e = some r) :
    marksStopFailed s (.thread i e) = true ↔ op = .markStopFailed := by
  constructor
  · intro h
    cases e <;> simp only [marksStopFailed, hn, Bool.false_eq_true] at h
    split at h
    · next heq => cases heq; rfl
    · cases h
  · rintro rfl
    cases e <;> simp only [execOp, reduceCtorEq] at hr
    simp only [marksStopFailed, hn]

/-- **One step.** From an unpoisoned queue a step leads to an unpoisoned queue exactly when it
does not latch a running one. -/
theorem step_unpoisoned {s s' : State} {a : Act} (h : Unpoisoned s) (hstep : step s a = some s') :
    Unpoisoned s' ↔ Timely s a := by
  rw [unpoisoned_iff] at h ⊢
  have quiet : marksStopFailed s a = false →
      s'.running = s.running ∧ (s'.stopFailed = true → s.stopFailed = true) →
      (¬ (s'.stopFailed = true ∧ s'.running = true) ↔ Timely s a) := by
    rintro hm ⟨hr, hf⟩
    refine ⟨fun _ hmark => absurd hmark (by simp [hm]), fun _ hp => h ⟨hf hp.1, hr ▸ hp.2⟩⟩
  cases a with
  | start lr =>
    cases hstep
    exact ⟨fun _ hm => absurd hm (by simp [marksStopFailed]), fun _ => start_flags s lr h⟩
  | stop ol =>
    cases hstep
    refine ⟨fun _ hm => absurd hm (by simp [marksStopFailed]), fun _ hp => h ?_⟩
    unfold stop at hp
    split_ifs at hp
    · exact hp
    · cases hp.2
  | ensureProcessorStarted lr =>
    cases hstep
    refine quiet rfl ?_
    unfold ensureProcessorStarted createTask
    simp only
    split_ifs <;> exact ⟨rfl, id⟩
  | enqueue =>
    cases hstep
    refine quiet rfl ?_
    unfold enqueueAdmission
    simp only
    split_ifs <;> exact clearFailed_flags s
  | resetFailedStopState =>
    cases hstep
    refine quiet rfl ?_
    unfold resetFailedStopState
    split_ifs
    · exact ⟨rfl, id⟩
    · exact ⟨rfl, id⟩
    · exact clearFailed_flags s
  | taskFinish t =>
    simp only [step] at hstep
    split_ifs at hstep
    cases hstep
    exact quiet rfl ⟨rfl, id⟩
  | thread i e =>
    obtain ⟨th, c, op, rest, r, hn, hr, rfl⟩ := step_thread hstep
    have hm := marksStopFailed_iff hn hr
    by_cases hop : op = .markStopFailed
    · subst hop
      cases e <;> simp only [execOp, reduceCtorEq] at hr
      cases hr
      have hmark := hm.mpr rfl
      constructor
      · intro hp _
        by_contra hrun
        exact hp ⟨rfl, Bool.of_not_eq_false hrun⟩
      · rintro ht ⟨-, hrun⟩
        have := ht hmark
        change s.running = true at hrun
        rw [this] at hrun
        cases hrun
    · exact quiet (by simpa using fun hmk => hop (hm.mp hmk)) (execOp_flags hop hr)

/-- **The latch.** A run never poisons the queue if and only if each of its `_mark_stop_failed`
steps takes the lock while the queue is not running. -/
theorem latch_run (acts : List Act) :
    Visited step Unpoisoned init acts ↔ AllSteps step Timely init acts :=
  visited_iff_allSteps (fun _ _ _ => step_unpoisoned) unpoisoned_init acts

/-- The caller of `stop()` finds the executor wait timed out; before it takes the lock the
shutdown completes and the queue is started again. -/
def lateWatchdog : List Act :=
  [.start false, .stop false, .thread 0 .quiet, .thread 0 .quiet, .thread 0 .timeout,
    .thread 1 .quiet, .thread 1 .quiet, .thread 1 .quiet, .thread 1 .quiet, .thread 1 .quiet,
    .start false, .thread 0 .quiet]

/-- The late watchdog latches the running queue, which then refuses every message. -/
theorem lateWatchdog_poisons : ∃ s, runActs step init lateWatchdog = some s ∧
    s.stopFailed = true ∧ s.running = true ∧ (enqueueAdmission s).1 = .failedStop ∧
    ¬ Visited step Unpoisoned init lateWatchdog := by
  refine ⟨_, rfl, by decide, by decide, by decide, ?_⟩
  rw [visited_iff_allSteps (fun _ _ _ => step_unpoisoned) unpoisoned_init]
  decide

end MMRelay.Queue
