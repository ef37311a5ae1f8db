import MMRelay.Lib.Run
import MMRelay.Radio.Timing

/-!
# The startup drain and its completion event

The drain deadline, the expiry timers and the completion event under connect attempts, timer
callbacks and packet handlers (`meshtastic/connection.py`, `meshtastic/events.py`). A section that
holds `_relay_rx_time_clock_skew_lock` and an operation on the event are one step each; between them
the other parties may run.

* `Job`, `stepJob`: `_schedule_startup_drain_deadline_cleanup`, run by an attempt or by a callback;
* `State`, `Act`, `step`: the parties;
* `Orderly`: no window is closed before its arming has cleared the event, and none is armed before
  the end of the last one has been signalled;
* **`drain_signalled`**: then the event agrees with the deadline in every quiescent state;
* **`cleared_after_signal`**: without it the event may stay cleared for good.
-/

namespace MMRelay.Radio.Drain

/-! ## The parties -/

/-- `_schedule_startup_drain_deadline_cleanup` for a deadline, and the signal of completion. -/
inductive Job
  | schedule (d : ℚ)
  /-- The timer `j` is stored: the previous one is cancelled and `j` is started. -/
  | start (prev : Option ℕ) (j : ℕ) (d : ℚ)
  | startFailed (j : ℕ) (d : ℚ)
  /-- `_signal_startup_drain_complete`. -/
  | signal
  deriving DecidableEq

/-- Where the connect attempt is. -/
inductive Pc
  | idle
  | begun
  /-- A reconnect signals the completion before it publishes its client. -/
  | signalling
  /-- Between the timing reset and the drain; `pending` if the drain is to be armed. -/
  | setup (pending : Bool)
  /-- The deadline is stored and the event not cleared yet. -/
  | clearing (d : ℚ)
  | job (j : Job)
  | finishing
  /-- Before the sections of `_rollback_connect_attempt_state`. -/
  | rollingBack
  | rolledBack (timer : Option ℕ)
  deriving DecidableEq

/-- The callback of a timer: before its section, or at a job. -/
inductive Task
  | idle
  | cleanup
  | job (j : Job)
  deriving DecidableEq

/-- A packet handler that found the window to be over, with its clock reading. -/
inductive Handler
  | idle
  | expiring (now : ℚ)
  | signal
  deriving DecidableEq

inductive TimerStatus
  | created
  | waiting
  | firing
  | ended
  deriving DecidableEq

structure State where
  now : ℚ
  timing : Timing
  /-- `_relay_startup_drain_complete_event` is set. -/
  complete : Bool
  everArmed : Bool
  /-- `_relay_startup_drain_expiry_timer`. -/
  timer : Option ℕ
  nextTimer : ℕ
  deadlineOf : ℕ → ℚ
  status : ℕ → TimerStatus
  tasks : ℕ → Task
  handlers : ℕ → Handler
  attempt : Pc
  /-- `startup_drain_armed_for_this_connect`. -/
  armed : Bool
  subscribed : Bool

/-- After the module is imported. -/
def State.init (now : ℚ) : State where
  now := now
  timing := {}
  complete := true
  everArmed := false
  timer := none
  nextTimer := 0
  deadlineOf _ := 0
  status _ := .created
  tasks _ := .idle
  handlers _ := .idle
  attempt := .idle
  armed := false
  subscribed := false

namespace State

variable (s : State)

def setStatus (i : ℕ) (x : TimerStatus) : State :=
  { s with status := Function.update s.status i x }

def setTask (i : ℕ) (x : Task) : State := { s with tasks := Function.update s.tasks i x }

def setHandler (h : ℕ) (x : Handler) : State := { s with handlers := Function.update s.handlers h x }

/-- `timer.cancel()`. -/
def cancel (timer : Option ℕ) : State :=
  match timer with
  | some i => if s.status i = .waiting then s.setStatus i .ended else s
  | none => s

/-- `timer.is_alive()` of the current timer. -/
def timerAlive : Bool :=
  s.timer.any fun i => decide (s.status i = .waiting) || decide (s.status i = .firing)

def endDrain : State := { s with timing := s.timing.endDrain }

end State

/-! ## Steps -/

/-- One section of a job, and the job that is left; `ok` if the timer can be started. -/
def stepJob (s : State) (ok : Bool) : Job → State × Option Job
  | .schedule d =>
    ({ s with
       timer := some s.nextTimer
       nextTimer := s.nextTimer + 1
       deadlineOf := Function.update s.deadlineOf s.nextTimer d
       status := Function.update s.status s.nextTimer .created },
      some (.start s.timer s.nextTimer d))
  | .start prev j d =>
    if ok then ((s.cancel prev).setStatus j .waiting, none)
    else (s.cancel prev, some (.startFailed j d))
  | .startFailed j d =>
    if s.timer = some j then
      if s.timing.startupDrainDeadline = some d then
        ({ s.endDrain with timer := none }, some .signal)
      else ({ s with timer := none }, none)
    else (s, none)
  | .signal => ({ s with complete := true }, none)

inductive Act
  | tick (t : ℚ)
  | begin
  | reset (wall : ℚ)
  | signal
  | arm
  | clear
  | job (ok : Bool)
  | subscribe
  | succeed
  /-- The shutdown check before the client is published. -/
  | abandon
  /-- An exception, or a later shutdown check. -/
  | fail
  | rollback
  | finishRollback
  | fire (i : ℕ)
  | cleanup (i : ℕ)
  | taskJob (i : ℕ) (ok : Bool)
  | packet (h : ℕ)
  | expire (h : ℕ)
  | signalPacket (h : ℕ)
  deriving DecidableEq

/-- `_cleanup` of the timer `i`. -/
def cleanup (s : State) (i : ℕ) : State :=
  let s := if s.timer = some i then { s with timer := none } else s
  let d := s.deadlineOf i
  if s.timing.startupDrainDeadline ≠ some d then (s.setStatus i .ended).setTask i .idle
  else if s.now < d then s.setTask i (.job (.schedule d))
  else s.endDrain.setTask i (.job .signal)

/-- The window is over, and no timer will close it. -/
def expired (s : State) (now : ℚ) : Bool :=
  (s.timing.startupDrainDeadline.any fun d => decide (d ≤ now)) && !s.timerAlive

/-- The steps of the connect attempt. -/
def stepAttempt (s : State) : Pc → Act → Option State
  | .idle, .begin => some { s with attempt := .begun, armed := false }
  | .begun, .reset wall =>
    some { s with
           timing := s.timing.reset wall s.now s.now
           attempt :=
             match s.timing.mode s.now with
             | .startupPending => .setup true
             | .startupPendingReconnect => .setup false
             | .reconnect => .signalling }
  | .begun, .fail => some { s with attempt := .rollingBack }
  | .signalling, .signal => some { s with complete := true, attempt := .setup false }
  | .setup pending, .arm =>
    if pending && !s.timing.startupPacketDrainApplied then
      some { s with
             timing := s.timing.arm s.now
             armed := true
             everArmed := true
             attempt := .clearing (s.now + startupPacketDrainSecs) }
    else some { s with attempt := .finishing }
  | .setup _, .abandon => some { s with attempt := .idle }
  | .setup _, .fail => some { s with attempt := .rollingBack }
  | .clearing d, .clear => some { s with complete := false, attempt := .job (.schedule d) }
  | .job j, .job ok =>
    match stepJob s ok j with
    | (s', some j') => some { s' with attempt := .job j' }
    | (s', none) => some { s' with attempt := .finishing }
  | .finishing, .subscribe => some { s with subscribed := true }
  | .finishing, .succeed => some { s with attempt := .idle, armed := false }
  | .finishing, .fail => some { s with attempt := .rollingBack }
  | .rollingBack, .rollback =>
    if s.armed then
      some { s with
             timing := s.timing.rollback true true false
             timer := none
             armed := false
             attempt := .rolledBack s.timer }
    else some { s with attempt := .idle }
  | .rolledBack timer, .finishRollback =>
    some ({ s with complete := true, attempt := .idle }.cancel timer)
  | _, _ => none

def step (s : State) : Act → Option State
  | .tick t => if s.now ≤ t then some { s with now := t } else none
  | .fire i =>
    if s.status i = .waiting ∧ s.tasks i = .idle then
      some ((s.setStatus i .firing).setTask i .cleanup)
    else none
  | .cleanup i => if s.tasks i = .cleanup then some (cleanup s i) else none
  | .taskJob i ok =>
    match s.tasks i with
    | .job j =>
      match stepJob s ok j with
      | (s', some j') => some (s'.setTask i (.job j'))
      | (s', none) => some ((s'.setStatus i .ended).setTask i .idle)
    | _ => none
  | .packet h =>
    if s.subscribed ∧ s.handlers h = .idle then
      some (if s.timing.startupDrainDeadline.any fun d => decide (d ≤ s.now) then
        s.setHandler h (.expiring s.now) else s)
    else none
  | .expire h =>
    match s.handlers h with
    | .expiring now =>
      some (if expired s now then { s.endDrain with timer := none }.setHandler h .signal
        else s.setHandler h .idle)
    | _ => none
  | .signalPacket h =>
    if s.handlers h = .signal then some ({ s with complete := true }.setHandler h .idle) else none
  | a => stepAttempt s s.attempt a

/-- A callback or a packet closes the window. -/
def closesDrain (s : State) : Act → Bool
  | .cleanup i =>
    decide (s.timing.startupDrainDeadline = some (s.deadlineOf i)) && decide (s.deadlineOf i ≤ s.now)
  | .taskJob i _ =>
    match s.tasks i with
    | .job (.startFailed j d) =>
      decide (s.timer = some j) && decide (s.timing.startupDrainDeadline = some d)
    | _ => false
  | .expire h =>
    match s.handlers h with
    | .expiring now => expired s now
    | _ => false
  | _ => false

/-- A callback or a packet handler has closed a window and is about to set the event. -/
def Sig (s : State) : Prop := (∃ i, s.tasks i = .job .signal) ∨ ∃ h, s.handlers h = .signal

/-- No callback and no packet closes a window between its arming and the `clear()` that belongs to
it, and no window is armed while the end of an earlier one is still to be signalled. -/
def Orderly (s : State) (a : Act) : Prop :=
  (closesDrain s a = true → ∀ d, s.attempt ≠ .clearing d) ∧
    (a = .arm → s.timing.startupPacketDrainApplied = false → ¬ Sig s)

/-- No party is in the middle of something. -/
structure Quiescent (s : State) : Prop where
  attempt : s.attempt = .idle
  tasks : ∀ i, s.tasks i = .idle
  handlers : ∀ h, s.handlers h = .idle

/-- The event agrees with the deadline. -/
def Signalled (s : State) : Prop :=
  Quiescent s → s.everArmed = true →
    (s.timing.startupDrainDeadline = none → s.complete = true) ∧
      (inFuture s.timing.startupDrainDeadline s.now = true → s.complete = false)

/-! ## The invariant -/

variable {s s' : State} {a : Act} {i h : ℕ} {ok : Bool}

/-- The attempt is about to set the event. -/
def Pc.signals : Pc → Bool
  | .signalling | .job .signal | .rolledBack _ => true
  | _ => false

/-- What the attempt relies on: the window it clears the event for is open, and the one whose end it
signals is closed. -/
structure AttemptOk (s : State) : Prop where
  isOpen : ∀ d, s.attempt = .clearing d → s.timing.startupDrainDeadline = some d
  closed : s.attempt.signals = true → s.timing.startupDrainDeadline = none

structure Inv (s : State) : Prop where
  applied : s.timing.startupDrainDeadline ≠ none → s.timing.startupPacketDrainApplied = true
  attempt : AttemptOk s
  sig : Sig s → s.timing.startupDrainDeadline = none
  isSet : s.everArmed = true → s.timing.startupDrainDeadline = none →
    s.complete = true ∨ Sig s ∨ s.attempt.signals = true
  isClear : s.timing.startupDrainDeadline ≠ none →
    s.complete = false ∨ ∃ d, s.attempt = .clearing d

theorem not_sig_init (now : ℚ) : ¬ Sig (.init now) := by
  rintro (⟨_, h⟩ | ⟨_, h⟩) <;> cases h

theorem inv_init (now : ℚ) : Inv (.init now) where
  applied h := absurd rfl h
  attempt := ⟨fun _ h => (by cases h), fun _ => rfl⟩
  sig _ := rfl
  isSet h := by cases h
  isClear h := absurd rfl h

/-- The invariant gives the claim: nobody is about to set the event, or to clear it. -/
theorem Inv.signalled (hi : Inv s) : Signalled s := by
  intro hq harmed
  refine ⟨fun hnone => ?_, fun hfuture => ?_⟩
  · rcases hi.isSet harmed hnone with hset | (⟨i, hi⟩ | ⟨h, hh⟩) | hsig
    · exact hset
    · rw [hq.tasks] at hi
      cases hi
    · rw [hq.handlers] at hh
      cases hh
    · rw [hq.attempt] at hsig
      cases hsig
  · have hopen : s.timing.startupDrainDeadline ≠ none := by
      intro hnone
      rw [hnone] at hfuture
      cases hfuture
    rcases hi.isClear hopen with hclear | ⟨d, hd⟩
    · exact hclear
    · rw [hq.attempt] at hd
      cases hd

/-- What the invariant reads, except for the attempt and the pending signals. -/
structure SameCore (s s' : State) : Prop where
  deadline : s'.timing.startupDrainDeadline = s.timing.startupDrainDeadline
  applied : s'.timing.startupPacketDrainApplied = s.timing.startupPacketDrainApplied
  complete : s'.complete = s.complete
  everArmed : s'.everArmed = s.everArmed

theorem AttemptOk.congr (h : AttemptOk s) (hd : s'.timing.startupDrainDeadline =
    s.timing.startupDrainDeadline) (ha : s'.attempt = s.attempt) : AttemptOk s' where
  isOpen := by rw [ha, hd]; exact h.isOpen
  closed := by rw [ha, hd]; exact h.closed

theorem Inv.same (h : Inv s) (hc : SameCore s s') (ha : s'.attempt = s.attempt)
    (hsig : Sig s' ↔ Sig s) : Inv s' where
  applied := by rw [hc.deadline, hc.applied]; exact h.applied
  attempt := h.attempt.congr hc.deadline ha
  sig hs := by rw [hc.deadline]; exact h.sig (hsig.mp hs)
  isSet := by rw [hc.deadline, hc.everArmed, hc.complete, ha, hsig]; exact h.isSet
  isClear := by rw [hc.deadline, hc.complete, ha]; exact h.isClear

theorem Inv.move (h : Inv s) (hc : SameCore s s') (hsig : Sig s' ↔ Sig s)
    (hfrom : s.attempt.signals = false ∧ ∀ d, s.attempt ≠ .clearing d)
    (hto : s'.attempt.signals = false ∧ ∀ d, s'.attempt ≠ .clearing d) : Inv s' where
  applied := by rw [hc.deadline, hc.applied]; exact h.applied
  attempt := ⟨fun d hd => absurd hd (hto.2 d), fun hs => by rw [hto.1] at hs; cases hs⟩
  sig hs := by rw [hc.deadline]; exact h.sig (hsig.mp hs)
  isSet harmed hnone := by
    rw [hc.everArmed] at harmed
    rw [hc.deadline] at hnone
    rcases h.isSet harmed hnone with hset | hs | hs
    · exact .inl (hc.complete.trans hset)
    · exact .inr (.inl (hsig.mpr hs))
    · rw [hfrom.1] at hs
      cases hs
  isClear hopen := by
    rw [hc.deadline] at hopen
    rcases h.isClear hopen with hclear | ⟨d, hd⟩
    · exact .inl (hc.complete.trans hclear)
    · exact absurd hd (hfrom.2 d)

theorem Inv.close (hclosed : s'.timing.startupDrainDeadline = none)
    (hto : ∀ d, s'.attempt ≠ .clearing d) (hsig : Sig s' ∨ s'.attempt.signals = true) : Inv s' where
  applied hopen := absurd hclosed hopen
  attempt := ⟨fun d hd => absurd hd (hto d), fun _ => hclosed⟩
  sig _ := hclosed
  isSet _ _ := .inr hsig
  isClear hopen := absurd hclosed hopen

theorem Inv.signal (hclosed : s'.timing.startupDrainDeadline = none) (hset : s'.complete = true)
    (hto : ∀ d, s'.attempt ≠ .clearing d) : Inv s' where
  applied hopen := absurd hclosed hopen
  attempt := ⟨fun d hd => absurd hd (hto d), fun _ => hclosed⟩
  sig _ := hclosed
  isSet _ _ := .inl hset
  isClear hopen := absurd hclosed hopen

theorem Inv.not_clearing (h : Inv s) (hclosed : s.timing.startupDrainDeadline = none) (d : ℚ) :
    s.attempt ≠ .clearing d := by
  intro hd
  have hopen := h.attempt.isOpen d hd
  rw [hclosed] at hopen
  cases hopen

/-! ## Pending signals -/

theorem setTask_tasks (s : State) (i : ℕ) (x : Task) (j : ℕ) :
    (s.setTask i x).tasks j = if j = i then x else s.tasks j := by
  show Function.update s.tasks i x j = _
  rw [Function.update_apply]

theorem setHandler_handlers (s : State) (h : ℕ) (x : Handler) (j : ℕ) :
    (s.setHandler h x).handlers j = if j = h then x else s.handlers j := by
  show Function.update s.handlers h x j = _
  rw [Function.update_apply]

theorem sig_congr (ht : s'.tasks = s.tasks) (hh : s'.handlers = s.handlers) : Sig s' ↔ Sig s := by
  unfold Sig
  rw [ht, hh]

theorem sig_setTask {x : Task} (hi : s.tasks i ≠ .job .signal) (hx : x ≠ .job .signal) :
    Sig (s.setTask i x) ↔ Sig s := by
  constructor
  · rintro (⟨j, hj⟩ | hh)
    · rw [setTask_tasks] at hj
      split at hj
      · exact absurd hj hx
      · exact .inl ⟨j, hj⟩
    · exact .inr hh
  · rintro (⟨j, hj⟩ | hh)
    · refine .inl ⟨j, ?_⟩
      rw [setTask_tasks, if_neg fun hji => hi (by rw [← hji]; exact hj)]
      exact hj
    · exact .inr hh

theorem sig_setTask_signal (s : State) (i : ℕ) : Sig (s.setTask i (.job .signal)) :=
  .inl ⟨i, by rw [setTask_tasks, if_pos rfl]⟩

theorem sig_setHandler {x : Handler} (hh : s.handlers h ≠ .signal) (hx : x ≠ .signal) :
    Sig (s.setHandler h x) ↔ Sig s := by
  constructor
  · rintro (ht | ⟨j, hj⟩)
    · exact .inl ht
    · rw [setHandler_handlers] at hj
      split at hj
      · exact absurd hj hx
      · exact .inr ⟨j, hj⟩
  · rintro (ht | ⟨j, hj⟩)
    · exact .inl ht
    · refine .inr ⟨j, ?_⟩
      rw [setHandler_handlers, if_neg fun hjh => hh (by rw [← hjh]; exact hj)]
      exact hj

theorem sig_setHandler_signal (s : State) (h : ℕ) : Sig (s.setHandler h .signal) :=
  .inr ⟨h, by rw [setHandler_handlers, if_pos rfl]⟩

/-! ## Jobs -/

theorem sameCore_cancel (s : State) (timer : Option ℕ) :
    SameCore s (s.cancel timer) ∧ (s.cancel timer).attempt = s.attempt ∧
      (s.cancel timer).tasks = s.tasks ∧ (s.cancel timer).handlers = s.handlers := by
  cases timer with
  | none => exact ⟨⟨rfl, rfl, rfl, rfl⟩, rfl, rfl, rfl⟩
  | some i =>
    simp only [State.cancel]
    split <;> exact ⟨⟨rfl, rfl, rfl, rfl⟩, rfl, rfl, rfl⟩

/-- What a section of a job can do: nothing that counts, the end of the window, or the signal. -/
inductive JobStep (s : State) (j : Job) (s' : State) (rest : Option Job) : Prop
  | same (hc : SameCore s s') (hj : j ≠ .signal) (hrest : rest ≠ some .signal)
  | close (hclosed : s'.timing.startupDrainDeadline = none) (hrest : rest = some .signal)
    (hj : ∃ t d, j = .startFailed t d ∧ s.timer = some t ∧ s.timing.startupDrainDeadline = some d)
  | signal (hd : s'.timing.startupDrainDeadline = s.timing.startupDrainDeadline)
    (hset : s'.complete = true) (hrest : rest = none) (hj : j = .signal)

theorem stepJob_step (s : State) (ok : Bool) (j : Job) :
    JobStep s j (stepJob s ok j).1 (stepJob s ok j).2 := by
  cases j with
  | schedule d => exact .same ⟨rfl, rfl, rfl, rfl⟩ nofun nofun
  | start prev j d =>
    obtain ⟨hcore, -⟩ := sameCore_cancel s prev
    cases ok with
    | true => exact .same ⟨hcore.deadline, hcore.applied, hcore.complete, hcore.everArmed⟩ nofun nofun
    | false => exact .same hcore nofun nofun
  | startFailed t d =>
    simp only [stepJob]
    split
    · rename_i htimer
      split
      · rename_i hd
        exact .close rfl rfl ⟨t, d, rfl, htimer, hd⟩
      · exact .same ⟨rfl, rfl, rfl, rfl⟩ nofun nofun
    · exact .same ⟨rfl, rfl, rfl, rfl⟩ nofun nofun
  | signal => exact .signal rfl rfl rfl rfl

theorem stepJob_frame (s : State) (ok : Bool) (j : Job) :
    (stepJob s ok j).1.attempt = s.attempt ∧ (stepJob s ok j).1.tasks = s.tasks ∧
      (stepJob s ok j).1.handlers = s.handlers := by
  cases j with
  | schedule d => exact ⟨rfl, rfl, rfl⟩
  | start prev j d =>
    obtain ⟨-, hframe⟩ := sameCore_cancel s prev
    cases ok <;> exact hframe
  | startFailed t d =>
    simp only [stepJob]
    split
    · split <;> exact ⟨rfl, rfl, rfl⟩
    · exact ⟨rfl, rfl, rfl⟩
  | signal => exact ⟨rfl, rfl, rfl⟩

/-! ## Steps of the callbacks and of the packet handlers -/

theorem inv_cleanup (hi : Inv s) (hg : Orderly s (.cleanup i)) (ht : s.tasks i = .cleanup) :
    Inv (cleanup s i) := by
  have hne : s.tasks i ≠ .job .signal := by rw [ht]; nofun
  unfold cleanup
  generalize htimer : (if s.timer = some i then none else s.timer) = timer
  have hs₁ : (if s.timer = some i then { s with timer := none } else s) =
      { s with timer := timer } := by
    rw [← htimer]
    split <;> rfl
  rw [hs₁]
  simp only
  split
  · refine hi.same ⟨rfl, rfl, rfl, rfl⟩ rfl (Iff.trans (sig_setTask ?_ nofun) (sig_congr rfl rfl))
    exact hne
  · rename_i hd
    have hd : s.timing.startupDrainDeadline = some (s.deadlineOf i) := by simpa using hd
    split
    · refine hi.same ⟨rfl, rfl, rfl, rfl⟩ rfl (Iff.trans (sig_setTask ?_ nofun) (sig_congr rfl rfl))
      exact hne
    · rename_i hlate
      have hclose : closesDrain s (.cleanup i) = true := by
        simp [closesDrain, hd, not_lt.mp hlate]
      exact .close rfl (hg.1 hclose) (.inl (sig_setTask_signal _ i))

theorem inv_taskJob (hi : Inv s) (hg : Orderly s (.taskJob i ok))
    (hs : step s (.taskJob i ok) = some s') : Inv s' := by
  cases ht : s.tasks i with
  | idle | cleanup => simp [step, ht] at hs
  | job j =>
    simp only [step, ht] at hs
    obtain ⟨hattempt, htasks, hhandlers⟩ := stepJob_frame s ok j
    have hjob := stepJob_step s ok j
    generalize stepJob s ok j = r at hs hattempt htasks hhandlers hjob
    obtain ⟨s₁, rest⟩ := r
    have hsig : Sig s₁ ↔ Sig s := sig_congr htasks hhandlers
    cases hjob with
    | same hc hj hrest =>
      have hne : s₁.tasks i ≠ .job .signal := by
        rw [show s₁.tasks = s.tasks from htasks, ht]
        intro heq
        cases heq
        exact hj rfl
      cases rest with
      | some j' =>
        cases hs
        have hne' : Task.job j' ≠ .job .signal := by
          intro heq
          cases heq
          exact hrest rfl
        exact hi.same ⟨hc.deadline, hc.applied, hc.complete, hc.everArmed⟩ hattempt
          ((sig_setTask hne hne').trans hsig)
      | none =>
        cases hs
        refine hi.same ⟨hc.deadline, hc.applied, hc.complete, hc.everArmed⟩ hattempt
          (Iff.trans (sig_setTask ?_ nofun) ((sig_congr rfl rfl).trans hsig))
        exact hne
    | close hclosed hrest hj =>
      obtain ⟨t, d, rfl, htimer, hd⟩ := hj
      have hclose : closesDrain s (.taskJob i ok) = true := by
        simp [closesDrain, ht, htimer, hd]
      cases hrest
      cases hs
      refine .close hclosed ?_ (.inl (sig_setTask_signal _ i))
      show ∀ d, s₁.attempt ≠ .clearing d
      rw [show s₁.attempt = s.attempt from hattempt]
      exact hg.1 hclose
    | signal hd hset hrest hj =>
      cases hrest
      cases hs
      have hclosed : s.timing.startupDrainDeadline = none := hi.sig (.inl ⟨i, by rw [ht, hj]⟩)
      refine .signal (hd.trans hclosed) hset ?_
      show ∀ d, s₁.attempt ≠ .clearing d
      rw [show s₁.attempt = s.attempt from hattempt]
      exact hi.not_clearing hclosed

theorem inv_packet (hi : Inv s) (hs : step s (.packet h) = some s') : Inv s' := by
  simp only [step] at hs
  split at hs
  · rename_i hidle
    cases hs
    split
    · refine hi.same ⟨rfl, rfl, rfl, rfl⟩ rfl (sig_setHandler ?_ nofun)
      rw [hidle.2]
      nofun
    · exact hi
  · cases hs

theorem inv_expire (hi : Inv s) (hg : Orderly s (.expire h))
    (hs : step s (.expire h) = some s') : Inv s' := by
  cases hh : s.handlers h with
  | idle | signal => simp [step, hh] at hs
  | expiring now =>
    simp only [step, hh] at hs
    cases hs
    split
    · rename_i hexpired
      have hclose : closesDrain s (.expire h) = true := by
        simp [closesDrain, hh, hexpired]
      exact .close rfl (hg.1 hclose) (.inl (sig_setHandler_signal _ h))
    · refine hi.same ⟨rfl, rfl, rfl, rfl⟩ rfl (sig_setHandler ?_ nofun)
      rw [hh]
      nofun

theorem inv_signalPacket (hi : Inv s) (hs : step s (.signalPacket h) = some s') : Inv s' := by
  simp only [step] at hs
  split at hs
  · rename_i hh
    cases hs
    have hclosed : s.timing.startupDrainDeadline = none := hi.sig (.inr ⟨h, hh⟩)
    exact .signal hclosed rfl (hi.not_clearing hclosed)
  · cases hs

/-! ## Steps of the connect attempt -/

/-- A reset takes the window away only when there is none, or when its end is signalled next. -/
theorem inv_reset {wall : ℚ} (hi : Inv s) (hpc : s.attempt = .begun)
    (hs : stepAttempt s .begun (.reset wall) = some s') : Inv s' := by
  simp only [stepAttempt] at hs
  cases hs
  cases hm : s.timing.mode s.now with
  | startupPending =>
    have hoff : s.timing.startupPacketDrainApplied = false := by
      cases happ : s.timing.startupPacketDrainApplied with
      | false => rfl
      | true =>
        simp only [Timing.mode, happ] at hm
        split at hm
        · contradiction
        · split at hm <;> cases hm
    have hclosed : s.timing.startupDrainDeadline = none := by
      by_contra hopen
      rw [hi.applied hopen] at hoff
      cases hoff
    refine hi.move ⟨?_, rfl, rfl, rfl⟩ (sig_congr rfl rfl) ?_ ?_
    · simp [Timing.reset, hm, hclosed]
    · rw [hpc]
      exact ⟨rfl, nofun⟩
    · exact ⟨rfl, nofun⟩
  | startupPendingReconnect =>
    refine hi.move ⟨?_, rfl, rfl, rfl⟩ (sig_congr rfl rfl) ?_ ?_
    · simp [Timing.reset, hm]
    · rw [hpc]
      exact ⟨rfl, nofun⟩
    · exact ⟨rfl, nofun⟩
  | reconnect =>
    refine .close ?_ nofun (.inr rfl)
    simp [Timing.reset, hm]

theorem inv_arm {pending : Bool} (hi : Inv s) (hg : Orderly s .arm) (hpc : s.attempt = .setup pending)
    (hs : stepAttempt s (.setup pending) .arm = some s') : Inv s' := by
  simp only [stepAttempt] at hs
  split at hs
  · rename_i harm
    cases hs
    have hoff : s.timing.startupPacketDrainApplied = false := by
      have hboth := (Bool.and_eq_true _ _).mp harm
      simpa using hboth.2
    have hdeadline : (s.timing.arm s.now).startupDrainDeadline =
        some (s.now + startupPacketDrainSecs) := by
      rw [Timing.arm, hoff]
      rfl
    have happlied : (s.timing.arm s.now).startupPacketDrainApplied = true := by
      rw [Timing.arm, hoff]
      rfl
    exact {
      applied := fun _ => happlied
      attempt := ⟨fun d hd => by cases hd; exact hdeadline, nofun⟩
      sig := fun hsig => absurd ((sig_congr rfl rfl).mp hsig) (hg.2 rfl hoff)
      isSet := fun _ hnone => by rw [hdeadline] at hnone; cases hnone
      isClear := fun _ => .inr ⟨_, rfl⟩ }
  · cases hs
    refine hi.move ⟨rfl, rfl, rfl, rfl⟩ (sig_congr rfl rfl) ?_ ⟨rfl, nofun⟩
    rw [hpc]
    exact ⟨rfl, nofun⟩

theorem inv_clear {d : ℚ} (hi : Inv s) (hpc : s.attempt = .clearing d) :
    Inv { s with complete := false, attempt := .job (.schedule d) } where
  applied := hi.applied
  attempt := ⟨nofun, nofun⟩
  sig hsig := hi.sig ((sig_congr rfl rfl).mp hsig)
  isSet _ hnone := by
    have hopen := hi.attempt.isOpen d hpc
    rw [show s.timing.startupDrainDeadline = none from hnone] at hopen
    cases hopen
  isClear _ := .inl rfl

theorem inv_job {j : Job} (hi : Inv s) (hpc : s.attempt = .job j)
    (hs : stepAttempt s (.job j) (.job ok) = some s') : Inv s' := by
  simp only [stepAttempt] at hs
  obtain ⟨hattempt, htasks, hhandlers⟩ := stepJob_frame s ok j
  have hjob := stepJob_step s ok j
  generalize stepJob s ok j = r at hs hattempt htasks hhandlers hjob
  obtain ⟨s₁, rest⟩ := r
  have hsig : Sig s₁ ↔ Sig s := sig_congr htasks hhandlers
  cases hjob with
  | same hc hj hrest =>
    have hfrom : s.attempt.signals = false ∧ ∀ d, s.attempt ≠ .clearing d := by
      rw [hpc]
      refine ⟨?_, nofun⟩
      cases j with
      | signal => exact absurd rfl hj
      | schedule | start | startFailed => rfl
    cases rest with
    | some j' =>
      cases hs
      refine hi.move ⟨hc.deadline, hc.applied, hc.complete, hc.everArmed⟩
        ((sig_congr rfl rfl).trans hsig) hfrom ⟨?_, nofun⟩
      cases j' with
      | signal => exact absurd rfl hrest
      | schedule | start | startFailed => rfl
    | none =>
      cases hs
      exact hi.move ⟨hc.deadline, hc.applied, hc.complete, hc.everArmed⟩
        ((sig_congr rfl rfl).trans hsig) hfrom ⟨rfl, nofun⟩
  | close hclosed hrest hj =>
    cases hrest
    cases hs
    exact .close hclosed nofun (.inr rfl)
  | signal hd hset hrest hj =>
    cases hrest
    cases hs
    have hclosed : s.timing.startupDrainDeadline = none := hi.attempt.closed (by rw [hpc, hj]; rfl)
    exact .signal (hd.trans hclosed) hset nofun

theorem inv_rollback (hi : Inv s) (hpc : s.attempt = .rollingBack)
    (hs : stepAttempt s .rollingBack .rollback = some s') : Inv s' := by
  simp only [stepAttempt] at hs
  split at hs
  · cases hs
    exact .close rfl nofun (.inr rfl)
  · cases hs
    refine hi.move ⟨rfl, rfl, rfl, rfl⟩ (sig_congr rfl rfl) ?_ ⟨rfl, nofun⟩
    rw [hpc]
    exact ⟨rfl, nofun⟩

theorem inv_finishRollback {timer : Option ℕ} (hi : Inv s) (hpc : s.attempt = .rolledBack timer) :
    Inv ({ s with complete := true, attempt := .idle }.cancel timer) := by
  obtain ⟨hcore, hattempt, -⟩ := sameCore_cancel { s with complete := true, attempt := .idle } timer
  have hclosed : s.timing.startupDrainDeadline = none := hi.attempt.closed (by rw [hpc]; rfl)
  refine .signal (hcore.deadline.trans hclosed) hcore.complete ?_
  rw [hattempt]
  nofun

theorem inv_stepAttempt (hi : Inv s) (hg : Orderly s a)
    (hs : stepAttempt s s.attempt a = some s') : Inv s' := by
  generalize hpc : s.attempt = pc at hs
  have hmove (t : State) (hc : SameCore s t) (ht : t.tasks = s.tasks ∧ t.handlers = s.handlers)
      (hfrom : pc.signals = false ∧ ∀ d, pc ≠ .clearing d)
      (hto : t.attempt.signals = false ∧ ∀ d, t.attempt ≠ .clearing d) : Inv t := by
    rw [← hpc] at hfrom
    exact hi.move hc (sig_congr ht.1 ht.2) hfrom hto
  unfold stepAttempt at hs
  split at hs
  · -- `begin`
    cases hs
    exact hmove _ ⟨rfl, rfl, rfl, rfl⟩ ⟨rfl, rfl⟩ ⟨rfl, nofun⟩ ⟨rfl, nofun⟩
  · exact inv_reset hi hpc hs
  · cases hs
    exact hmove _ ⟨rfl, rfl, rfl, rfl⟩ ⟨rfl, rfl⟩ ⟨rfl, nofun⟩ ⟨rfl, nofun⟩
  · -- a reconnect signals the end of the window
    cases hs
    exact .signal (hi.attempt.closed (by rw [hpc]; rfl)) rfl nofun
  · exact inv_arm hi hg hpc hs
  · cases hs
    exact hmove _ ⟨rfl, rfl, rfl, rfl⟩ ⟨rfl, rfl⟩ ⟨rfl, nofun⟩ ⟨rfl, nofun⟩
  · cases hs
    exact hmove _ ⟨rfl, rfl, rfl, rfl⟩ ⟨rfl, rfl⟩ ⟨rfl, nofun⟩ ⟨rfl, nofun⟩
  · cases hs
    exact inv_clear hi hpc
  · exact inv_job hi hpc hs
  · -- `subscribe`: the attempt stays where it is
    cases hs
    exact hi.same ⟨rfl, rfl, rfl, rfl⟩ rfl (sig_congr rfl rfl)
  · cases hs
    exact hmove _ ⟨rfl, rfl, rfl, rfl⟩ ⟨rfl, rfl⟩ ⟨rfl, nofun⟩ ⟨rfl, nofun⟩
  · cases hs
    exact hmove _ ⟨rfl, rfl, rfl, rfl⟩ ⟨rfl, rfl⟩ ⟨rfl, nofun⟩ ⟨rfl, nofun⟩
  · exact inv_rollback hi hpc hs
  · cases hs
    exact inv_finishRollback hi hpc
  · cases hs

theorem inv_step (hi : Inv s) (hg : Orderly s a) (hs : step s a = some s') : Inv s' := by
  cases a with
  | tick t =>
    simp only [step] at hs
    split at hs
    · cases hs
      exact hi.same ⟨rfl, rfl, rfl, rfl⟩ rfl (sig_congr rfl rfl)
    · cases hs
  | fire i =>
    simp only [step] at hs
    split at hs
    · rename_i hidle
      cases hs
      refine hi.same ⟨rfl, rfl, rfl, rfl⟩ rfl (Iff.trans (sig_setTask ?_ nofun) (sig_congr rfl rfl))
      show s.tasks i ≠ .job .signal
      rw [hidle.2]
      nofun
    · cases hs
  | cleanup i =>
    simp only [step] at hs
    split at hs
    · rename_i ht
      cases hs
      exact inv_cleanup hi hg ht
    · cases hs
  | taskJob i ok => exact inv_taskJob hi hg hs
  | packet h => exact inv_packet hi hs
  | expire h => exact inv_expire hi hg hs
  | signalPacket h => exact inv_signalPacket hi hs
  | begin | reset | signal | arm | clear | job | subscribe | succeed | abandon | fail | rollback
  | finishRollback => exact inv_stepAttempt hi hg hs

/-! ## Runs -/

/-- In every run that keeps to the order, in every quiescent state after a window was armed: without
a deadline the event is set, and before the deadline it is not. -/
theorem drain_signalled (now : ℚ) (as : List Act)
    (hord : AllSteps step Orderly (.init now) as) : Visited step Signalled (.init now) as :=
  visited_of_invariant (fun _ _ _ hi hg hs => inv_step hi hg hs) (fun _ => Inv.signalled)
    (inv_init now) hord

/-- A connect attempt that arms the window, up to the point where the event is to be cleared. -/
def arming : List Act := [.begin, .reset 0, .arm]

/-- The rest of a successful attempt. -/
def finishing : List Act := [.clear, .job true, .job true, .subscribe, .succeed]

/-- The first start, whose timer ends the window. -/
def firstStart : List Act :=
  arming ++ finishing ++ [.tick 15, .fire 0, .cleanup 0, .taskJob 0 true]

theorem drain_signalled_firstStart : AllSteps step Orderly (.init 0) firstStart ∧
    Visited step Signalled (.init 0) firstStart := by
  have hrest (s : State) (a : Act)
      (hg : a ≠ .arm ∧ (closesDrain s a = true → s.attempt = .idle)) : Orderly s a := by
    refine ⟨fun hclose d hd => ?_, fun ha => absurd ha hg.1⟩
    rw [hg.2 hclose] at hd
    cases hd
  have hord : AllSteps step Orderly (.init 0) firstStart := by
    rintro s₁ ⟨⟩
    refine ⟨⟨nofun, nofun⟩, ?_⟩
    rintro s₂ ⟨⟩
    refine ⟨⟨nofun, nofun⟩, ?_⟩
    rintro s₃ ⟨⟩
    refine ⟨⟨nofun, fun _ _ hsig => not_sig_init 0 ((sig_congr rfl rfl).mp hsig)⟩, ?_⟩
    refine AllSteps.mono hrest ?_
    decide +kernel
  exact ⟨hord, drain_signalled 0 firstStart hord⟩

/-! ## A stale `clear()` -/

/-- The callback or the packet handler that takes a step. -/
def Act.party : Act → Option ℕ
  | .fire i | .cleanup i | .taskJob i _ | .packet i | .expire i | .signalPacket i => some i
  | _ => none

theorem stepAttempt_parties {pc : Pc} (hs : stepAttempt s pc a = some s') :
    s'.tasks = s.tasks ∧ s'.handlers = s.handlers := by
  unfold stepAttempt at hs
  split at hs
  case h_5 =>
    split at hs <;> cases hs <;> exact ⟨rfl, rfl⟩
  case h_9 j ok =>
    obtain ⟨-, hframe⟩ := stepJob_frame s ok j
    split at hs <;> rename_i hjob <;> rw [hjob] at hframe <;> cases hs <;> exact hframe
  case h_13 =>
    split at hs <;> cases hs <;> exact ⟨rfl, rfl⟩
  case h_14 timer =>
    cases hs
    exact (sameCore_cancel _ timer).2.2
  all_goals cases hs <;> exact ⟨rfl, rfl⟩

theorem step_parties (hs : step s a = some s') (ha : a.party ≠ some i) :
    s'.tasks i = s.tasks i ∧ s'.handlers i = s.handlers i := by
  have hattempt (h : stepAttempt s s.attempt a = some s') :
      s'.tasks i = s.tasks i ∧ s'.handlers i = s.handlers i := by
    obtain ⟨ht, hh⟩ := stepAttempt_parties h
    rw [ht, hh]
    exact ⟨rfl, rfl⟩
  cases a with
  | tick t =>
    simp only [step] at hs
    split at hs <;> cases hs
    exact ⟨rfl, rfl⟩
  | fire j =>
    have hj : i ≠ j := fun h => ha (by rw [h]; rfl)
    simp only [step] at hs
    split at hs <;> cases hs
    exact ⟨by rw [setTask_tasks, if_neg hj]; rfl, rfl⟩
  | cleanup j =>
    have hj : i ≠ j := fun h => ha (by rw [h]; rfl)
    simp only [step, cleanup] at hs
    split at hs
    · cases hs
      constructor
      · split <;> split <;> (try split) <;> rw [setTask_tasks, if_neg hj] <;> rfl
      · split <;> split <;> (try split) <;> rfl
    · cases hs
  | taskJob j ok =>
    have hj : i ≠ j := fun h => ha (by rw [h]; rfl)
    cases ht : s.tasks j with
    | idle | cleanup => simp [step, ht] at hs
    | job job =>
      obtain ⟨-, htasks, hhandlers⟩ := stepJob_frame s ok job
      simp only [step, ht] at hs
      split at hs <;> rename_i hjob <;> rw [hjob] at htasks hhandlers <;> cases hs
      · exact ⟨by rw [setTask_tasks, if_neg hj, htasks], by rw [← hhandlers]; rfl⟩
      · refine ⟨?_, by rw [← hhandlers]; rfl⟩
        rw [setTask_tasks, if_neg hj, ← htasks]
        rfl
  | packet h =>
    have hj : i ≠ h := fun h => ha (by rw [h]; rfl)
    simp only [step] at hs
    split at hs <;> cases hs
    split
    · exact ⟨rfl, by rw [setHandler_handlers, if_neg hj]⟩
    · exact ⟨rfl, rfl⟩
  | expire h =>
    have hj : i ≠ h := fun h => ha (by rw [h]; rfl)
    simp only [step] at hs
    split at hs <;> cases hs
    split
    · exact ⟨rfl, by rw [setHandler_handlers, if_neg hj]; rfl⟩
    · exact ⟨rfl, by rw [setHandler_handlers, if_neg hj]⟩
  | signalPacket h =>
    have hj : i ≠ h := fun h => ha (by rw [h]; rfl)
    simp only [step] at hs
    split at hs <;> cases hs
    exact ⟨rfl, by rw [setHandler_handlers, if_neg hj]⟩
  | begin | reset | signal | arm | clear | job | subscribe | succeed | abandon | fail | rollback
  | finishRollback => exact hattempt hs

theorem runActs_parties {as : List Act} (hrun : runActs step s as = some s')
    (has : ∀ a ∈ as, a.party ≠ some i) : s'.tasks i = s.tasks i ∧ s'.handlers i = s.handlers i := by
  have hall : AllSteps step (fun _ a => a.party ≠ some i) s as :=
    allSteps_of_mem (fun a ha _ => has a ha) s
  refine runActs_induct (P := fun t => t.tasks i = s.tasks i ∧ t.handlers i = s.handlers i) ?_
    ⟨rfl, rfl⟩ hall hrun
  intro t a t' ht ha hs
  obtain ⟨htasks, hhandlers⟩ := step_parties hs ha
  exact ⟨htasks.trans ht.1, hhandlers.trans ht.2⟩

/-- The first attempt fails after it has subscribed. -/
def failedStart : List Act :=
  arming ++ [.clear, .job true, .job true, .subscribe, .fail, .rollback, .finishRollback]

/-- In the second attempt a packet ends the window before the event is cleared. -/
def lateClear : List Act :=
  failedStart ++ arming ++ [.tick 15, .packet 0, .expire 0, .signalPacket 0] ++ finishing ++
    [.fire 1, .cleanup 1]

theorem cleared_after_signal : ∃ s, runActs step (.init 0) lateClear = some s ∧ ¬ Signalled s := by
  have hrun : (runActs step (.init 0) lateClear).any (fun s : State =>
      decide (s.attempt = .idle) &&
      decide (∀ i : Fin 2, s.tasks i = .idle ∧ s.handlers i = .idle) &&
      (s.everArmed && decide (s.timing.startupDrainDeadline = none) && !s.complete)) = true := by
    decide +kernel
  obtain ⟨s, hs, hfinal⟩ := (Option.any_eq_true _ _).mp hrun
  simp only [Bool.and_eq_true, decide_eq_true_eq, Bool.not_eq_true'] at hfinal
  obtain ⟨⟨hattempt, hfirst⟩, ⟨harmed, hnone⟩, hcleared⟩ := hfinal
  have hidle (i : ℕ) : s.tasks i = .idle ∧ s.handlers i = .idle := by
    by_cases hi : i < 2
    · exact hfirst ⟨i, hi⟩
    refine runActs_parties hs fun a ha hparty => ?_
    have hsmall : ∀ a ∈ lateClear, a.party.all (fun j => decide (j < 2)) = true := by decide
    have hai := hsmall a ha
    rw [hparty] at hai
    exact hi (by simpa using hai)
  refine ⟨s, hs, fun hsig => ?_⟩
  have hquiet : Quiescent s := ⟨hattempt, fun i => (hidle i).1, fun h => (hidle h).2⟩
  rw [(hsig hquiet harmed).1 hnone] at hcleared
  cases hcleared

end MMRelay.Radio.Drain
