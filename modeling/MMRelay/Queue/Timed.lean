import Mathlib.Algebra.Order.Field.Rat
import Mathlib.Logic.Function.Basic
import MMRelay.Queue.Processor

/-!
# The message queue on a clock

The lifecycle of `MMRelay.Queue.Lifecycle` with the processor coroutines of its tasks, the sends
they hand to the executor and a clock. Several tasks may be unfinished at once, and a send may
outlive its task. Times are readings of `time.monotonic()`, taken as rationals.

* `Pc`, `Local`, `Job`, `State`, `init`;
* `procStep`, the next step of the coroutine of one task; `submit` and `resume` are its two sides
  of `await loop.run_in_executor(...)`;
* `activates`, `createsTask`, `endsTask`: what a step of the lifecycle does to the delay and to
  the unfinished tasks, and `step_live`, that it does nothing else;
* `step`, the effect of one action.

`lastReturn` does not exist in the source: it is when the most recent send returned normally.
-/

namespace MMRelay.Timed

open MMRelay.Queue (createTask taskActive clearFailedStopStateIfRecovered nextOp)
open MMRelay.Processor (Message Link shouldSendMessage isConnectionError maxQueueSize)

/-- Where a coroutine `_process_queue` is. -/
inductive Pc
  | top
  | firstCheck
  | rateLimit
  /-- `asyncio.sleep(wait_time)`, until the clock reads `wake`. -/
  | sleeping (wake : ℚ)
  | recheck
  | finalCheck
  | sending (job : ℕ)
  | mapping
  deriving DecidableEq

/-- A coroutine and its `current_message`. -/
structure Local where
  pc : Pc
  current : Option Message
  deriving DecidableEq

/-- What became of a send. -/
inductive Status
  | queued
  | running
  | returned (o : Processor.Outcome)
  | cancelled
  deriving DecidableEq

/-- A call of `send_function` given to an executor by the coroutine of `task`. -/
structure Job where
  task : ℕ
  status : Status
  deriving DecidableEq

/-- The queue, its coroutines and sends, and the clock. -/
structure State where
  life : Queue.State
  queue : List Message
  dropped : ℕ
  messageDelay : ℚ
  lastSendMono : ℚ
  procs : ℕ → Local
  jobs : List Job
  now : ℚ
  lastReturn : Option ℚ

/-- `DEFAULT_MESSAGE_DELAY`. -/
def defaultMessageDelay : ℚ := 2 + 1 / 2

/-- A coroutine that has not taken a step. -/
def fresh : Local := ⟨.top, none⟩

/-- `MessageQueue.__init__` when the clock reads `clock`. -/
def init (clock : ℚ) : State :=
  { life := Queue.init, queue := [], dropped := 0, messageDelay := defaultMessageDelay,
    lastSendMono := 0, procs := fun _ => fresh, jobs := [], now := clock, lastReturn := none }

/-! ## Coroutines -/

def setLocal (s : State) (t : ℕ) (p : Local) : State :=
  { s with procs := Function.update s.procs t p }

/-- `_requeue_message`. -/
def requeueMessage (s : State) (m : Message) : State :=
  if maxQueueSize ≤ s.queue.length then { s with dropped := s.dropped + 1 }
  else { s with queue := m :: s.queue }

/-- `current_message = None`, then the top of the loop. -/
def release (s : State) (t : ℕ) : State := setLocal s t fresh

/-- `loop.run_in_executor(exec_ref, ...)`; it raises when there is no executor or it is shut down,
and neither message is that of a connection error. -/
def submit (s : State) (t : ℕ) (m : Message) : State :=
  match s.life.executor with
  | none => release s t
  | some e =>
    if e ∈ s.life.shutDown then release s t
    else setLocal { s with jobs := s.jobs ++ [⟨t, .queued⟩] } t ⟨.sending s.jobs.length, some m⟩

/-- What follows the `await` once the send is over. A cancelled send cancels the coroutine, which
only finishes. -/
def resume (s : State) (t : ℕ) (m : Message) : Status → Option State
  | .returned (.value hasId) =>
    some (setLocal { s with lastSendMono := s.now } t
      (if m.mappingInfo && hasId then ⟨.mapping, some m⟩ else fresh))
  | .returned .none => some (release { s with lastSendMono := s.now } t)
  | .returned (.error e) =>
    if isConnectionError e then some (release (requeueMessage s m) t) else some (release s t)
  | .queued => none
  | .running => none
  | .cancelled => none

/-- The two checks after the measurement: the coroutine goes on, or requeues its message and sleeps.
When the check raises, the outer handler keeps the message. -/
def afterCheck (s : State) (t : ℕ) (m : Message) (go : State) : Option Bool → State
  | some true => go
  | some false => release (requeueMessage s m) t
  | none => setLocal s t ⟨.top, some m⟩

/-- What a coroutine sees when it moves. -/
inductive Event
  | tick
  | link (l : Link)
  deriving DecidableEq

/-- The next step of the coroutine of task `t`; `none` when the event is not the one it waits
for, or the coroutine returns. -/
def procStep (s : State) (t : ℕ) (e : Event) : Option State :=
  match (s.procs t).pc, (s.procs t).current, e with
  | .top, none, .tick =>
    if !s.life.running then none
    else
      match s.queue with
      | [] => some s
      | m :: rest => some (setLocal { s with queue := rest } t ⟨.firstCheck, some m⟩)
  | .top, some m, .tick =>
    if !s.life.running then none else some (setLocal s t ⟨.firstCheck, some m⟩)
  | .firstCheck, some m, .link l =>
    some (setLocal s t ⟨if shouldSendMessage l = some true then .rateLimit else .top, some m⟩)
  | .rateLimit, some m, .tick =>
    if 0 < s.lastSendMono ∧ s.now - s.lastSendMono < s.messageDelay then
      some (setLocal s t
        ⟨.sleeping (s.now + (s.messageDelay - (s.now - s.lastSendMono))), some m⟩)
    else some (setLocal s t ⟨.finalCheck, some m⟩)
  | .sleeping wake, some m, .tick =>
    if wake ≤ s.now then some (setLocal s t ⟨.recheck, some m⟩) else none
  | .recheck, some m, .link l =>
    some (afterCheck s t m (setLocal s t ⟨.finalCheck, some m⟩) (shouldSendMessage l))
  | .finalCheck, some m, .link l =>
    some (afterCheck s t m (submit s t m) (shouldSendMessage l))
  | .sending j, some m, .tick => (s.jobs[j]?).bind fun job => resume s t m job.status
  | .mapping, some _, .tick => some (release s t)
  | _, _, _ => none

/-! ## The lifecycle -/

/-- `start()` gets past its three tests. -/
def activates (l : Queue.State) : Queue.Act → Bool
  | .start _ =>
    let r := (clearFailedStopStateIfRecovered l).2
    !r.stopFailed && !r.running && !r.stopping
  | _ => false

/-- The action creates a processor task. -/
def createsTask (l : Queue.State) : Queue.Act → Bool
  | .start loopRunning => activates l (.start loopRunning) && loopRunning
  | .ensureProcessorStarted loopRunning =>
    !taskActive l && (l.running && !l.stopFailed && loopRunning)
  | _ => false

/-- The processor task that the action finishes. -/
def endsTask (l : Queue.State) : Queue.Act → Option ℕ
  | .taskFinish t => some t
  | .thread i .quiet =>
    match nextOp l i with
    | some (_, c, .runUntilComplete, _) => c.task
    | _ => none
  | _ => none

/-- A send that is still queued is cancelled before the task that awaits it finishes. -/
def cancelQueued (live : List ℕ) (jobs : List Job) : List Job :=
  jobs.map fun job =>
    if job.status = .queued ∧ job.task ∉ live then { job with status := .cancelled } else job

/-- An action of the lifecycle leads to `l`; `messageDelay` is the argument of `start`. -/
def lifeStep (s : State) (a : Queue.Act) (messageDelay : ℚ) (l : Queue.State) : State :=
  { s with life := l
           messageDelay := if activates s.life a then messageDelay else s.messageDelay
           jobs := cancelQueued l.live s.jobs }

/-- One lock-held pass of `enqueue`. -/
def enqueuePass (s : State) (m : Message) : State :=
  let r := Queue.enqueueAdmission s.life
  if r.1 ≠ .admitted ∨ maxQueueSize ≤ s.queue.length then { s with life := r.2 }
  else { s with life := r.2, queue := s.queue ++ [m] }

/-! ## Actions -/

/-- The send returned a value. -/
def normal : Processor.Outcome → Bool
  | .value _ => true
  | .none => true
  | .error _ => false

/-- One atomic step of the queue, its executors or the clock. -/
inductive Act
  | advance (now : ℚ)
  | life (a : Queue.Act) (messageDelay : ℚ)
  | enqueue (m : Message)
  | proc (t : ℕ) (e : Event)
  | jobStart (j : ℕ)
  | jobReturn (j : ℕ) (o : Processor.Outcome)
  | jobCancel (j : ℕ)
  deriving DecidableEq

/-- A send changes its status. -/
def setStatus (s : State) (j : ℕ) (job : Job) (status : Status) : State :=
  { s with jobs := s.jobs.set j { job with status := status } }

/-- The effect of one action. -/
def step (s : State) : Act → Option State
  | .advance now => if s.now ≤ now then some { s with now := now } else none
  | .life a messageDelay => (Queue.step s.life a).map (lifeStep s a messageDelay)
  | .enqueue m => some (enqueuePass s m)
  | .proc t e => if t ∈ s.life.live then procStep s t e else none
  | .jobStart j => (s.jobs[j]?).bind fun job =>
    if job.status = .queued then some (setStatus s j job .running) else none
  | .jobReturn j o => (s.jobs[j]?).bind fun job =>
    if job.status = .running then
      some { setStatus s j job (.returned o) with
             lastReturn := if normal o then some s.now else s.lastReturn }
    else none
  | .jobCancel j => (s.jobs[j]?).bind fun job =>
    if job.status = .queued then some (setStatus s j job .cancelled) else none

/-! ## What the lifecycle does to the unfinished tasks -/

theorem clearFailed_live (l : Queue.State) :
    (clearFailedStopStateIfRecovered l).2.live = l.live ∧
    (clearFailedStopStateIfRecovered l).2.nextTask = l.nextTask := by
  unfold clearFailedStopStateIfRecovered
  split_ifs
  · exact ⟨rfl, rfl⟩
  · exact ⟨rfl, rfl⟩
  · exact ⟨rfl, rfl⟩

theorem ensureExecutor_live (l : Queue.State) :
    (Queue.ensureExecutor l).live = l.live ∧ (Queue.ensureExecutor l).nextTask = l.nextTask := by
  unfold Queue.ensureExecutor
  cases l.executor with
  | none => exact ⟨rfl, rfl⟩
  | some _ => exact ⟨rfl, rfl⟩

theorem finalizeLocked_live (l : Queue.State) (c : Queue.StopCall) :
    (Queue.finalizeLocked l c).live = l.live ∧
    (Queue.finalizeLocked l c).nextTask = l.nextTask := by
  have hd : (Queue.dropExecutor (Queue.dropTask l c) c).live = l.live ∧
      (Queue.dropExecutor (Queue.dropTask l c) c).nextTask = l.nextTask := by
    unfold Queue.dropExecutor Queue.dropTask
    split_ifs <;> exact ⟨rfl, rfl⟩
  obtain ⟨hl, hn⟩ := clearFailed_live (Queue.dropExecutor (Queue.dropTask l c) c)
  unfold Queue.finalizeLocked Queue.finishStop
  simp only
  split_ifs
  · exact ⟨hl.trans hd.1, hn.trans hd.2⟩
  · exact hd
  · exact hd

/-- `start()` creates a task exactly when it activates the queue inside a running loop. -/
theorem start_live (l : Queue.State) (loopRunning : Bool) :
    (createsTask l (.start loopRunning) = true ∧
      (Queue.start l loopRunning).2.live = l.nextTask :: l.live ∧
      (Queue.start l loopRunning).2.nextTask = l.nextTask + 1) ∨
    (createsTask l (.start loopRunning) = false ∧
      (Queue.start l loopRunning).2.live = l.live ∧
      (Queue.start l loopRunning).2.nextTask = l.nextTask) := by
  obtain ⟨hl, hn⟩ := clearFailed_live l
  unfold Queue.start createsTask activates
  simp only
  split_ifs with h1 h2 h3 h4
  · exact .inr ⟨by simp [h1], hl, hn⟩
  · exact .inr ⟨by simp [h2], hl, hn⟩
  · exact .inr ⟨by simp [h3], hl, hn⟩
  · have he := ensureExecutor_live
      { (clearFailedStopStateIfRecovered l).2 with running := true, stopLogged := false }
    refine .inl ⟨by simp [h1, h2, h3, h4], ?_, ?_⟩
    · exact congrArg₂ List.cons (he.2.trans hn) (he.1.trans hl)
    · exact congrArg (· + 1) (he.2.trans hn)
  · have he := ensureExecutor_live
      { (clearFailedStopStateIfRecovered l).2 with running := true, stopLogged := false }
    exact .inr ⟨by simp [h4], he.1.trans hl, he.2.trans hn⟩

theorem ensureProcessorStarted_live (l : Queue.State) (loopRunning : Bool) :
    (createsTask l (.ensureProcessorStarted loopRunning) = true ∧
      (Queue.ensureProcessorStarted l loopRunning).live = l.nextTask :: l.live ∧
      (Queue.ensureProcessorStarted l loopRunning).nextTask = l.nextTask + 1) ∨
    (createsTask l (.ensureProcessorStarted loopRunning) = false ∧
      (Queue.ensureProcessorStarted l loopRunning).live = l.live ∧
      (Queue.ensureProcessorStarted l loopRunning).nextTask = l.nextTask) := by
  unfold Queue.ensureProcessorStarted createsTask
  simp only
  split_ifs with h1 h2
  · exact .inr ⟨by simp [h1], rfl, rfl⟩
  · exact .inl ⟨by simp_all, rfl, rfl⟩
  · exact .inr ⟨by simp_all, rfl, rfl⟩

theorem enqueueAdmission_live (l : Queue.State) :
    (Queue.enqueueAdmission l).2.live = l.live ∧
    (Queue.enqueueAdmission l).2.nextTask = l.nextTask := by
  unfold Queue.enqueueAdmission
  simp only
  split_ifs <;> exact clearFailed_live l

theorem resetFailedStopState_live (l : Queue.State) :
    (Queue.resetFailedStopState l).2.live = l.live ∧
    (Queue.resetFailedStopState l).2.nextTask = l.nextTask := by
  unfold Queue.resetFailedStopState
  split_ifs
  · exact ⟨rfl, rfl⟩
  · exact ⟨rfl, rfl⟩
  · exact clearFailed_live l

theorem stop_live (l : Queue.State) (onLoopThread : Bool) :
    (Queue.stop l onLoopThread).live = l.live ∧
    (Queue.stop l onLoopThread).nextTask = l.nextTask := by
  unfold Queue.stop
  split_ifs
  · exact ⟨rfl, rfl⟩
  · exact ⟨rfl, rfl⟩

/-- The unfinished tasks after a task has possibly ended. -/
def without (live : List ℕ) : Option ℕ → List ℕ
  | some t => live.erase t
  | none => live

/-- Only `run_until_complete` finishes a task inside an operation of a thread. -/
theorem execOp_live {l : Queue.State} {i g : ℕ} {c : Queue.StopCall} {op : Queue.Op}
    {rest : List Queue.Op} {th : Queue.Thread} {e : Queue.Env} {r : Queue.Effect}
    (hn : nextOp l i = some (th, c, op, rest)) (hr : Queue.execOp l g c op e = some r) :
    r.state.live = without l.live (endsTask l (.thread i e)) ∧ r.state.nextTask = l.nextTask := by
  cases op with
  | runUntilComplete =>
    cases e <;> simp only [Queue.execOp, reduceCtorEq] at hr
    · cases hc : c.task with
      | none => simp only [hc, reduceCtorEq] at hr
      | some t =>
        simp only [hc] at hr
        cases hr
        simp only [endsTask, hn, hc, without, and_self]
    · cases hr
      exact ⟨rfl, rfl⟩
  | finalizeLocked =>
    cases e <;> simp only [Queue.execOp, reduceCtorEq] at hr
    cases hr
    simpa only [endsTask, hn, without] using finalizeLocked_live l c
  | stopTask =>
    have hs : r.state = l := by
      simp only [Queue.execOp] at hr
      split at hr
      all_goals try split_ifs at hr
      all_goals cases hr
      all_goals rfl
    cases e <;> simp [endsTask, hn, without, hs]
  | stopExecutor | cancelAndCleanup | onTaskDone | waitTask | waitExecutor
  | shutdownExecutor | setTaskDone | setTaskCleanupComplete | setExecutorDone
  | setExecutorCleanupComplete | finalizeStopState | markStopFailed =>
    cases e <;> simp only [Queue.execOp, reduceCtorEq] at hr
    all_goals try split at hr
    all_goals try split_ifs at hr
    all_goals cases hr
    all_goals simp [endsTask, hn, without, Queue.setCall, Queue.markStopFailed]

/-- **The unfinished tasks.** A step of the lifecycle creates the next task, or it finishes at
most the one that `endsTask` names. -/
theorem step_live {l l' : Queue.State} {a : Queue.Act} (h : Queue.step l a = some l') :
    (createsTask l a = true ∧ l'.live = l.nextTask :: l.live ∧ l'.nextTask = l.nextTask + 1) ∨
    (createsTask l a = false ∧ l'.live = without l.live (endsTask l a) ∧
      l'.nextTask = l.nextTask) := by
  cases a with
  | start loopRunning =>
    cases h
    exact start_live l loopRunning
  | stop onLoopThread =>
    cases h
    exact .inr ⟨rfl, stop_live l onLoopThread⟩
  | ensureProcessorStarted loopRunning =>
    cases h
    exact ensureProcessorStarted_live l loopRunning
  | enqueue =>
    cases h
    exact .inr ⟨rfl, enqueueAdmission_live l⟩
  | resetFailedStopState =>
    cases h
    exact .inr ⟨rfl, resetFailedStopState_live l⟩
  | taskFinish t =>
    simp only [Queue.step] at h
    split_ifs at h with ht
    cases h
    exact .inr ⟨rfl, rfl, rfl⟩
  | thread i e =>
    obtain ⟨th, c, op, rest, r, hn, hr, rfl⟩ := Queue.step_thread h
    obtain ⟨hl, hnext⟩ := execOp_live hn hr
    exact .inr ⟨rfl, hl, hnext⟩

end MMRelay.Timed
