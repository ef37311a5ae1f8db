import Mathlib.Data.List.Nodup
import MMRelay.Lib.Run

/-!
# The lifecycle of the message queue

`MessageQueue.start`, `stop`, `enqueue`, `ensure_processor_started` and `reset_failed_stop_state`
(`message_queue.py`) as one labelled step. A lock-held section, an event set and an event test
are atomic. One `stop()` leaves several threads behind: the cancel handler, the done-callback of
the task, the executor-shutdown thread, two watchdogs and its own caller. Each of them is a
`Thread`: the number of its `stop()` call and the operations it still has to perform.

* `State`, `StopCall`, `Op`, `Thread`, `Act`;
* the lock-held sections `start`, `stop`, `ensureProcessorStarted`, `enqueueAdmission`,
  `resetFailedStopState`, `finalizeLocked`, `markStopFailed`;
* `execOp`, the effect of one operation of a thread, and `step`, the effect of one action;
* `step_thread`: what a thread step can be.

The processor coroutine is one action here, `Act.taskFinish`; its loop is the subject of
`Queue/Processor.lean`.
-/

namespace MMRelay.Queue

/-- The locals of one `stop()` call that got past its first lock-held section. Asyncio tasks and
executors are numbered by order of creation. -/
structure StopCall where
  task : Option ℕ
  execRef : Option ℕ
  onLoopThread : Bool
  taskCleanupComplete : Bool
  executorCleanupComplete : Bool
  taskDone : Bool
  executorDone : Bool
  deriving DecidableEq

/-- The operations of the threads of a `stop()` call. -/
inductive Op
  /-- The block `if task is not None`. -/
  | stopTask
  /-- The block `if exec_ref is not None`. -/
  | stopExecutor
  | cancelAndCleanup
  /-- The done-callback; the event loop calls it once the task is done. -/
  | onTaskDone
  /-- `task_done.wait(timeout=TASK_SHUTDOWN_TIMEOUT_SEC)`. -/
  | waitTask
  | waitExecutor
  | runUntilComplete
  | shutdownExecutor
  | setTaskDone
  | setTaskCleanupComplete
  | setExecutorDone
  | setExecutorCleanupComplete
  /-- The event test of `_finalize_stop_state`. -/
  | finalizeStopState
  /-- The lock-held section of `_finalize_stop_state`. -/
  | finalizeLocked
  /-- The lock-held section of `_mark_stop_failed`. -/
  | markStopFailed
  deriving DecidableEq

/-- A thread or callback of `stop()` call number `gen`, with what it still has to do. -/
structure Thread where
  gen : ℕ
  code : List Op
  deriving DecidableEq

/-- The fields of `MessageQueue` that the lifecycle reads, the tasks and executors created so far,
and the `stop()` calls with their threads. -/
structure State where
  running : Bool
  stopping : Bool
  stopFailed : Bool
  stopLogged : Bool
  processorTask : Option ℕ
  executor : Option ℕ
  /-- The unfinished processor tasks. -/
  live : List ℕ
  nextTask : ℕ
  nextExec : ℕ
  /-- The executors on which `shutdown` has been called. -/
  shutDown : List ℕ
  stops : List StopCall
  threads : List Thread
  deriving DecidableEq

/-- `MessageQueue.__init__`. -/
def init : State :=
  { running := false, stopping := false, stopFailed := false, stopLogged := false,
    processorTask := none, executor := none, live := [], nextTask := 0, nextExec := 0,
    shutDown := [], stops := [], threads := [] }

/-! ## Lock-held sections -/

/-- `self._processor_task is not None and not self._processor_task.done()`. -/
def taskActive (s : State) : Bool :=
  match s.processorTask with
  | none => false
  | some t => decide (t ∈ s.live)

/-- `_clear_failed_stop_state_if_recovered_locked`. -/
def clearFailedStopStateIfRecovered (s : State) : Bool × State :=
  if !s.stopFailed then (false, s)
  else if s.running || taskActive s || s.executor.isSome then (false, s)
  else (true, { s with processorTask := none, stopping := false, stopFailed := false })

theorem clearFailed_recovered {s : State} (hf : s.stopFailed = true) (hr : s.running = false)
    (ha : taskActive s = false) (he : s.executor = none) :
    clearFailedStopStateIfRecovered s =
      (true, { s with processorTask := none, stopping := false, stopFailed := false }) := by
  rw [clearFailedStopStateIfRecovered, hf, hr, ha, he]
  rfl

/-- `loop.create_task(self._process_queue())`, stored in `_processor_task`. -/
def createTask (s : State) : State :=
  { s with processorTask := some s.nextTask, live := s.nextTask :: s.live,
           nextTask := s.nextTask + 1 }

/-- `ThreadPoolExecutor(...)`, unless the queue still has one. -/
def ensureExecutor (s : State) : State :=
  match s.executor with
  | none => { s with executor := some s.nextExec, nextExec := s.nextExec + 1 }
  | some _ => s

/-- `start()`: its answer and the state it leaves. -/
def start (s : State) (loopRunning : Bool) : Bool × State :=
  let s := (clearFailedStopStateIfRecovered s).2
  if s.stopFailed then (false, s)
  else if s.running then (true, s)
  else if s.stopping then (false, s)
  else
    let s := ensureExecutor { s with running := true, stopLogged := false }
    (true, if loopRunning then createTask s else s)

/-- The first lock-held section of `stop()`; the caller goes on as a thread of the new call. -/
def stop (s : State) (onLoopThread : Bool) : State :=
  if !s.running then s
  else
    { s with
      running := false
      stopping := true
      stops := s.stops ++
        [{ task := s.processorTask, execRef := s.executor, onLoopThread := onLoopThread,
           taskCleanupComplete := s.processorTask.isNone,
           executorCleanupComplete := s.executor.isNone,
           taskDone := false, executorDone := false }]
      threads := s.threads ++
        [⟨s.stops.length, [.stopTask, .stopExecutor, .finalizeStopState]⟩] }

/-- `ensure_processor_started()`. -/
def ensureProcessorStarted (s : State) (loopRunning : Bool) : State :=
  if taskActive s then s
  else
    let s := { s with processorTask := none }
    if s.running && !s.stopFailed && loopRunning then createTask s else s

/-- Why `enqueue` refuses, or that it goes on to the queue itself. -/
inductive Admission
  | failedStop
  | notRunning
  | admitted
  deriving DecidableEq

/-- The first tests of the lock-held section of `enqueue`. -/
def enqueueAdmission (s : State) : Admission × State :=
  let s := (clearFailedStopStateIfRecovered s).2
  if s.stopFailed then (.failedStop, s)
  else if !s.running || s.stopping then (.notRunning, s)
  else (.admitted, s)

/-- `reset_failed_stop_state()`. -/
def resetFailedStopState (s : State) : Bool × State :=
  if s.stopping then (false, s)
  else if !s.stopFailed then (true, s)
  else clearFailedStopStateIfRecovered s

/-- The lock-held section of `_mark_stop_failed`. -/
def markStopFailed (s : State) : State := { s with stopFailed := true }

/-- `if task is not None and self._processor_task is task: self._processor_task = None`. -/
def dropTask (s : State) (c : StopCall) : State :=
  if c.task.isSome && s.processorTask == c.task then { s with processorTask := none } else s

/-- `if exec_ref is not None and self._executor is exec_ref: self._executor = None`. -/
def dropExecutor (s : State) (c : StopCall) : State :=
  if c.execRef.isSome && s.executor == c.execRef then { s with executor := none } else s

/-- The end of `_finalize_stop_state`: the call is over, or the latch stays. -/
def finishStop (s : State) : State :=
  if s.stopFailed then
    let r := clearFailedStopStateIfRecovered s
    if r.1 then { r.2 with stopLogged := true } else s
  else { s with stopping := false, stopLogged := true }

/-- The lock-held section of `_finalize_stop_state` of the call `c`. -/
def finalizeLocked (s : State) (c : StopCall) : State := finishStop (dropExecutor (dropTask s c) c)

/-! ## Threads -/

/-- What `stop()` finds of the event loop of its task. -/
inductive LoopView
  | closed
  /-- The calling thread runs that loop; `call_soon` may find it closed. -/
  | current (scheduled : Bool)
  /-- Another thread runs it; `call_soon_threadsafe` may find it closed. -/
  | running (scheduled : Bool)
  | idle
  deriving DecidableEq

/-- What an operation sees of its surroundings. -/
inductive Env
  | quiet
  | loop (v : LoopView)
  | timeout
  | runtimeError
  deriving DecidableEq

/-- The effect of one operation: the new state, what the thread does next, the threads started. -/
structure Effect where
  state : State
  next : List Op
  spawned : List Thread
  deriving DecidableEq

/-- Replace the record of call `g`. -/
def setCall (s : State) (g : ℕ) (c : StopCall) : State := { s with stops := s.stops.set g c }

/-- What follows once the task is done, or its loop is found closed. -/
def taskGone : List Op := [.setTaskDone, .setTaskCleanupComplete, .finalizeStopState]

/-- One operation of a thread of call `g` with record `c`; `none` when it is not enabled. -/
def execOp (s : State) (g : ℕ) (c : StopCall) : Op → Env → Option Effect
  | .stopTask, e =>
    match c.task, e with
    | none, .quiet => some ⟨s, [], []⟩
    | some _, .loop .closed => some ⟨s, [.setTaskCleanupComplete, .finalizeStopState], []⟩
    | some _, .loop (.current scheduled) =>
      if !c.onLoopThread then none
      else if scheduled then some ⟨s, [], [⟨g, [.cancelAndCleanup]⟩, ⟨g, [.waitTask]⟩]⟩
      else some ⟨s, taskGone, []⟩
    | some _, .loop (.running scheduled) =>
      if !scheduled then some ⟨s, taskGone, []⟩
      else if c.onLoopThread then some ⟨s, [], [⟨g, [.cancelAndCleanup]⟩, ⟨g, [.waitTask]⟩]⟩
      else some ⟨s, [.waitTask], [⟨g, [.cancelAndCleanup]⟩]⟩
    | some _, .loop .idle =>
      some ⟨s, [.runUntilComplete, .setTaskCleanupComplete, .finalizeStopState], []⟩
    | _, _ => none
  | .stopExecutor, .quiet =>
    match c.execRef with
    | none => some ⟨s, [], []⟩
    | some _ =>
      let shutdown : Thread :=
        ⟨g, [.shutdownExecutor, .setExecutorDone, .setExecutorCleanupComplete, .finalizeStopState]⟩
      if c.onLoopThread then some ⟨s, [], [shutdown, ⟨g, [.waitExecutor]⟩]⟩
      else some ⟨s, [.waitExecutor], [shutdown]⟩
  | .cancelAndCleanup, .quiet =>
    -- `cancel()` only requests: the task is done now, or the loop will call `_on_task_done`
    match c.task with
    | none => none
    | some t => some ⟨s, if t ∈ s.live then [.onTaskDone] else taskGone, []⟩
  | .onTaskDone, .quiet =>
    match c.task with
    | none => none
    | some t => if t ∈ s.live then none else some ⟨s, taskGone, []⟩
  | .waitTask, .quiet => if c.taskDone then some ⟨s, [], []⟩ else none
  | .waitTask, .timeout => if c.taskDone then none else some ⟨s, [.markStopFailed], []⟩
  | .waitExecutor, .quiet => if c.executorDone then some ⟨s, [], []⟩ else none
  | .waitExecutor, .timeout => if c.executorDone then none else some ⟨s, [.markStopFailed], []⟩
  | .runUntilComplete, .quiet =>
    match c.task with
    | none => none
    | some t => some ⟨{ s with live := s.live.erase t }, [], []⟩
  | .runUntilComplete, .runtimeError => some ⟨s, [], []⟩
  | .shutdownExecutor, .quiet =>
    match c.execRef with
    | none => none
    | some e => some ⟨{ s with shutDown := e :: s.shutDown }, [], []⟩
  | .setTaskDone, .quiet => some ⟨setCall s g { c with taskDone := true }, [], []⟩
  | .setTaskCleanupComplete, .quiet =>
    some ⟨setCall s g { c with taskCleanupComplete := true }, [], []⟩
  | .setExecutorDone, .quiet => some ⟨setCall s g { c with executorDone := true }, [], []⟩
  | .setExecutorCleanupComplete, .quiet =>
    some ⟨setCall s g { c with executorCleanupComplete := true }, [], []⟩
  | .finalizeStopState, .quiet =>
    some ⟨s, if c.taskCleanupComplete && c.executorCleanupComplete then [.finalizeLocked] else [],
      []⟩
  | .finalizeLocked, .quiet => some ⟨finalizeLocked s c, [], []⟩
  | .markStopFailed, .quiet => some ⟨markStopFailed s, [], []⟩
  | _, _ => none

/-! ## Actions -/

/-- One atomic step of the system. -/
inductive Act
  | start (loopRunning : Bool)
  | stop (onLoopThread : Bool)
  | ensureProcessorStarted (loopRunning : Bool)
  | enqueue
  | resetFailedStopState
  /-- A processor coroutine returns. -/
  | taskFinish (t : ℕ)
  | thread (i : ℕ) (e : Env)
  deriving DecidableEq

/-- The next operation of thread `i`, with the number and the record of its call. -/
def nextOp (s : State) (i : ℕ) : Option (Thread × StopCall × Op × List Op) := do
  let th ← s.threads[i]?
  let c ← s.stops[th.gen]?
  match th.code with
  | [] => none
  | op :: rest => some (th, c, op, rest)

/-- Thread `i` has performed an operation: it goes on with `next ++ rest`. -/
def Effect.apply (r : Effect) (i : ℕ) (th : Thread) (rest : List Op) : State :=
  { r.state with
    threads := r.state.threads.set i ⟨th.gen, r.next ++ rest⟩ ++ r.spawned }

/-- The effect of one action. -/
def step (s : State) : Act → Option State
  | .start loopRunning => some (start s loopRunning).2
  | .stop onLoopThread => some (stop s onLoopThread)
  | .ensureProcessorStarted loopRunning => some (ensureProcessorStarted s loopRunning)
  | .enqueue => some (enqueueAdmission s).2
  | .resetFailedStopState => some (resetFailedStopState s).2
  | .taskFinish t => if t ∈ s.live then some { s with live := s.live.erase t } else none
  | .thread i e => do
    let (th, c, op, rest) ← nextOp s i
    let r ← execOp s th.gen c op e
    some (r.apply i th rest)

theorem nextOp_eq_some {s : State} {i : ℕ} {th : Thread} {c : StopCall} {op : Op}
    {rest : List Op} (h : nextOp s i = some (th, c, op, rest)) :
    s.threads[i]? = some th ∧ s.stops[th.gen]? = some c ∧ th.code = op :: rest := by
  simp only [nextOp, Option.bind_eq_bind, Option.bind_eq_some_iff] at h
  obtain ⟨th', hth, c', hc, h⟩ := h
  split at h
  · cases h
  · next hcode =>
    cases h
    exact ⟨hth, hc, hcode⟩

theorem step_thread {s s' : State} {i : ℕ} {e : Env} (h : step s (.thread i e) = some s') :
    ∃ th c op rest r, nextOp s i = some (th, c, op, rest) ∧
      execOp s th.gen c op e = some r ∧ s' = r.apply i th rest := by
  simp only [step, Option.bind_eq_bind, Option.bind_eq_some_iff] at h
  obtain ⟨⟨th, c, op, rest⟩, hn, r, hr, h⟩ := h
  exact ⟨th, c, op, rest, r, hn, hr, (Option.some.inj h).symm⟩

end MMRelay.Queue
