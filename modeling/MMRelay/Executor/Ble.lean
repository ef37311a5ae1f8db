import MMRelay.Lib.Run
import Mathlib.Data.Rat.Defs
import Mathlib.Algebra.Order.Ring.Rat
import Mathlib.Logic.Function.Basic

/-!
# The BLE worker

`_ensure_ble_worker_available`, `_record_ble_timeout`, `_maybe_reset_ble_executor`,
`_schedule_ble_future_cleanup`, `_clear_ble_future`, `reset_executor_degraded_state`
(`meshtastic/executors.py`) and their callers: a connect attempt that runs an operation on the
worker (`meshtastic/connection.py`), and the loss of a connection (`meshtastic/events.py`).
A section that holds `_ble_executor_lock` is one step. An operation that hangs cannot be stopped;
its executor is replaced, and is shut down only after the section that replaced it.

* `Job`, `Task`, `State`, `Act`, `step`: the operations, the parties and the shared variables;
* `Sound`: no operation is in line behind another one;
* `Settled`: no operation is submitted to an executor that is still to be shut down.
-/

namespace MMRelay.Executor.Ble

/-! ## The parties -/

/-- `EXECUTOR_ORPHAN_THRESHOLD`. -/
def executorOrphanThreshold : ℕ := 5

/-- What can be tuned: `_ble_timeout_reset_threshold`, `_ble_future_stale_grace_secs` and
`_ble_future_watchdog_secs`. -/
structure Limits where
  resetThreshold : ℕ
  staleGraceSecs : ℚ
  watchdogSecs : ℚ

/-- An operation on the worker: its executor, `future.done()`, when it was submitted and how long it
may take; `degraded` records whether its address was degraded then. -/
structure Job (α : Type) where
  address : α
  executor : ℕ
  done : Bool
  startedAt : ℚ
  timeoutSecs : ℚ
  degraded : Bool

/-- Where a party is; `next` is a caller of `_ensure_ble_worker_available` that goes on. -/
inductive Task (α : Type)
  /-- Before the second section of `_ensure_ble_worker_available`. -/
  | recheck (a : α)
  | submission (a : α)
  | waiting (a : α) (p : ℕ)
  /-- Before `_record_ble_timeout`. -/
  | record (a : α) (next : Option α)
  /-- Before the section of `_maybe_reset_ble_executor`. -/
  | reset (a : α) (count : ℕ) (next : Option α)
  /-- After a section that replaced or gave up an executor: before `future.cancel()`. -/
  | cancel (future executor : Option ℕ) (zeroed next : Option α)
  /-- Before `executor.shutdown(wait=False, cancel_futures=True)`. -/
  | shutdown (executor : Option ℕ) (zeroed next : Option α)
  | zero (a : α) (next : Option α)
  /-- A watchdog before the section that compares the futures. -/
  | cleanup (a : α) (p : ℕ)

/-- The task shuts the executor down later. -/
def Task.winds {α : Type} (e : ℕ) : Task α → Bool
  | cancel _ executor _ _ => decide (executor = some e)
  | shutdown executor _ _ => decide (executor = some e)
  | _ => false

/-- The shared variables, the operations and the parties. -/
structure State (α : Type) where
  now : ℚ
  /-- `_ble_future`; the address and the times that are kept with it are those of the operation. -/
  future : Option ℕ := none
  executor : Option ℕ := none
  nextExecutor : ℕ := 0
  stopped : List ℕ := []
  timeoutCounts : α → ℕ := fun _ => 0
  /-- `_ble_executor_orphaned_workers_by_address`. -/
  orphans : α → ℕ := fun _ => 0
  /-- `_ble_executor_degraded_addresses`. -/
  degraded : List α := []
  jobs : List (Job α) := []
  /-- Watchdogs that have not fired, with the times when they were set. -/
  armed : List (ℕ × ℚ) := []
  tasks : List (Task α) := []

inductive Act (α : Type)
  | tick (t : ℚ)
  /-- The first section of `_ensure_ble_worker_available`. -/
  | call (a : α)
  | recheck (i : ℕ)
  /-- The section that submits; `fails` if `submit` raises `RuntimeError`. -/
  | submit (i : ℕ) (timeoutSecs : ℚ) (fails : Bool)
  | finish (p : ℕ)
  /-- The done callback, `_clear_ble_future`. -/
  | clear (p : ℕ)
  | resolve (i : ℕ)
  /-- The caller stops waiting, for the shutdown or because it `timedOut`; `future.cancel()` tells
  whether the operation is `cancelled`. -/
  | giveUp (i : ℕ) (timedOut cancelled : Bool)
  | record (i : ℕ)
  | reset (i : ℕ)
  | cancel (i : ℕ) (cancelled : Bool)
  | shutdown (i : ℕ)
  | zero (i : ℕ)
  /-- A watchdog fires and tests `future.done()`. -/
  | fire (p : ℕ) (t : ℚ)
  | cleanup (i : ℕ)
  /-- `_clear_stale_ble_future_for_reconnect`. -/
  | lost
  /-- `reset_executor_degraded_state`, for one address or for all. -/
  | recover (address : Option α)

variable {α : Type}

namespace State

variable (s : State α)

/-- The operation of `_ble_future`, if it is not done. -/
def busy : Option (ℕ × Job α) :=
  match s.future with
  | some p =>
    match s.jobs[p]? with
    | some job => if job.done then none else some (p, job)
    | none => none
  | none => none

/-- The executor is there and was not shut down. -/
def usable : Bool :=
  match s.executor with
  | some e => !s.stopped.contains e
  | none => false

/-- `_get_ble_executor`. -/
def getExecutor : ℕ := if s.usable then s.executor.getD 0 else s.nextExecutor

/-- The executor is created if it is needed. -/
def withExecutor : State α :=
  if s.usable then s
  else { s with executor := some s.nextExecutor, nextExecutor := s.nextExecutor + 1 }

/-- The operation ends. -/
def finish (p : ℕ) : State α :=
  { s with jobs := s.jobs.modify p fun job => { job with done := true } }

/-- `_clear_ble_future`. -/
def clear [DecidableEq α] (p : ℕ) : State α :=
  if s.future = some p then
    match s.jobs[p]? with
    | some job =>
      { s with future := none, timeoutCounts := Function.update s.timeoutCounts job.address 0 }
    | none => { s with future := none }
  else s

/-- The task goes on as `t`, or ends. -/
def advance (i : ℕ) : Option (Task α) → State α
  | some t => { s with tasks := s.tasks.set i t }
  | none => { s with tasks := s.tasks.eraseIdx i }

/-- The operation is submitted. -/
def start [DecidableEq α] (a : α) (timeoutSecs : ℚ) : State α :=
  let s' := s.withExecutor
  { s' with
    future := some s.jobs.length
    jobs := s.jobs ++ [⟨a, s.getExecutor, false, s.now, timeoutSecs, s.degraded.contains a⟩] }

/-- The section of `_maybe_reset_ble_executor`, and what is left to do after it. -/
def resetFor [DecidableEq α] (limits : Limits) (a : α) (count : ℕ) (next : Option α) :
    State α × Option (Task α) :=
  if a ∈ s.degraded then (s, next.map .recheck)
  else if count < limits.resetThreshold then (s, next.map .recheck)
  else if executorOrphanThreshold ≤ s.orphans a + 1 then
    -- the executor stays until it is shut down
    ({ s with
        degraded := a :: s.degraded
        future := none
        timeoutCounts := Function.update s.timeoutCounts a 0 },
      some (.cancel s.future s.executor none next))
  else
    let s' : State α :=
      { s with
        future := none, executor := some s.nextExecutor, nextExecutor := s.nextExecutor + 1 }
    if s.usable then
      ({ s' with orphans := Function.update s.orphans a (s.orphans a + 1) },
        some (.cancel (s.busy.map Prod.fst) s.executor (some a) next))
    else (s', some (.cancel (s.busy.map Prod.fst) none (some a) next))

end State

/-- One step of a party. -/
def step [DecidableEq α] (limits : Limits) (s : State α) : Act α → Option (State α)
  | .tick t => if s.now ≤ t then some { s with now := t } else none
  | .call a =>
    match s.busy with
    | none => some { s with tasks := s.tasks ++ [.submission a] }
    | some (_, job) =>
      if job.startedAt + job.timeoutSecs + limits.staleGraceSecs ≤ s.now then
        some { s with tasks := s.tasks ++ [.record job.address (some a)] }
      else some { s with tasks := s.tasks ++ [.recheck a] }
  | .recheck i =>
    match s.tasks[i]? with
    | some (.recheck a) =>
      -- a worker that is busy raises `TimeoutError`
      some (s.advance i (if s.busy.isSome then none else some (.submission a)))
    | _ => none
  | .submit i timeoutSecs fails =>
    match s.tasks[i]? with
    | some (.submission a) =>
      if s.busy.isSome || s.degraded.contains a then some (s.advance i none)
      else if fails then some (s.withExecutor.advance i none)
      else some ((s.start a timeoutSecs).advance i (some (.waiting a s.jobs.length)))
    | _ => none
  | .finish p => if p < s.jobs.length then some (s.finish p) else none
  | .clear p =>
    match s.jobs[p]? with
    | some job => if job.done then some (s.clear p) else none
    | none => none
  | .resolve i =>
    match s.tasks[i]? with
    | some (.waiting _ p) =>
      if (s.jobs[p]?.map Job.done).getD false then some (s.advance i none) else none
    | _ => none
  | .giveUp i timedOut cancelled =>
    match s.tasks[i]? with
    | some (.waiting a p) =>
      if cancelled then some (((s.finish p).clear p).advance i none)
      else
        let s' := { s with armed := s.armed ++ [(p, s.now)] }
        some (s'.advance i (if timedOut then some (.record a none) else none))
    | _ => none
  | .record i =>
    match s.tasks[i]? with
    | some (.record a next) =>
      let count := s.timeoutCounts a + 1
      let s' := { s with timeoutCounts := Function.update s.timeoutCounts a count }
      -- a stale worker is replaced at once
      let count := if next.isSome then max count limits.resetThreshold else count
      some (s'.advance i (some (.reset a count next)))
    | _ => none
  | .reset i =>
    match s.tasks[i]? with
    | some (.reset a count next) =>
      some ((s.resetFor limits a count next).1.advance i (s.resetFor limits a count next).2)
    | _ => none
  | .cancel i cancelled =>
    match s.tasks[i]? with
    | some (.cancel future executor zeroed next) =>
      let s' := if cancelled then (future.map s.finish).getD s else s
      some (s'.advance i (some (.shutdown executor zeroed next)))
    | _ => none
  | .shutdown i =>
    match s.tasks[i]? with
    | some (.shutdown executor zeroed next) =>
      let s' := { s with stopped := executor.toList ++ s.stopped }
      some (s'.advance i
        (match zeroed with
        | some a => some (.zero a next)
        | none => next.map .recheck))
    | _ => none
  | .zero i =>
    match s.tasks[i]? with
    | some (.zero a next) =>
      let s' := { s with timeoutCounts := Function.update s.timeoutCounts a 0 }
      some (s'.advance i (next.map .recheck))
    | _ => none
  | .fire p t =>
    match s.jobs[p]? with
    | some job =>
      if (p, t) ∈ s.armed ∧ t + limits.watchdogSecs ≤ s.now then
        some { s with
          armed := s.armed.erase (p, t)
          tasks := s.tasks ++ if job.done then [] else [.cleanup job.address p] }
      else none
    | none => none
  | .cleanup i =>
    match s.tasks[i]? with
    | some (.cleanup a p) =>
      some (s.advance i
        (if s.future = some p then some (.reset a limits.resetThreshold none) else none))
    | _ => none
  | .lost =>
    match s.busy with
    | none => some s
    | some (p, job) =>
      some { s with
        future := none
        timeoutCounts := Function.update s.timeoutCounts job.address 0
        executor := none
        tasks := s.tasks ++ [.cancel (some p) s.executor none none] }
  | .recover (some a) =>
    if a ∈ s.degraded then
      some { s with
        degraded := s.degraded.filter (· ≠ a)
        orphans := Function.update s.orphans a 0
        executor := none
        tasks := s.tasks ++ [.shutdown s.executor none none] }
    else some s
  | .recover none =>
    if s.degraded = [] then some s
    else
      some { s with
        degraded := []
        orphans := fun _ => 0
        executor := none
        tasks := s.tasks ++ [.shutdown s.executor none none] }

/-! ## The property and the condition -/

/-- An executor is to be shut down. -/
def State.winding (s : State α) (e : ℕ) : Bool := s.tasks.any (Task.winds e)

/-- No operation waits for another one. -/
structure Sound (s : State α) : Prop where
  apart : ∀ (p q : ℕ) (job job' : Job α), s.jobs[p]? = some job → s.jobs[q]? = some job' →
    job.done = false → job'.done = false → job.executor = job'.executor → p = q
  threshold : ∀ a, s.orphans a < executorOrphanThreshold
  refused : ∀ job ∈ s.jobs, job.degraded = false

/-- An operation is not submitted to an executor that is to be shut down. -/
def Settled (s : State α) : Act α → Prop
  | .submit i _ _ => ∀ a, s.tasks[i]? = some (.submission a) → a ∉ s.degraded →
      ∀ e, s.executor = some e → s.winding e = false
  | _ => True

/-- The party works for this address. -/
def Act.IsFor (a : α) : Act α → Prop
  | .call b => b = a
  | _ => True

end MMRelay.Executor.Ble
