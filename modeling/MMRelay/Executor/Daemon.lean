import MMRelay.Lib.Run

/-!
# The daemon-thread executor

`meshtastic/daemon_executor.py`: callers, worker threads and shutdowns share a FIFO of work items
and exit signals. A section that holds the lock is cut into steps wherever a worker, which reads the
queue without the lock, can run in between. Threads are assumed to start.

* `State`: the executor, its threads and the futures;
* `Act`, `step`: `submit`, `shutdown`, `_worker` and `Future.cancel`;
* `run`: the runs of a new executor.
-/

namespace MMRelay.Executor.Daemon

/-! ## The parties -/

inductive Future
  | pending
  | cancelled
  | running
  | finished
  deriving DecidableEq

/-- `_worker`: where a thread is. -/
inductive Worker
  /-- Before `_work_queue.get()`. -/
  | idle
  /-- Before `set_running_or_notify_cancel()`. -/
  | holding (i : ℕ)
  | running (i : ℕ)
  /-- It took an exit signal and is still in `_threads`. -/
  | leaving
  | left
  | dead
  deriving DecidableEq

namespace Worker

/-- The thread has not taken an exit signal. -/
def active : Worker → Bool
  | idle => true
  | holding _ => true
  | running _ => true
  | _ => false

/-- The item that the thread took last and has not finished. -/
def item? : Worker → Option ℕ
  | holding i => some i
  | running i => some i
  | _ => none

end Worker

/-- The section that holds the lock. -/
inductive Section
  /-- `submit`, after the item is queued. -/
  | submitting
  /-- `shutdown(cancel_futures=True)`, before the queue is found empty. -/
  | draining (signals : ℕ)
  /-- `shutdown`, with so many exit signals to put. -/
  | signalling (signals : ℕ)
  deriving DecidableEq

/-- `DaemonThreadExecutor`; items and threads are numbered, `none` in the queue is an exit signal.
`taken` and `started` record in which order items left the queue and were started. -/
structure State where
  queue : List (Option ℕ) := []
  threads : List ℕ := []
  isShutdown : Bool := false
  lock : Option Section := none
  workers : List Worker := []
  futures : List Future := []
  taken : List ℕ := []
  started : List ℕ := []
  deriving DecidableEq

inductive Act
  | submit
  | startWorker
  | shutdown (cancelFutures : Bool)
  | drain
  | signal
  | take (w : ℕ)
  /-- `set_running_or_notify_cancel()`. -/
  | begin (w : ℕ)
  | finish (w : ℕ)
  /-- `_threads.discard(current)`. -/
  | leave (w : ℕ)
  | die (w : ℕ)
  | cancel (i : ℕ)
  deriving DecidableEq

namespace State

variable (s : State)

def setWorker (w : ℕ) (x : Worker) : State := { s with workers := s.workers.set w x }

def setFuture (i : ℕ) (x : Future) : State := { s with futures := s.futures.set i x }

/-- `future.cancel()`. -/
def cancel (i : ℕ) : State :=
  if s.futures[i]? = some .pending then s.setFuture i .cancelled else s

/-- `thread.is_alive()`. -/
def isAlive (w : ℕ) : Bool := decide (s.workers[w]? ≠ some .dead)

/-- `_start_worker_if_needed_locked`. -/
def startWorkerIfNeeded (maxWorkers : ℕ) : State :=
  let alive := s.threads.filter s.isAlive
  if maxWorkers ≤ alive.length then { s with threads := alive }
  else { s with threads := alive ++ [s.workers.length], workers := s.workers ++ [.idle] }

end State

/-- One step; `none` when the action is not possible. -/
def step (maxWorkers : ℕ) (s : State) : Act → Option State
  | .submit =>
    if s.lock = none ∧ s.isShutdown = false then
      some { s with queue := s.queue ++ [some s.futures.length], futures := s.futures ++ [.pending]
                    lock := some .submitting }
    else none
  | .startWorker =>
    if s.lock = some .submitting then
      some { s.startWorkerIfNeeded maxWorkers with lock := none }
    else none
  | .shutdown cancelFutures =>
    if s.lock = none then
      some { s with isShutdown := true
                    lock := some (if cancelFutures then .draining s.threads.length
                      else .signalling s.threads.length) }
    else none
  | .drain =>
    match s.lock, s.queue with
    | some (.draining n), [] => some { s with lock := some (.signalling n) }
    | some (.draining _), none :: queue => some { s with queue := queue }
    | some (.draining _), some i :: queue => some ({ s with queue := queue }.cancel i)
    | _, _ => none
  | .signal =>
    match s.lock with
    | some (.signalling 0) => some { s with lock := none }
    | some (.signalling (n + 1)) =>
      some { s with queue := s.queue ++ [none], lock := some (.signalling n) }
    | _ => none
  | .take w =>
    match s.workers[w]?, s.queue with
    | some .idle, some i :: queue =>
      some { s.setWorker w (.holding i) with queue := queue, taken := s.taken ++ [i] }
    | some .idle, none :: queue => some { s.setWorker w .leaving with queue := queue }
    | _, _ => none
  | .begin w =>
    match s.workers[w]? with
    | some (.holding i) =>
      if s.futures[i]? = some .pending then
        some { (s.setWorker w (.running i)).setFuture i .running with started := s.started ++ [i] }
      else some (s.setWorker w .idle)
    | _ => none
  | .finish w =>
    match s.workers[w]? with
    | some (.running i) => some ((s.setWorker w .idle).setFuture i .finished)
    | _ => none
  | .leave w =>
    if s.workers[w]? = some .leaving ∧ s.lock = none then
      some { s.setWorker w .left with threads := s.threads.filter (· ≠ w) }
    else none
  | .die w => if s.workers[w]? = some .left then some (s.setWorker w .dead) else none
  | .cancel i => some (s.cancel i)

/-- The constructor, which refuses `max_workers <= 0`. -/
def create (maxWorkers : ℕ) : Option State := if maxWorkers = 0 then none else some {}

/-- The state after a run of a new executor. -/
def run (maxWorkers : ℕ) (as : List Act) : Option State :=
  (create maxWorkers).bind fun s => runActs (step maxWorkers) s as

end MMRelay.Executor.Daemon
