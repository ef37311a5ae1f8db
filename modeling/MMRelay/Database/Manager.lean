import Mathlib
import MMRelay.Lib.Run

/-!
# Interleavings of the database manager

`DatabaseManager` (`db_runtime.py`): threads that run read and write operations, directly or through
the executor, nested in one another, and threads that close the manager. A section that holds
`_connections_lock` or `_executor_lock` is one step; `_write_lock` is held while a callback runs.

* `Frame`, `Pc`, `Worker`, `Thread`: where a thread is;
* `State`, `State.init`: the fields of the manager, its thread-local stores and its threads;
* `Act`, `step`: the sections.
-/

namespace MMRelay.Database

/-- An operation that was admitted: `previously_admitted`, and whether it holds `_write_lock`. -/
structure Frame where
  previouslyAdmitted : Bool
  write : Bool
  deriving DecidableEq

/-- The next section of a thread. -/
inductive Pc
  | idle
  /-- `_sync_activity` before its first section, with the flag that was read. -/
  | admitting (write previouslyAdmitted : Bool)
  /-- `_get_connection`. -/
  | connecting
  /-- `with self._write_lock`. -/
  | locking
  /-- The `finally` clause of `_sync_activity`. -/
  | leaving
  /-- `close` before its second, third and last part. -/
  | shutdown
  | sweep
  | swap
  deriving DecidableEq

/-- A task of the executor: `executor_func` before and after it calls `run_sync`. -/
inductive Worker
  | started (write : Bool)
  | running
  deriving DecidableEq

structure Thread where
  pc : Pc := .idle
  /-- The operations whose callbacks the thread is in, the innermost first. -/
  frames : List Frame := []
  worker : Option Worker := none
  deriving DecidableEq

structure State where
  closing : Bool
  acceptingSubmissions : Bool
  activeSyncCount : ℕ
  /-- The `write` arguments of the submitted tasks that have not started. -/
  pending : List Bool
  running : ℕ
  /-- Which `threading.local()` the manager has. -/
  threadLocal : ℕ
  /-- `_allow_during_close` of a thread in such a store. -/
  allowDuringClose : ℕ → ℕ → Bool
  /-- `connection` of a thread in such a store. -/
  connection : ℕ → ℕ → Option ℕ
  /-- The connections that are tracked, those that are not closed, and the number of all. -/
  connections : Finset ℕ
  usable : Finset ℕ
  created : ℕ
  /-- The thread that holds `_write_lock`, and how often. -/
  writeOwner : Option ℕ
  writeDepth : ℕ
  threads : ℕ → Thread
  /-- How many calls of `close` have returned, and how many operations were refused. -/
  returned : ℕ
  refused : ℕ

/-- After the constructor, which the thread `0` ran. -/
def State.init : State where
  closing := false
  acceptingSubmissions := true
  activeSyncCount := 0
  pending := []
  running := 0
  threadLocal := 0
  allowDuringClose _ _ := false
  connection g t := if g = 0 ∧ t = 0 then some 0 else none
  connections := {0}
  usable := {0}
  created := 1
  writeOwner := none
  writeDepth := 0
  threads _ := {}
  returned := 0
  refused := 0

namespace State

variable (s : State) (t : ℕ)

/-- `_is_admitted_during_close`. -/
def isAdmittedDuringClose : Bool := s.allowDuringClose s.threadLocal t

def setFlag (b : Bool) : State :=
  { s with allowDuringClose := fun g u =>
      if g = s.threadLocal ∧ u = t then b else s.allowDuringClose g u }

def setConnection (c : Option ℕ) : State :=
  { s with connection := fun g u =>
      if g = s.threadLocal ∧ u = t then c else s.connection g u }

def setThread (th : Thread) : State := { s with threads := Function.update s.threads t th }

def setPc (pc : Pc) : State := s.setThread t { s.threads t with pc := pc }

/-- Nobody else holds `_write_lock`. -/
def writeFree : Bool := s.writeOwner.all fun u => decide (u = t)

/-- The thread-local connection, if it can be used. -/
def currentConnection : Option ℕ :=
  (s.connection s.threadLocal t).filter fun c => decide (c ∈ s.usable)

/-- Create a connection, track it, and store it for the thread; a stale one is discarded. -/
def createConnection : State :=
  { s.setConnection t (some s.created) with
    connections := insert s.created (s.connections \ (s.connection s.threadLocal t).toFinset)
    usable := insert s.created s.usable
    created := s.created + 1 }

/-- The stale connection of the thread is discarded, and no new one is created. -/
def discardConnection : State :=
  { s with connections := s.connections \ (s.connection s.threadLocal t).toFinset }

end State

/-- The steps of a thread. -/
inductive Act
  /-- `run_sync` is called, by a caller, a callback or a task. -/
  | begin (t : ℕ) (write : Bool)
  | enter (t : ℕ)
  /-- `_get_connection`; `ok` says whether a new connection can be created. -/
  | connect (t : ℕ) (ok : Bool)
  | lockWrite (t : ℕ)
  | breakConnection (t : ℕ)
  /-- The callback returns or raises, and a write is committed or rolled back. -/
  | endCallback (t : ℕ)
  | leave (t : ℕ)
  /-- `run_async` up to the submission. -/
  | submit (t : ℕ) (write : Bool)
  /-- The future of a task that has not started is cancelled, if the task is a read. -/
  | cancel (i : ℕ)
  | startTask (t : ℕ)
  | endTask (t : ℕ)
  | close (t : ℕ)
  | shutdown (t : ℕ)
  | sweep (t : ℕ)
  | swap (t : ℕ)

/-- Where a thread goes on with its connection. -/
def afterConnect (th : Thread) : Pc :=
  match th.frames with
  | ⟨_, true⟩ :: _ => .locking
  | _ => .idle

/-- `_get_connection`. -/
def getConnection (s : State) (t : ℕ) (ok : Bool) : Option State :=
  let th := s.threads t
  if s.closing ∧ s.isAdmittedDuringClose t = false then some (s.setPc t .leaving)
  else if (s.currentConnection t).isSome then some (s.setPc t (afterConnect th))
  else if s.writeFree t = false then none
  else if ok then some ((s.createConnection t).setPc t (afterConnect th))
  else some ((s.discardConnection t).setPc t .leaving)

/-- Release `_write_lock` once. -/
def releaseWrite (s : State) : State :=
  { s with
    writeDepth := s.writeDepth - 1
    writeOwner := if s.writeDepth ≤ 1 then none else s.writeOwner }

/-- One section; `none` if the thread is elsewhere or has to wait. -/
def step (s : State) : Act → Option State
  | .begin t write =>
    let th := s.threads t
    if th.pc = .idle ∧ th.worker ≠ some (.started !write) ∧
        ¬ (th.worker = some .running ∧ th.frames = []) then
      some (s.setThread t
        { th with
          pc := .admitting write (s.isAdmittedDuringClose t)
          worker := th.worker.map fun _ => .running })
    else none
  | .enter t =>
    match (s.threads t).pc with
    | .admitting write prev =>
      if s.closing ∧ prev = false then
        some { s.setPc t .idle with refused := s.refused + 1 }
      else
        some (({ s with activeSyncCount := s.activeSyncCount + 1 }.setFlag t true).setThread t
          { s.threads t with pc := .connecting, frames := ⟨prev, write⟩ :: (s.threads t).frames })
    | _ => none
  | .connect t ok => if (s.threads t).pc = .connecting then getConnection s t ok else none
  | .lockWrite t =>
    if (s.threads t).pc = .locking ∧ s.writeFree t then
      some { s.setPc t .idle with writeOwner := some t, writeDepth := s.writeDepth + 1 }
    else none
  | .breakConnection t =>
    match (s.threads t).pc, (s.threads t).frames with
    | .idle, _ :: _ => some { s with usable := s.usable \ (s.currentConnection t).toFinset }
    | _, _ => none
  | .endCallback t =>
    match (s.threads t).pc, (s.threads t).frames with
    | .idle, f :: _ => some ((if f.write then releaseWrite s else s).setPc t .leaving)
    | _, _ => none
  | .leave t =>
    match (s.threads t).pc, (s.threads t).frames with
    | .leaving, f :: rest =>
      some (({ s with activeSyncCount := s.activeSyncCount - 1 }.setFlag t
        f.previouslyAdmitted).setThread t { s.threads t with pc := .idle, frames := rest })
    | _, _ => none
  | .submit t write =>
    if (s.threads t).pc = .idle then
      if s.acceptingSubmissions then some { s with pending := s.pending ++ [write] }
      else some { s with refused := s.refused + 1 }
    else none
  | .cancel i =>
    if s.pending[i]? = some false then some { s with pending := s.pending.eraseIdx i } else none
  | .startTask t =>
    match s.pending with
    | write :: rest =>
      if s.threads t = {} then
        some (({ s with pending := rest, running := s.running + 1 }.setFlag t true).setThread t
          { worker := some (.started write) })
      else none
    | [] => none
  | .endTask t =>
    if s.threads t = { worker := some .running } then
      some (({ s with running := s.running - 1 }.setFlag t false).setThread t {})
    else none
  | .close t =>
    if (s.threads t).pc = .idle then
      if s.isAdmittedDuringClose t then some s
      else some ({ s with acceptingSubmissions := false, closing := true }.setPc t .shutdown)
    else none
  | .shutdown t =>
    if (s.threads t).pc = .shutdown ∧ s.pending = [] ∧ s.running = 0 then
      some (s.setPc t .sweep)
    else none
  | .sweep t =>
    if (s.threads t).pc = .sweep ∧ s.activeSyncCount = 0 then
      some ({ s with connections := ∅, usable := s.usable \ s.connections }.setPc t .swap)
    else none
  | .swap t =>
    if (s.threads t).pc = .swap then
      some ({ s.setConnection t none with
              threadLocal := s.threadLocal + 1
              returned := s.returned + 1 }.setPc t .idle)
    else none

end MMRelay.Database
