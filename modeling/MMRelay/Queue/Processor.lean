import Mathlib.Data.List.Infix
import MMRelay.Queue.Lifecycle

/-!
# The processor of the message queue

`MessageQueue.enqueue`, `_requeue_message`, `_should_send_message` and the loop `_process_queue`
(`message_queue.py`) between a successful `start()` and the next `stop()`: `_running` is `True`
throughout, and any number of threads call `enqueue` while the processor runs, perhaps beside
coroutines of earlier starts. The program counter of a coroutine is the check it performs next; what
stands between two of them contains no `await` that another step could fall into, and a retry sleep
ends at the top of the loop.

* `Message`, `Task`, `State`, `Pc`, `Act`;
* `enqueuePass`: one lock-held pass of the loop of `enqueue`;
* `shouldSendMessage`, `isConnectionError`, `requeueMessage`;
* `coroutine`, the next step of a coroutine, `procStep` and `step`.

The fields after `lastSendMono` do not exist in the source. They record what happened to each
accepted message.
-/

namespace MMRelay.Processor

open MMRelay.Queue (Admission)

/-- `MAX_QUEUE_SIZE`. -/
def maxQueueSize : ℕ := 500

/-- `QueuedMessage`: its place in the order of acceptance, and whether it has `mapping_info`. -/
structure Message where
  stamp : ℕ
  mappingInfo : Bool
  deriving DecidableEq

/-- Where a coroutine of `_process_queue` is. -/
inductive Pc
  /-- The top of the loop, or a sleep that ends there. -/
  | top
  | firstCheck
  | rateLimit
  /-- The check after the rate-limit sleep. -/
  | recheck
  | finalCheck
  | sending
  /-- `_handle_message_mapping` runs. -/
  | mapping
  /-- It has returned or raised. -/
  | ended
  deriving DecidableEq

/-- A coroutine with its `current_message`. -/
structure Task where
  pc : Pc
  current : Option Message
  deriving DecidableEq

/-- The queue and its coroutines. Times are ticks of `time.monotonic()`. -/
structure State where
  queue : List Message
  dropped : ℕ
  tasks : List Task
  /-- `_processor_task`, by its place among the tasks. -/
  processorTask : Option ℕ
  hasCurrent : Bool
  inFlight : Bool
  messageDelay : ℕ
  lastSendMono : ℕ
  accepted : List Message
  finished : List Message
  lost : List Message
  /-- Held by a coroutine when an exception ended it. -/
  vanished : List Message
  rejections : ℕ
  deriving DecidableEq

/-- The messages `0, …, k - 1` that an earlier run left in the deque. -/
def leftover (mappingInfo : ℕ → Bool) (k : ℕ) : List Message :=
  (List.range k).map fun i => ⟨i, mappingInfo i⟩

/-- What a successful `start()` finds and does. -/
structure Start where
  old : List Task
  /-- `_processor_task` where no task is created. -/
  processorTask : Option ℕ
  /-- An event loop runs, so that the task is created at once. -/
  loopRunning : Bool
  queued : Fin (maxQueueSize + 1)
  mappingInfo : ℕ → Bool
  dropped : ℕ
  messageDelay : ℕ
  lastSendMono : ℕ

/-- The queue after a successful `start()`; what is still queued counts as accepted. -/
def started (i : Start) : State where
  queue := leftover i.mappingInfo i.queued
  dropped := i.dropped
  tasks := if i.loopRunning then i.old ++ [⟨.top, none⟩] else i.old
  processorTask := if i.loopRunning then some i.old.length else i.processorTask
  hasCurrent := false
  inFlight := false
  messageDelay := i.messageDelay
  lastSendMono := i.lastSendMono
  accepted := leftover i.mappingInfo i.queued
  finished := []
  lost := []
  vanished := []
  rejections := 0

/-! ## Producers -/

/-- `self._queue.append(message)`. -/
def accept (s : State) (mappingInfo : Bool) : State :=
  { s with queue := s.queue ++ [⟨s.accepted.length, mappingInfo⟩]
           accepted := s.accepted ++ [⟨s.accepted.length, mappingInfo⟩] }

/-- The message is refused because the queue is full. -/
def reject (s : State) : State :=
  { s with dropped := s.dropped + 1, rejections := s.rejections + 1 }

/-- One lock-held pass of the loop of `enqueue`: its answer, `none` when it sleeps and tries
again, and the state it leaves. `timedOut` is `timeout is not None and elapsed >= timeout`. -/
def enqueuePass (s : State) (admission : Admission) (mappingInfo wait timedOut : Bool) :
    Option Bool × State :=
  if admission ≠ .admitted then (some false, s)
  else if maxQueueSize ≤ s.queue.length then
    if wait then
      if timedOut then (some false, reject s) else (none, s)
    else (some false, reject s)
  else (some true, accept s mappingInfo)

/-! ## Connection state and errors -/

/-- What `_should_send_message` finds of the attribute `is_connected`. -/
inductive Connected
  | absent
  | value (b : Bool)
  | raises
  deriving DecidableEq

/-- What `_should_send_message` finds of `mmrelay.meshtastic_utils`. -/
inductive Link
  | importError
  | module (reconnecting : Bool) (client : Option Connected)
  deriving DecidableEq

/-- `_should_send_message`; `none` when it raises. The `stop()` that an import error starts is
the end of the run. -/
def shouldSendMessage : Link → Option Bool
  | .importError => some false
  | .module reconnecting client =>
    if reconnecting then some false
    else
      match client with
      | none => some false
      | some .absent => some true
      | some (.value b) => some b
      | some .raises => none

/-- `CONNECTION_ERROR_KEYWORDS`. -/
def connectionErrorKeywords : List String :=
  ["connection", "disconnected", "not connected", "timeout", "refused", "reset", "broken",
    "closed", "unreachable", "network"]

/-- An exception of the send: whether it is a `ConnectionError`, an `OSError` or a
`TimeoutError`, and `str(e).lower()`. -/
structure SendError where
  connectionType : Bool
  message : String
  deriving DecidableEq

def isConnectionError (e : SendError) : Bool :=
  e.connectionType ||
    connectionErrorKeywords.any fun keyword => decide (keyword.toList <:+: e.message.toList)

/-- How the send ends, unless the exception escapes the coroutine's handler. -/
inductive Outcome
  /-- A result other than `None`, with or without an `id`. -/
  | value (hasId : Bool)
  | none
  | error (e : SendError)
  deriving DecidableEq

/-! ## The processor -/

/-- `current_message = None` and the two flags. -/
def release (s : State) : State × Task :=
  ({ s with hasCurrent := false, inFlight := false }, ⟨.top, none⟩)

/-- `_requeue_message`: its answer and the state it leaves. -/
def requeueMessage (s : State) (m : Message) : Bool × State :=
  if maxQueueSize ≤ s.queue.length then
    (false, { s with dropped := s.dropped + 1, lost := s.lost ++ [m] })
  else (true, { s with queue := m :: s.queue })

/-- The three places that put the current message back and sleep. -/
def requeueCurrent (s : State) (m : Message) : State × Task := release (requeueMessage s m).2

/-- The end of the loop body: the current message is finished. -/
def finish (s : State) (m : Message) : State × Task :=
  release { s with finished := s.finished ++ [m] }

/-- An exception that `except Exception` does not catch. One that asyncio raises as its
`CancelledError` (also a `concurrent.futures.CancelledError` of the send) is taken for the end of
the task, and every other one leaves the coroutine. Only in the mapping the message has been sent. -/
def escape (s : State) (pc : Pc) (m : Message) (cancelled : Bool) : State × Task :=
  ({ s with
      finished := if pc = .mapping then s.finished ++ [m] else s.finished
      vanished := if pc = .mapping then s.vanished else s.vanished ++ [m]
      hasCurrent := s.hasCurrent && !cancelled
      inFlight := s.inFlight && !cancelled },
    ⟨.ended, none⟩)

/-- What a coroutine sees when it moves. -/
inductive Event
  | tick (now : ℕ)
  | link (l : Link)
  | sent (o : Outcome) (now : ℕ)
  /-- The connection check, the send or the mapping raises what is no `Exception` here. -/
  | escaped (cancelled : Bool)
  deriving DecidableEq

/-- The next step of a coroutine of `_process_queue`, with the fields of the queue that it leaves;
`none` when the event is not the one it waits for. -/
def coroutine (s : State) (task : Task) : Event → Option (State × Task)
  | .tick now =>
    match task.pc, task.current with
    | .top, none =>
      match s.queue with
      | [] => some (s, task)
      | m :: rest => some ({ s with queue := rest, hasCurrent := true }, ⟨.firstCheck, some m⟩)
    | .top, some m => some (s, ⟨.firstCheck, some m⟩)
    | .rateLimit, some m =>
      if 0 < s.lastSendMono ∧ now < s.lastSendMono + s.messageDelay then
        some (s, ⟨.recheck, some m⟩)
      else some (s, ⟨.finalCheck, some m⟩)
    | .mapping, some m => some (finish s m)
    | _, _ => none
  | .link l =>
    match task.pc, task.current, shouldSendMessage l with
    | .firstCheck, some m, some true => some (s, ⟨.rateLimit, some m⟩)
    | .firstCheck, some m, _ => some (s, ⟨.top, some m⟩)
    | .recheck, some m, some true => some (s, ⟨.finalCheck, some m⟩)
    | .recheck, some m, some false => some (requeueCurrent s m)
    -- the outer handler keeps the current message
    | .recheck, some m, none => some (s, ⟨.top, some m⟩)
    | .finalCheck, some m, some true => some ({ s with inFlight := true }, ⟨.sending, some m⟩)
    | .finalCheck, some m, some false => some (requeueCurrent s m)
    | .finalCheck, some m, none => some (s, ⟨.top, some m⟩)
    | _, _, _ => none
  | .sent o now =>
    match task.pc, task.current, o with
    | .sending, some m, .value hasId =>
      if m.mappingInfo && hasId then some ({ s with lastSendMono := now }, ⟨.mapping, some m⟩)
      else some (finish { s with lastSendMono := now } m)
    | .sending, some m, .none => some (finish { s with lastSendMono := now } m)
    | .sending, some m, .error e =>
      if isConnectionError e then some (requeueCurrent s m) else some (finish s m)
    | _, _, _ => none
  | .escaped cancelled =>
    match task.pc, task.current with
    | .firstCheck, some m | .recheck, some m | .finalCheck, some m | .sending, some m
    | .mapping, some m => some (escape s task.pc m cancelled)
    | _, _ => none

/-- The step of the coroutine at place `t`. -/
def procStep (s : State) (t : ℕ) (e : Event) : Option State :=
  match s.tasks[t]? with
  | none => none
  | some task => (coroutine s task e).map fun r => { r.1 with tasks := s.tasks.set t r.2 }

/-- `_processor_task` is `None` or done. -/
def taskInactive (s : State) : Bool :=
  match s.processorTask with
  | none => true
  | some t => (s.tasks[t]?.map Task.pc).all fun pc => pc = .ended

/-- `ensure_processor_started`, where an event loop runs. -/
def ensureProcessorStarted (s : State) : State :=
  if taskInactive s then
    { s with tasks := s.tasks ++ [⟨.top, none⟩], processorTask := some s.tasks.length }
  else s

/-- One atomic step of the queue between `start()` and `stop()`. -/
inductive Act
  | enqueue (admission : Admission) (mappingInfo wait timedOut : Bool)
  | ensureProcessorStarted
  | proc (t : ℕ) (e : Event)
  deriving DecidableEq

def step (s : State) : Act → Option State
  | .enqueue admission mappingInfo wait timedOut =>
    some (enqueuePass s admission mappingInfo wait timedOut).2
  | .ensureProcessorStarted => some (ensureProcessorStarted s)
  | .proc t e => procStep s t e

end MMRelay.Processor
