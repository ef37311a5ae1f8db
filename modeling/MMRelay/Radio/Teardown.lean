import MMRelay.Lib.Dict
import MMRelay.Lib.PyValue
import MMRelay.Lib.Run

/-!
# Workers that outlive their callers

`_run_blocking_with_timeout` (`meshtastic/async_utils.py`) for any number of calls at a time, with
the table of teardown timeouts (`meshtastic/ble.py`). The caller and the worker of a call take one
step at a time, in any order; a wait may time out whenever the caller is blocked in it.

* `Lifecycle`, `recordBleTeardownTimeout`, `resolveBleTeardownTimeout`: the shared tables;
* `Call`, `resolveStep`, `callerStep`, `workerStep`: the two threads of a call;
* `State`, `Act`, `step`: all calls, with new generations and the clean-up of a shutdown.
-/

namespace MMRelay.Radio.Teardown

/-! ## The tables -/

/-- `sanitize_address` of the BLE library, `none` if there is no usable answer, and `str.lower`. -/
structure Addresses where
  library : String → Option String
  lower : String → String

/-- `_sanitize_ble_address`. -/
def Addresses.sanitizeBleAddress (w : Addresses) (address : String) : String :=
  if address = "" then address
  else
    match (w.library address).filter fun s => s ≠ "" with
    | some s => s
    | none => w.lower (String.ofList (address.toList.filter fun c => !(['-', '_', ':'].contains c)))

structure Lifecycle where
  /-- `_ble_generation_by_address`. -/
  generations : List (String × ℤ) := []
  /-- `_ble_teardown_unresolved_by_generation`. -/
  unresolved : List ((String × ℤ) × ℤ) := []
  deriving DecidableEq

section Tables

variable (w : Addresses) (address : String) (generation : ℤ) (t : Lifecycle)

/-- `_record_ble_teardown_timeout`. -/
def recordBleTeardownTimeout : ℤ × Lifecycle :=
  let addressKey := w.sanitizeBleAddress address
  if addressKey = "" ∨ generation ≤ 0 then (0, t)
  else
    let key := (addressKey, generation)
    let count := (dictGet? t.unresolved key).getD 0 + 1
    (count, { t with unresolved := dictSet t.unresolved key count })

/-- `_resolve_ble_teardown_timeout`. -/
def resolveBleTeardownTimeout : (ℤ × Bool) × Lifecycle :=
  let addressKey := w.sanitizeBleAddress address
  if addressKey = "" ∨ generation ≤ 0 then ((0, false), t)
  else
    let key := (addressKey, generation)
    let previous := (dictGet? t.unresolved key).getD 0
    let unresolved :=
      if previous ≤ 1 then dictPop t.unresolved key else dictSet t.unresolved key (previous - 1)
    let currentGeneration := (dictGet? t.generations addressKey).getD 0
    let remainingForAddress :=
      ((unresolved.filter fun entry => entry.1.1 = addressKey).map Prod.snd).sum
    ((remainingForAddress, decide (currentGeneration ≠ generation)),
      { t with unresolved := unresolved })

/-- `_advance_ble_generation`. -/
def advanceBleGeneration : ℤ × Lifecycle :=
  let addressKey := w.sanitizeBleAddress address
  if addressKey = "" then (0, t)
  else
    let generation := (dictGet? t.generations addressKey).getD 0 + 1
    (generation, { t with generations := dictSet t.generations addressKey generation })

end Tables

/-! ## A call -/

inductive Side
  | caller
  | worker
  deriving DecidableEq

/-- Inside `_resolve_recorded_teardown_timeout_once`. -/
inductive Resolving
  /-- Before the tests of the event and the address. -/
  | entry
  | acquire
  /-- Before the test whether it is resolved. -/
  | check
  /-- Before `_resolve_ble_teardown_timeout`. -/
  | call
  | mark
  | release
  deriving DecidableEq

inductive CallerPc
  /-- Before `done_event.wait` reads the flag. -/
  | wait
  | blocked
  /-- It timed out. -/
  | record
  /-- With the count of `_record_ble_teardown_timeout`. -/
  | flag (count : ℤ)
  /-- Before `timed_out_event.set()`. -/
  | signal
  /-- Before `done_event.is_set()`. -/
  | recheck
  | resolving (r : Resolving)
  | returned
  deriving DecidableEq

inductive WorkerPc
  | action
  /-- Before `done_event.set()`. -/
  | done
  /-- Before `timed_out_event.is_set()`. -/
  | check
  | resolving (r : Resolving)
  | finished
  deriving DecidableEq

/-- A call with the variables that its threads share. -/
structure Call where
  bleAddress : Option String
  bleGeneration : Option ℤ
  caller : CallerPc := .wait
  worker : WorkerPc := .action
  doneEvent : Bool := false
  timedOutEvent : Bool := false
  recordedEvent : Bool := false
  resolvedEvent : Bool := false
  /-- The owner of `teardown_timeout_resolution_lock`. -/
  lock : Option Side := none
  /-- `resolved_remaining_unresolved` and `resolved_stale_generation`. -/
  resolution : Option (ℤ × Bool) := none
  counted : Bool := false
  /-- How often it has been resolved there. -/
  resolutions : ℕ := 0
  deriving DecidableEq

/-- The address and the generation, if the call has both. -/
def Call.owner (c : Call) : Option (String × ℤ) :=
  match c.bleAddress, c.bleGeneration with
  | some address, some generation =>
    if address ≠ "" ∧ 0 < generation then some (address, generation) else none
  | _, _ => none

/-- The key of its entry in the table. -/
def Call.key (w : Addresses) (c : Call) : Option (String × ℤ) :=
  (c.owner.map fun o => (w.sanitizeBleAddress o.1, o.2)).filter fun k => k.1 ≠ ""

section Threads

variable (w : Addresses) (t : Lifecycle) (c : Call)

/-- A step of `_resolve_recorded_teardown_timeout_once`; no further place at its end. -/
def resolveStep (side : Side) : Resolving → Option (Lifecycle × Call × Option Resolving)
  | .entry => some (t, c, if c.recordedEvent && c.owner.isSome then some .acquire else none)
  | .acquire =>
    if c.lock = none then some (t, { c with lock := some side }, some .check) else none
  | .check => some (t, c, some (if c.resolvedEvent then .release else .call))
  | .call =>
    c.owner.map fun o =>
      let r := resolveBleTeardownTimeout w o.1 o.2 t
      (r.2, { c with resolution := some r.1, resolutions := c.resolutions + 1 }, some .mark)
  | .mark => some (t, { c with resolvedEvent := true }, some .release)
  | .release => some (t, { c with lock := none }, none)

/-- The caller. A blocked wait ends with the event, or with a timeout. -/
def callerStep (expires : Bool) : CallerPc → Option (Lifecycle × Call)
  | .wait => some (t, { c with caller := if c.doneEvent then .returned else .blocked })
  | .blocked =>
    if expires then some (t, { c with caller := .record })
    else if c.doneEvent then some (t, { c with caller := .returned })
    else none
  | .record =>
    match c.owner with
    | none => some (t, { c with caller := .signal })
    | some o =>
      let r := recordBleTeardownTimeout w o.1 o.2 t
      some (r.2, { c with caller := .flag r.1, counted := (c.key w).isSome })
  | .flag count =>
    some (t, { c with caller := .signal, recordedEvent := c.recordedEvent || decide (0 < count) })
  | .signal => some (t, { c with caller := .recheck, timedOutEvent := true })
  | .recheck =>
    some (t, { c with caller := if c.doneEvent then .resolving .entry else .returned })
  | .resolving r =>
    (resolveStep w t c .caller r).map fun out =>
      (out.1, { out.2.1 with caller := (out.2.2.map .resolving).getD .returned })
  | .returned => none

/-- The worker; `action` may take any time, and end with an exception. -/
def workerStep : WorkerPc → Option (Lifecycle × Call)
  | .action => some (t, { c with worker := .done })
  | .done => some (t, { c with worker := .check, doneEvent := true })
  | .check =>
    some (t, { c with worker := if c.timedOutEvent then .resolving .entry else .finished })
  | .resolving r =>
    (resolveStep w t c .worker r).map fun out =>
      (out.1, { out.2.1 with worker := (out.2.2.map .resolving).getD .finished })
  | .finished => none

end Threads

/-! ## All calls -/

structure State where
  table : Lifecycle := {}
  calls : List Call := []
  deriving DecidableEq

inductive Act
  | call (bleAddress : Option String) (bleGeneration : Option ℤ)
  | caller (i : ℕ) (expires : Bool)
  | worker (i : ℕ)
  /-- A connect attempt. -/
  | advance (address : String)
  /-- `_shutdown_shared_executors`. -/
  | clear

/-- Replace a call and the table. -/
def State.update (s : State) (i : ℕ) (out : Lifecycle × Call) : State :=
  { table := out.1, calls := s.calls.set i out.2 }

def step (w : Addresses) (s : State) : Act → Option State
  | .call address generation =>
    some { s with calls := s.calls ++ [{ bleAddress := address, bleGeneration := generation }] }
  | .caller i expires =>
    (s.calls[i]?).bind fun c => (callerStep w s.table c expires c.caller).map (s.update i)
  | .worker i => (s.calls[i]?).bind fun c => (workerStep w s.table c c.worker).map (s.update i)
  | .advance address => some { s with table := (advanceBleGeneration w address s.table).2 }
  | .clear => some { s with table := {} }

end MMRelay.Radio.Teardown
