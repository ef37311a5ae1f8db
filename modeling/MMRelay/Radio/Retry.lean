import MMRelay.Lib.PyValue
import MMRelay.Lib.Run

/-!
# The retry loop of a connect

The counting of attempts in `_connect_meshtastic_impl` and
`_handle_typed_ble_exception_after_rollback` (`meshtastic/connection.py`). An attempt ends in any
way: with a client, a return, or an exception of any classes with any cause; `shutting_down` may
change between two readings.

* `Exceptions`, `ErrorClass`: what `isinstance` and `__cause__` say;
* `Loop.retry`, `Loop.retryTimeout`: the two ways of counting;
* `handleTypedBleException`, `handle`: the dispatcher and the handlers;
* **`attempt_cases`**: what one attempt can do;
* **`connect_terminates`**: the bounds on the attempts.
-/

namespace MMRelay.Radio.Retry

/-- `INFINITE_RETRIES`. -/
def infiniteRetries : ℤ := 0

/-- `MAX_TIMEOUT_RETRIES_INFINITE`. -/
def maxTimeoutRetriesInfinite : ℕ := 5

/-- `retry_limit`, of the `meshtastic` section. -/
def retryLimit (settings : Py) : Except PyErr ℤ :=
  let raw := settings.field "retries"
  let raw := if raw.isNone then (settings.key? "retry_limit").getD (.int infiniteRetries) else raw
  match raw.toInt with
  | .ok n => .ok n
  | .error .typeError => .ok infiniteRetries
  | .error .valueError => .ok infiniteRetries
  | .error e => .error e

/-! ## Exceptions -/

/-- The classes that the handlers name. -/
inductive ErrorClass
  | connectionRefused
  | memory
  | bleExecutorDegraded
  | futureWaitShutdown
  | bleDiscoveryTransient
  | futuresTimeout
  | timeout
  | exception
  | bleAddressMismatch
  | bleDiscovery
  | bleDeviceNotFound
  | bleConnectionTimeout
  | bleDBusTransport
  | bleConnectionSuppressed
  deriving DecidableEq

/-- The exceptions `E`: `isinstance`, which no exception is of a class that is not there, and
`__cause__`. -/
structure Exceptions (E : Type) where
  isInstance : E → ErrorClass → Bool
  cause : E → Option E

namespace Exceptions

variable {E : Type} (x : Exceptions E)

/-- The handler of timeouts catches it. -/
def isTimeout (e : E) : Bool := x.isInstance e .futuresTimeout || x.isInstance e .timeout

/-- A timeout, plain or typed. -/
def isTimeoutClass (e : E) : Bool := x.isTimeout e || x.isInstance e .bleConnectionTimeout

def isDiscovery (e : E) : Bool := x.isInstance e .bleDiscovery || x.isInstance e .bleDeviceNotFound

/-- Some handler catches it. -/
def isCaught (e : E) : Bool :=
  x.isInstance e .connectionRefused || x.isInstance e .memory ||
    x.isInstance e .bleExecutorDegraded || x.isInstance e .futureWaitShutdown ||
    x.isInstance e .bleDiscoveryTransient || x.isTimeout e || x.isInstance e .exception

/-- `_get_typed_ble_timeout_error`. -/
def getTypedBleTimeoutError (e : E) : Option E :=
  if x.isInstance e .bleConnectionTimeout then some e
  else (x.cause e).filter fun c => x.isInstance c .bleConnectionTimeout

/-- No timeout is a discovery failure: `BLEDiscoveryTransientError` is derived from `Exception`
alone, and the typed errors of the BLE library stand for different failures. -/
structure TimeoutsApart : Prop where
  transient : ∀ e, x.isTimeoutClass e = true → x.isInstance e .bleDiscoveryTransient = false
  discovery : ∀ e, x.isInstance e .bleConnectionTimeout = true → x.isDiscovery e = false

end Exceptions

/-! ## The loop -/

/-- How the loop is left. -/
inductive Exit
  | succeeded
  | returned
  | broke
  | raised
  deriving DecidableEq

structure Loop where
  attempts : ℕ := 0
  timeoutAttempts : ℕ := 0
  left : Option Exit := none
  deriving DecidableEq

/-- What a handler says; `propagate` if there is none. -/
inductive Action
  | unhandled
  | breakLoop
  | continueLoop
  | returnNone
  | propagate
  deriving DecidableEq

namespace Loop

variable (limit : ℤ) (l : Loop)

/-- Count an attempt; the loop goes on up to the limit. -/
def retry : Action × Loop :=
  let l := { l with attempts := l.attempts + 1 }
  if limit = infiniteRetries ∨ l.attempts ≤ limit then (.continueLoop, l) else (.returnNone, l)

/-- Count a timeout; without a limit the timeouts have their own. -/
def retryTimeout : Action × Loop :=
  let l := { l with attempts := l.attempts + 1 }
  if limit = infiniteRetries then
    let l := { l with timeoutAttempts := l.timeoutAttempts + 1 }
    if l.timeoutAttempts > maxTimeoutRetriesInfinite then (.returnNone, l) else (.continueLoop, l)
  else if l.attempts > limit then (.returnNone, l)
  else (.continueLoop, l)

/-- The loop after the handler. -/
def settle : Action → Loop
  | .unhandled | .continueLoop => l
  | .breakLoop => { l with left := some .broke }
  | .returnNone => { l with left := some .returned }
  | .propagate => { l with left := some .raised }

end Loop

/-- How the body of an attempt ends. -/
inductive Body (E : Type)
  | succeeds
  | returns
  | raises (e : E)

structure Attempt (E : Type) where
  body : Body E
  /-- `shutting_down`, as the dispatcher reads it. -/
  shuttingDownTyped : Bool := false
  /-- `shutting_down`, as the handler reads it. -/
  shuttingDown : Bool := false
  /-- The handler itself raises, such as at an interrupt of its `sleep`. -/
  interrupted : Bool := false

section Handlers

variable {E : Type} (x : Exceptions E) (limit : ℤ) (l : Loop) (a : Attempt E)

/-- `_handle_typed_ble_exception_after_rollback`. -/
def handleTypedBleException (e : E) : Action × Loop :=
  if x.isInstance e .bleAddressMismatch then (.returnNone, l)
  else if a.shuttingDownTyped then (.breakLoop, l)
  else if x.isDiscovery e then l.retry limit
  else if x.isInstance e .bleConnectionTimeout then l.retryTimeout limit
  else if x.isInstance e .bleDBusTransport then l.retry limit
  else if x.isInstance e .bleConnectionSuppressed then l.retry limit
  else (.unhandled, l)

/-- The dispatcher, for the typed timeout that a timeout is or comes from. -/
def handleTypedTimeout (e : E) : Action × Loop :=
  match x.getTypedBleTimeoutError e with
  | some typed => handleTypedBleException x limit l a typed
  | none => (.unhandled, l)

/-- The rest of a handler, after the dispatcher left the exception to it. -/
def afterTyped (r : Action × Loop) (rest : Loop → Action × Loop) : Action × Loop :=
  if r.1 = .unhandled then (if a.shuttingDown then (.breakLoop, r.2) else rest r.2) else r

/-- The `except` clauses. -/
def handle (e : E) : Action × Loop :=
  if x.isInstance e .connectionRefused then (.returnNone, l)
  else if x.isInstance e .memory || x.isInstance e .bleExecutorDegraded then (.returnNone, l)
  else if x.isInstance e .futureWaitShutdown then (.breakLoop, l)
  else if x.isInstance e .bleDiscoveryTransient then
    if a.shuttingDown then (.breakLoop, l) else l.retry limit
  else if x.isTimeout e then
    afterTyped a (handleTypedTimeout x limit l a e) (·.retryTimeout limit)
  else if x.isInstance e .exception then
    afterTyped a (handleTypedBleException x limit l a e) (·.retry limit)
  else (.propagate, l)

/-- One iteration of the loop. -/
def attempt : Loop :=
  match a.body with
  | .succeeds => { l with left := some .succeeded }
  | .returns => { l with left := some .returned }
  | .raises e =>
    if a.interrupted then { l with left := some .raised }
    else (handle x limit l a e).2.settle (handle x limit l a e).1

/-- An attempt that the condition of the loop allows; a shutdown may end the loop before it. -/
def step (l : Loop) (a : Attempt E) : Option Loop :=
  if l.left = none ∧ (limit = 0 ∨ l.attempts ≤ limit) then some (attempt x limit l a) else none

/-- The attempts that `_connect_meshtastic_impl` makes with these settings. -/
def connectLoop (settings : Py) (as : List (Attempt E)) : Option Loop :=
  match retryLimit settings with
  | .ok limit => runActs (step x limit) {} as
  | .error _ => none

/-- The attempt ends in a timeout. -/
def timeoutFailure : Bool :=
  match a.body with
  | .raises e => x.isTimeoutClass e
  | _ => false

/-- The attempt counts once, or it leaves the loop; only what no handler catches leaves it by an
exception. -/
structure Counted : Prop where
  once : (attempt x limit l a).left = none → (attempt x limit l a).attempts = l.attempts + 1
  raised : (attempt x limit l a).left = some .raised →
    a.interrupted = true ∨ ∃ e, a.body = .raises e ∧ x.isCaught e = false

end Handlers

/-! ## What an attempt can do -/

section Cases

variable {E : Type} {x : Exceptions E} {limit : ℤ} {l : Loop} {a : Attempt E} {e : E}

theorem Loop.retry_cases (l : Loop) (limit : ℤ) :
    (l.retry limit).1 = .returnNone ∨ (l.retry limit).1 = .continueLoop ∧
      (limit = infiniteRetries ∨ (l.attempts : ℤ) + 1 ≤ limit) ∧
      (l.retry limit).2 = { l with attempts := l.attempts + 1 } := by
  unfold Loop.retry
  by_cases h : limit = infiniteRetries ∨ ((l.attempts + 1 : ℕ) : ℤ) ≤ limit
  · rw [if_pos h]
    refine .inr ⟨rfl, h.imp_right fun hle => ?_, rfl⟩
    push_cast at hle
    exact hle
  · rw [if_neg h]
    exact .inl rfl

theorem Loop.retryTimeout_cases (l : Loop) (limit : ℤ) :
    (l.retryTimeout limit).1 = .returnNone ∨ (l.retryTimeout limit).1 = .continueLoop ∧
      ((limit = infiniteRetries ∧ l.timeoutAttempts + 1 ≤ maxTimeoutRetriesInfinite ∧
        (l.retryTimeout limit).2 = { l with
          attempts := l.attempts + 1, timeoutAttempts := l.timeoutAttempts + 1 }) ∨
      (limit ≠ infiniteRetries ∧ (l.attempts : ℤ) + 1 ≤ limit ∧
        (l.retryTimeout limit).2 = { l with attempts := l.attempts + 1 })) := by
  unfold Loop.retryTimeout
  by_cases h : limit = infiniteRetries
  · simp only [if_pos h]
    by_cases hmax : l.timeoutAttempts + 1 > maxTimeoutRetriesInfinite
    · rw [if_pos hmax]
      exact .inl rfl
    · rw [if_neg hmax]
      exact .inr ⟨rfl, .inl ⟨h, by omega, rfl⟩⟩
  · simp only [if_neg h]
    by_cases hle : ((l.attempts + 1 : ℕ) : ℤ) > limit
    · rw [if_pos hle]
      exact .inl rfl
    · rw [if_neg hle]
      exact .inr ⟨rfl, .inr ⟨h, by push_cast at hle; omega, rfl⟩⟩

/-- The handler leaves the loop. -/
def Leaves (r : Action × Loop) : Prop := r.1 = .breakLoop ∨ r.1 = .returnNone

/-- What the dispatcher does: a timeout is counted as one, unless it is a discovery failure. -/
theorem handleTypedBleException_cases (x : Exceptions E) (limit : ℤ) (l : Loop) (a : Attempt E)
    (e : E) :
    Leaves (handleTypedBleException x limit l a e) ∨
      handleTypedBleException x limit l a e = l.retry limit ∧
        (x.isInstance e .bleConnectionTimeout = true → x.isDiscovery e = true) ∨
      handleTypedBleException x limit l a e = l.retryTimeout limit ∧
        x.isInstance e .bleConnectionTimeout = true ∨
      handleTypedBleException x limit l a e = (.unhandled, l) ∧
        x.isInstance e .bleConnectionTimeout = false := by
  unfold handleTypedBleException
  by_cases hmismatch : x.isInstance e .bleAddressMismatch = true
  · rw [if_pos hmismatch]
    exact .inl (.inr rfl)
  rw [if_neg hmismatch]
  by_cases hshut : a.shuttingDownTyped = true
  · rw [if_pos hshut]
    exact .inl (.inl rfl)
  rw [if_neg hshut]
  by_cases hdiscovery : x.isDiscovery e = true
  · rw [if_pos hdiscovery]
    exact .inr (.inl ⟨rfl, fun _ => hdiscovery⟩)
  rw [if_neg hdiscovery]
  by_cases htimeout : x.isInstance e .bleConnectionTimeout = true
  · rw [if_pos htimeout]
    exact .inr (.inr (.inl ⟨rfl, htimeout⟩))
  rw [if_neg htimeout]
  by_cases hdbus : x.isInstance e .bleDBusTransport = true
  · rw [if_pos hdbus]
    exact .inr (.inl ⟨rfl, fun h => absurd h htimeout⟩)
  rw [if_neg hdbus]
  by_cases hsuppressed : x.isInstance e .bleConnectionSuppressed = true
  · rw [if_pos hsuppressed]
    exact .inr (.inl ⟨rfl, fun h => absurd h htimeout⟩)
  rw [if_neg hsuppressed]
  exact .inr (.inr (.inr ⟨rfl, by simpa using htimeout⟩))

theorem afterTyped_cases (a : Attempt E) (r : Action × Loop) (rest : Loop → Action × Loop) :
    Leaves (afterTyped a r rest) ∨ r.1 ≠ .unhandled ∧ afterTyped a r rest = r ∨
      r.1 = .unhandled ∧ afterTyped a r rest = rest r.2 := by
  unfold afterTyped
  by_cases hun : r.1 = .unhandled
  · rw [if_pos hun]
    by_cases hshut : a.shuttingDown = true
    · rw [if_pos hshut]
      exact .inl (.inl rfl)
    · rw [if_neg hshut]
      exact .inr (.inr ⟨hun, rfl⟩)
  · rw [if_neg hun]
    exact .inr (.inl ⟨hun, rfl⟩)

theorem isInstance_of_getTypedBleTimeoutError {t : E} (h : x.getTypedBleTimeoutError e = some t) :
    x.isInstance t .bleConnectionTimeout = true := by
  unfold Exceptions.getTypedBleTimeoutError at h
  by_cases he : x.isInstance e .bleConnectionTimeout = true
  · rw [if_pos he] at h
    rw [← Option.some.inj h]
    exact he
  · rw [if_neg he] at h
    obtain ⟨-, ht⟩ := Option.filter_eq_some_iff.mp h
    exact ht

/-- What a handler does with an exception: it leaves the loop or counts once, a timeout as one. -/
def Handled (x : Exceptions E) (limit : ℤ) (l : Loop) (e : E) (r : Action × Loop) : Prop :=
  Leaves r ∨ r = l.retry limit ∧ (x.TimeoutsApart → x.isTimeoutClass e = false) ∨
    r = l.retryTimeout limit ∧ x.isTimeoutClass e = true ∨
    r.1 = .propagate ∧ x.isCaught e = false

theorem handled_afterTyped {r : Action × Loop} {rest : Loop → Action × Loop}
    (hr : r = (.unhandled, l) ∧ Handled x limit l e (rest l) ∨
      r.1 ≠ .unhandled ∧ Handled x limit l e r) :
    Handled x limit l e (afterTyped a r rest) := by
  rcases hr with ⟨rfl, hrest⟩ | ⟨hne, hr⟩
  · rcases afterTyped_cases a (.unhandled, l) rest with h | ⟨h, -⟩ | ⟨-, h⟩
    · exact .inl h
    · exact absurd rfl h
    · rw [h]
      exact hrest
  · rcases afterTyped_cases a r rest with h | ⟨-, h⟩ | ⟨h, -⟩
    · exact .inl h
    · rw [h]
      exact hr
    · exact absurd h hne

theorem Loop.retry_ne (l : Loop) (limit : ℤ) : (l.retry limit).1 ≠ .unhandled := by
  rcases l.retry_cases limit with h | ⟨h, -⟩ <;> rw [h] <;> decide

theorem Loop.retryTimeout_ne (l : Loop) (limit : ℤ) : (l.retryTimeout limit).1 ≠ .unhandled := by
  rcases l.retryTimeout_cases limit with h | ⟨h, -⟩ <;> rw [h] <;> decide

theorem Leaves.ne {r : Action × Loop} (h : Leaves r) : r.1 ≠ .unhandled := by
  rcases h with h | h <;> rw [h] <;> decide

theorem handled_typed (ht : x.isTimeout e = false) :
    handleTypedBleException x limit l a e = (.unhandled, l) ∧ x.isTimeoutClass e = false ∨
      (handleTypedBleException x limit l a e).1 ≠ .unhandled ∧
        Handled x limit l e (handleTypedBleException x limit l a e) := by
  have hclass : x.isTimeoutClass e = x.isInstance e .bleConnectionTimeout := by
    rw [Exceptions.isTimeoutClass, ht, Bool.false_or]
  rcases handleTypedBleException_cases x limit l a e with h | ⟨h, hdisc⟩ | ⟨h, htyped⟩ | ⟨h, hno⟩
  · exact .inr ⟨h.ne, .inl h⟩
  · rw [h]
    refine .inr ⟨l.retry_ne limit, .inr (.inl ⟨rfl, fun hapart => ?_⟩)⟩
    rw [hclass, Bool.eq_false_iff]
    intro htyped
    have hno := hapart.discovery e htyped
    rw [hdisc htyped] at hno
    cases hno
  · rw [h]
    exact .inr ⟨l.retryTimeout_ne limit, .inr (.inr (.inl ⟨rfl, hclass.trans htyped⟩))⟩
  · exact .inl ⟨h, hclass.trans hno⟩

/-- The dispatcher on the typed timeout behind a timeout. -/
theorem handled_typedTimeout (ht : x.isTimeout e = true) :
    handleTypedTimeout x limit l a e = (.unhandled, l) ∨
      (handleTypedTimeout x limit l a e).1 ≠ .unhandled ∧
        Handled x limit l e (handleTypedTimeout x limit l a e) := by
  have hclass : x.isTimeoutClass e = true := by
    rw [Exceptions.isTimeoutClass, ht, Bool.true_or]
  unfold handleTypedTimeout
  cases hfound : x.getTypedBleTimeoutError e with
  | none => exact .inl rfl
  | some t =>
    have htyped := isInstance_of_getTypedBleTimeoutError hfound
    show handleTypedBleException x limit l a t = (.unhandled, l) ∨
      (handleTypedBleException x limit l a t).1 ≠ .unhandled ∧
        Handled x limit l e (handleTypedBleException x limit l a t)
    rcases handleTypedBleException_cases x limit l a t with h | ⟨h, hdisc⟩ | ⟨h, -⟩ | ⟨-, hno⟩
    · exact .inr ⟨h.ne, .inl h⟩
    · rw [h]
      refine .inr ⟨l.retry_ne limit, .inr (.inl ⟨rfl, fun hapart => ?_⟩)⟩
      have hno := hapart.discovery t htyped
      rw [hdisc htyped] at hno
      cases hno
    · rw [h]
      exact .inr ⟨l.retryTimeout_ne limit, .inr (.inr (.inl ⟨rfl, hclass⟩))⟩
    · rw [htyped] at hno
      cases hno

/-- **The handlers**, for any exception. -/
theorem handled (x : Exceptions E) (limit : ℤ) (l : Loop) (a : Attempt E) (e : E) :
    Handled x limit l e (handle x limit l a e) := by
  unfold handle
  by_cases hrefused : x.isInstance e .connectionRefused = true
  · rw [if_pos hrefused]
    exact .inl (.inr rfl)
  rw [if_neg hrefused]
  by_cases hcritical : (x.isInstance e .memory || x.isInstance e .bleExecutorDegraded) = true
  · rw [if_pos hcritical]
    exact .inl (.inr rfl)
  rw [if_neg hcritical]
  by_cases hshutdown : x.isInstance e .futureWaitShutdown = true
  · rw [if_pos hshutdown]
    exact .inl (.inl rfl)
  rw [if_neg hshutdown]
  by_cases htransient : x.isInstance e .bleDiscoveryTransient = true
  · rw [if_pos htransient]
    by_cases hshut : a.shuttingDown = true
    · rw [if_pos hshut]
      exact .inl (.inl rfl)
    · rw [if_neg hshut]
      refine .inr (.inl ⟨rfl, fun hapart => ?_⟩)
      rw [Bool.eq_false_iff]
      intro hclass
      have hno := hapart.transient e hclass
      rw [htransient] at hno
      cases hno
  rw [if_neg htransient]
  by_cases htimeout : x.isTimeout e = true
  · rw [if_pos htimeout]
    refine handled_afterTyped ((handled_typedTimeout htimeout).imp_left fun h => ⟨h, ?_⟩)
    refine .inr (.inr (.inl ⟨rfl, ?_⟩))
    rw [Exceptions.isTimeoutClass, htimeout, Bool.true_or]
  rw [if_neg htimeout]
  rw [Bool.not_eq_true] at htimeout
  by_cases hexception : x.isInstance e .exception = true
  · rw [if_pos hexception]
    refine handled_afterTyped ((handled_typed htimeout).imp_left fun h => ⟨h.1, ?_⟩)
    exact .inr (.inl ⟨rfl, fun _ => h.2⟩)
  · rw [if_neg hexception]
    refine .inr (.inr (.inr ⟨rfl, ?_⟩))
    simp only [Bool.not_eq_true, Bool.or_eq_false_iff] at *
    simp [Exceptions.isCaught, *]

/-- **One attempt** leaves the loop, counts as an attempt, or counts as a timeout too. -/
theorem attempt_cases (x : Exceptions E) (limit : ℤ) (l : Loop) (a : Attempt E) :
    (∃ exit, (attempt x limit l a).left = some exit ∧ (exit = .raised →
      a.interrupted = true ∨ ∃ e, a.body = .raises e ∧ x.isCaught e = false)) ∨
    (limit = infiniteRetries ∨ (l.attempts : ℤ) + 1 ≤ limit) ∧
      ((attempt x limit l a = { l with attempts := l.attempts + 1 } ∧
        (limit = infiniteRetries → x.TimeoutsApart → timeoutFailure x a = false)) ∨
      (limit = infiniteRetries ∧ l.timeoutAttempts + 1 ≤ maxTimeoutRetriesInfinite ∧
        timeoutFailure x a = true ∧ attempt x limit l a = { l with
          attempts := l.attempts + 1, timeoutAttempts := l.timeoutAttempts + 1 })) := by
  unfold attempt timeoutFailure
  cases hbody : a.body with
  | succeeds => exact .inl ⟨.succeeded, rfl, fun h => by cases h⟩
  | returns => exact .inl ⟨.returned, rfl, fun h => by cases h⟩
  | raises e =>
    simp only
    by_cases hinterrupted : a.interrupted = true
    · rw [if_pos hinterrupted]
      exact .inl ⟨.raised, rfl, fun _ => .inl hinterrupted⟩
    rw [if_neg hinterrupted]
    rcases handled x limit l a e with h | ⟨h, hclass⟩ | ⟨h, hclass⟩ | ⟨h, huncaught⟩
    · rcases h with h | h
      · rw [h]
        exact .inl ⟨.broke, rfl, fun h => by cases h⟩
      · rw [h]
        exact .inl ⟨.returned, rfl, fun h => by cases h⟩
    · rw [h]
      rcases l.retry_cases limit with hr | ⟨hr, hle, heq⟩
      · rw [hr]
        exact .inl ⟨.returned, rfl, fun h => by cases h⟩
      · rw [hr, heq]
        exact .inr ⟨hle, .inl ⟨rfl, fun _ => hclass⟩⟩
    · rw [h]
      rcases l.retryTimeout_cases limit with
        hr | ⟨hr, ⟨hinf, hmax, heq⟩ | ⟨hfin, hle, heq⟩⟩
      · rw [hr]
        exact .inl ⟨.returned, rfl, fun h => by cases h⟩
      · rw [hr, heq]
        exact .inr ⟨.inl hinf, .inr ⟨hinf, hmax, hclass, rfl⟩⟩
      · rw [hr, heq]
        exact .inr ⟨.inr hle, .inl ⟨rfl, fun hinf => absurd hinf hfin⟩⟩
    · rw [h]
      exact .inl ⟨.raised, rfl, fun _ => .inr ⟨e, rfl, huncaught⟩⟩

theorem counted (hl : l.left = none) : Counted x limit l a := by
  rcases attempt_cases x limit l a with ⟨exit, hexit, hraised⟩ | ⟨-, ⟨h, -⟩ | ⟨-, -, -, h⟩⟩
  · refine ⟨fun hnone => ?_, fun hleft => hraised ?_⟩
    · rw [hexit] at hnone
      cases hnone
    · rw [hexit] at hleft
      exact Option.some.inj hleft
  all_goals
    refine ⟨fun _ => by rw [h], fun hleft => ?_⟩
    rw [h] at hleft
    rw [show l.left = some .raised from hleft] at hl
    cases hl

/-! ## Runs -/

theorem step_eq_some {l' : Loop} (h : step x limit l a = some l') :
    l.left = none ∧ (limit = 0 ∨ (l.attempts : ℤ) ≤ limit) ∧ attempt x limit l a = l' := by
  unfold step at h
  split_ifs at h with hgo
  exact ⟨hgo.1, hgo.2, Option.some.inj h⟩

theorem eq_nil_of_left {as : List (Attempt E)} {l' : Loop} (hl : l.left ≠ none)
    (hrun : runActs (step x limit) l as = some l') : as = [] := by
  cases as with
  | nil => rfl
  | cons a as =>
    rw [runActs_cons, Option.bind_eq_some_iff] at hrun
    obtain ⟨l₁, hstep, -⟩ := hrun
    exact absurd (step_eq_some hstep).1 hl

theorem length_le {as : List (Attempt E)} {l' : Loop} (hlimit : 1 ≤ limit)
    (hl : (l.attempts : ℤ) ≤ limit) (hrun : runActs (step x limit) l as = some l') :
    (as.length : ℤ) + l.attempts ≤ limit + 1 := by
  induction as generalizing l with
  | nil =>
    rw [List.length_nil]
    push_cast
    omega
  | cons a as ih =>
    rw [runActs_cons, Option.bind_eq_some_iff] at hrun
    obtain ⟨l₁, hstep, hrun⟩ := hrun
    obtain ⟨-, -, rfl⟩ := step_eq_some hstep
    rw [List.length_cons]
    push_cast
    rcases attempt_cases x limit l a with ⟨exit, hexit, -⟩ | ⟨hle, ⟨h, -⟩ | ⟨hinf, -⟩⟩
    · have hnil : as = [] := eq_nil_of_left (by rw [hexit]; exact Option.some_ne_none _) hrun
      rw [hnil, List.length_nil]
      push_cast
      omega
    · have hle' : (l.attempts : ℤ) + 1 ≤ limit := by
        refine hle.resolve_left fun hinf => ?_
        rw [hinf] at hlimit
        exact absurd hlimit (by decide)
      have hrest := ih (by rw [h]; push_cast; exact hle') hrun
      rw [h] at hrest
      push_cast at hrest
      omega
    · rw [hinf] at hlimit
      exact absurd hlimit (by decide)

/-- Without a limit the timeouts are counted apart, up to their own limit. -/
theorem timeouts_le {as : List (Attempt E)} {l' : Loop} (hapart : x.TimeoutsApart)
    (hl : l.timeoutAttempts ≤ maxTimeoutRetriesInfinite)
    (hrun : runActs (step x infiniteRetries) l as = some l') (hgo : l'.left = none) :
    as.countP (timeoutFailure x) + l.timeoutAttempts ≤ maxTimeoutRetriesInfinite := by
  induction as generalizing l with
  | nil =>
    rw [List.countP_nil]
    omega
  | cons a as ih =>
    rw [runActs_cons, Option.bind_eq_some_iff] at hrun
    obtain ⟨l₁, hstep, hrun⟩ := hrun
    obtain ⟨-, -, rfl⟩ := step_eq_some hstep
    rcases attempt_cases x infiniteRetries l a with
      ⟨exit, hexit, -⟩ | ⟨-, ⟨h, hplain⟩ | ⟨-, hmax, htimeout, h⟩⟩
    · have hnil : as = [] := eq_nil_of_left (by rw [hexit]; exact Option.some_ne_none _) hrun
      rw [hnil] at hrun
      cases hrun
      rw [hexit] at hgo
      cases hgo
    · have hrest := ih (by rw [h]; exact hl) hrun
      rw [h] at hrest
      rw [List.countP_cons_of_neg (by rw [hplain rfl hapart]; exact Bool.false_ne_true)]
      exact hrest
    · have hrest := ih (by rw [h]; exact hmax) hrun
      rw [h] at hrest
      rw [List.countP_cons_of_pos htimeout]
      simp only at hrest
      omega

end Cases

/-- **The connect loop ends.** With `n` retries it makes at most `n + 1` attempts. Without a limit
no attempt follows `MAX_TIMEOUT_RETRIES_INFINITE + 1` timeouts. An attempt that does not leave the
loop counts exactly once. -/
theorem connect_terminates {E : Type} {x : Exceptions E} {settings : Py} {as : List (Attempt E)}
    {l : Loop} (hrun : connectLoop x settings as = some l) :
    ∃ limit, retryLimit settings = .ok limit ∧
      (1 ≤ limit → (as.length : ℤ) ≤ limit + 1) ∧
      (limit = infiniteRetries → x.TimeoutsApart → ∀ before after, as = before ++ after →
        maxTimeoutRetriesInfinite + 1 ≤ before.countP (timeoutFailure x) → after = []) ∧
      AllSteps (step x limit) (Counted x limit) {} as := by
  unfold connectLoop at hrun
  cases hlimit : retryLimit settings with
  | error e =>
    rw [hlimit] at hrun
    cases hrun
  | ok limit =>
    rw [hlimit] at hrun
    change runActs (step x limit) {} as = some l at hrun
    refine ⟨limit, rfl, fun hpos => ?_, ?_, ?_⟩
    · have hle := length_le (l := {}) hpos (by push_cast; omega) hrun
      simpa using hle
    · rintro rfl hapart before after rfl hcount
      rw [runActs_append, Option.bind_eq_some_iff] at hrun
      obtain ⟨l₁, hbefore, hafter⟩ := hrun
      by_cases hgo : l₁.left = none
      · have hle := timeouts_le (l := {}) hapart (Nat.zero_le _) hbefore hgo
        omega
      · exact eq_nil_of_left hgo hafter
    · exact allSteps_of_enabled (fun _ _ _ hstep => counted (step_eq_some hstep).1) {} as

/-- The exceptions that are of one class each, apart from `Exception`, with a cause. -/
def plainExceptions : Exceptions (ErrorClass × Option ErrorClass) where
  isInstance e c := e.1 = c || c = .exception
  cause e := e.2.map fun c => (c, none)

example : plainExceptions.TimeoutsApart := by
  have hplain (c : ErrorClass) (e : ErrorClass × Option ErrorClass) :
      plainExceptions.isInstance e c = (decide (e.1 = c) || decide (c = .exception)) := rfl
  refine ⟨?_, ?_⟩ <;> rintro ⟨c, d⟩
  all_goals
    simp only [Exceptions.isTimeoutClass, Exceptions.isTimeout, Exceptions.isDiscovery, hplain]
    cases c <;> simp

/-- A timeout of the BLE library, wrapped in a plain one, and a discovery failure. -/
def wrappedTimeouts : List (Attempt (ErrorClass × Option ErrorClass)) :=
  [{ body := .raises (.timeout, some .bleConnectionTimeout) },
    { body := .raises (.bleDiscovery, none) }]

theorem connect_terminates_wrapped :
    ∃ limit, retryLimit (.dict [("retries", .int 1)]) = .ok limit ∧
      (1 ≤ limit → (wrappedTimeouts.length : ℤ) ≤ limit + 1) ∧
      (limit = infiniteRetries → plainExceptions.TimeoutsApart → ∀ before after,
        wrappedTimeouts = before ++ after →
        maxTimeoutRetriesInfinite + 1 ≤ before.countP (timeoutFailure plainExceptions) →
        after = []) ∧
      AllSteps (step plainExceptions limit) (Counted plainExceptions limit) {} wrappedTimeouts :=
  connect_terminates (l := { attempts := 2, left := some .returned }) (by decide +kernel)

end MMRelay.Radio.Retry
