import Mathlib

/-!
# The timing state of a connection

The globals that `_relay_rx_time_clock_skew_lock` guards (`meshtastic_utils.py`), and the sections
of `connection.py` and `events.py` that change them. The clock readings are arguments.

* `Timing.reset`: a connect attempt resets the state before it publishes its client;
* `Timing.arm`: the first attempt opens the startup drain window;
* `Timing.endDrain`: the window is closed;
* `Timing.rollback`: a failed attempt takes back what it armed.
-/

namespace MMRelay.Radio

/-- `STARTUP_PACKET_DRAIN_SECS`. -/
def startupPacketDrainSecs : ℚ := 15

/-- `RECONNECT_PRESTART_BOOTSTRAP_WINDOW_SECS`. -/
def reconnectPrestartBootstrapWindowSecs : ℚ := 5

structure Timing where
  relayStartTime : ℚ := 0
  connectionStartedMonotonicSecs : ℚ := 0
  rxTimeClockSkewSecs : Option ℚ := none
  startupDrainDeadline : Option ℚ := none
  startupPacketDrainApplied : Bool := false
  reconnectPrestartBootstrapDeadline : Option ℚ := none
  deriving DecidableEq

/-- `timing_mode`. -/
inductive TimingMode
  | startupPending
  | startupPendingReconnect
  | reconnect
  deriving DecidableEq

/-- `reconnect_bootstrap_armed_for_this_connect`. -/
def TimingMode.bootstrapArmed (m : TimingMode) : Bool := decide (m ≠ .startupPending)

/-- The deadline is in the future. -/
def inFuture (deadline : Option ℚ) (now : ℚ) : Bool := deadline.any fun d => decide (now < d)

namespace Timing

variable (w : Timing)

/-- Which branch a connect attempt takes. -/
def mode (now : ℚ) : TimingMode :=
  if !w.startupPacketDrainApplied then .startupPending
  else if inFuture w.startupDrainDeadline now then .startupPendingReconnect
  else .reconnect

/-- The reset before the client is published, with `time.time()` and two readings of
`time.monotonic()`. -/
def reset (wall mono now : ℚ) : Timing :=
  let m := w.mode now
  { w with
    relayStartTime := wall
    connectionStartedMonotonicSecs := mono
    rxTimeClockSkewSecs := none
    startupDrainDeadline :=
      if m = .startupPendingReconnect then w.startupDrainDeadline else none
    reconnectPrestartBootstrapDeadline :=
      if m = .startupPending then none else some (mono + reconnectPrestartBootstrapWindowSecs) }

/-- The drain window is armed, unless it was before. -/
def arm (mono : ℚ) : Timing :=
  if w.startupPacketDrainApplied then w
  else
    { w with
      startupDrainDeadline := some (mono + startupPacketDrainSecs)
      startupPacketDrainApplied := true }

/-- The drain window is closed. -/
def endDrain : Timing := { w with startupDrainDeadline := none }

/-- The part of `_rollback_connect_attempt_state` on the timing state. -/
def rollback (drainArmed drainApplied bootstrapArmed : Bool) : Timing :=
  { w with
    startupDrainDeadline := if drainArmed then none else w.startupDrainDeadline
    startupPacketDrainApplied :=
      if drainArmed && drainApplied then false else w.startupPacketDrainApplied
    reconnectPrestartBootstrapDeadline :=
      if bootstrapArmed then none else w.reconnectPrestartBootstrapDeadline }

end Timing

end MMRelay.Radio
