import MMRelay.Lib.Run
import MMRelay.Radio.Timing

/-!
# The published client and its identity

`meshtastic_client` and `_relay_active_client_id` over connects, failed attempts, connection losses
and shutdown closes (`meshtastic/connection.py`, `meshtastic/events.py`, `main.py`). An iteration of
the retry loop stops at any of its points, with an exception of any class, at a shutdown check, or
with the client published.

* `rollbackConnectAttemptState`: what a failed attempt takes back;
* `Try`, `attempt`: one iteration of the loop;
* `Op`, `step`: the operations, in any order;
* **`consistent_run_iff`**: the pair agrees and failed attempts leave nothing behind exactly in the
  runs whose steps are `Clean`.
-/

namespace MMRelay.Radio.Identity

/-! ## State -/

/-- What an attempt has set so far: the flags `.._for_this_connect`. -/
structure Armed where
  clientAssigned : Bool := false
  drainArmed : Bool := false
  drainApplied : Bool := false
  bootstrapArmed : Bool := false
  deriving DecidableEq

structure State where
  /-- `meshtastic_client`, by its identity. -/
  client : Option ℕ := none
  activeClientId : Option ℕ := none
  /-- `meshtastic_iface`. -/
  iface : Option ℕ := none
  timing : Timing := {}
  drainExpiryTimer : Option ℕ := none
  drainComplete : Bool := true
  pendingProbeTimer : Option ℕ := none
  /-- `connect_meshtastic` is in its retry loop. -/
  connecting : Bool := false
  /-- The flags of the last operation, if it was an attempt that failed. -/
  failed : Option Armed := none
  deriving DecidableEq

/-! ## A failed attempt -/

/-- The client of the attempt is closed; `raises` if that raises. -/
def rollbackClient (s : State) (client : Option ℕ) (assigned raises : Bool) : State :=
  if client.isSome ∧ (assigned ∨ client = s.iface) ∧ (s.client = client ∨ client = s.iface) then
    { s with
      iface := if client = s.iface ∧ raises = false then none else s.iface
      client := if s.client = client then none else s.client
      activeClientId := if s.client = client then none else s.activeClientId }
  else s

/-- `_rollback_connect_attempt_state`. -/
def rollbackConnectAttemptState (s : State) (client : Option ℕ) (f : Armed) (raises : Bool) :
    State :=
  let s := rollbackClient s client f.clientAssigned raises
  { s with
    timing := s.timing.rollback f.drainArmed f.drainApplied f.bootstrapArmed
    drainExpiryTimer := if f.drainArmed then none else s.drainExpiryTimer
    drainComplete := s.drainComplete || f.drainArmed
    pendingProbeTimer := none }

/-- The classes that the handlers of the loop tell apart; `base` is not an `Exception`. -/
inductive ErrorClass
  | connectionRefused
  | critical
  | futureWaitShutdown
  | bleDiscoveryTransient
  | timeout
  | exception
  | base
  deriving DecidableEq

/-- There is a handler for the class. -/
def ErrorClass.caught (e : ErrorClass) : Bool := decide (e ≠ .base)

/-- The handler may go on with the loop. -/
def ErrorClass.mayRetry : ErrorClass → Bool
  | .bleDiscoveryTransient | .timeout | .exception => true
  | _ => false

/-- An exception leaves the `try` block. -/
def raised (s : State) (client : Option ℕ) (f : Armed) (e : ErrorClass) (raises retry : Bool) :
    State :=
  if e.caught then
    { rollbackConnectAttemptState s client f raises with
      connecting := e.mayRetry && retry, failed := some f }
  else { s with connecting := false, failed := some f }

/-! ## An iteration of the retry loop -/

/-- The points after the publication at which the setup can stop. -/
inductive Point
  | nodeInfo
  | metadata
  | arming
  | subscription
  | probe
  deriving DecidableEq

/-- The drain window is armed before this point. -/
def Point.afterArm : Point → Bool
  | .nodeInfo | .metadata => false
  | _ => true

/-- How the setup ends. -/
inductive Stop
  /-- `shutting_down` before the client is published. -/
  | shutdownFirst
  | shutdown (p : Point)
  | raises (p : Point) (e : ErrorClass)
  | done
  deriving DecidableEq

/-- The setup of a new client: the clock readings, the drain timer and whether it starts, and the
probe timer that is stored, if the probe is delayed. -/
structure Setup where
  client : ℕ
  wall : ℚ
  mono : ℚ
  now : ℚ
  armMono : ℚ
  timer : ℕ
  timerStarts : Bool
  probe : Option ℕ
  stop : Stop
  deriving DecidableEq

inductive Try
  /-- `return None` before there is a client: no serial port, or an unknown connection type. -/
  | missing
  /-- An exception before the timing state is reset, with the value of `client` at that point. -/
  | raises (client : Option ℕ) (e : ErrorClass)
  | setup (u : Setup)
  deriving DecidableEq

/-- The client is published. -/
def publish (s : State) (u : Setup) : State :=
  { s with
    timing := s.timing.reset u.wall u.mono u.now
    drainComplete := s.drainComplete || decide (s.timing.mode u.now = .reconnect)
    client := some u.client
    activeClientId := some u.client }

/-- The drain window is armed and its timer started. -/
def armDrain (s : State) (u : Setup) : State :=
  if u.timerStarts then
    { s with
      timing := s.timing.arm u.armMono, drainExpiryTimer := some u.timer, drainComplete := false }
  else
    { s with
      timing := (s.timing.arm u.armMono).endDrain, drainExpiryTimer := none, drainComplete := true }

/-- The flags of the attempt at a point after the publication. -/
def armedAt (s : State) (u : Setup) (p : Point) : Armed where
  clientAssigned := true
  drainArmed := p.afterArm && decide (s.timing.mode u.now = .startupPending)
  drainApplied := p.afterArm && decide (s.timing.mode u.now = .startupPending)
  bootstrapArmed := (s.timing.mode u.now).bootstrapArmed

/-- The state at a point after the publication. -/
def stateAt (s : State) (u : Setup) (p : Point) : State :=
  let s' := publish s u
  let s' :=
    if p.afterArm && decide (s.timing.mode u.now = .startupPending) then armDrain s' u else s'
  if p = .probe then { s' with pendingProbeTimer := u.probe.or s'.pendingProbeTimer } else s'

/-- The bail-out before the publication closes the client itself. -/
def shutdownFirst (s : State) (u : Setup) (raises : Bool) : State :=
  let mode := s.timing.mode u.now
  { s with
    timing := (s.timing.reset u.wall u.mono u.now).rollback false false mode.bootstrapArmed
    drainComplete := s.drainComplete || decide (mode = .reconnect)
    iface := if s.iface = some u.client ∧ raises = false then none else s.iface
    connecting := false
    failed := some { bootstrapArmed := mode.bootstrapArmed } }

/-- One iteration, with the value of `meshtastic_iface` when the client was constructed. -/
def attempt (s : State) (iface : Option ℕ) (raises retry : Bool) (t : Try) : State :=
  let s := { s with iface := iface }
  match t with
  | .missing => { s with connecting := false, failed := some {} }
  | .raises client e => raised s client {} e raises retry
  | .setup u =>
    match u.stop with
    | .shutdownFirst => shutdownFirst s u raises
    | .shutdown p =>
      { rollbackConnectAttemptState (stateAt s u p) (some u.client) (armedAt s u p) raises with
        connecting := false, failed := some (armedAt s u p) }
    | .raises p e => raised (stateAt s u p) (some u.client) (armedAt s u p) e raises retry
    | .done => { stateAt s u .probe with connecting := false, failed := none }

/-! ## Operations -/

inductive Op
  /-- `connect_meshtastic` up to its loop; `refused` if a shutdown or a reconnect is in progress,
  `config` if the configuration is complete, `raises` if closing the previous client raises. -/
  | connect (force refused config raises : Bool)
  | attempt (iface : Option ℕ) (raises retry : Bool) (t : Try)
  /-- `on_lost_meshtastic_connection`; `busy` if a shutdown or a reconnect is in progress. -/
  | lost (i : Option ℕ) (busy subscribed : Bool)
  /-- `_close_meshtastic_client_best_effort`. -/
  | shutdownClose
  deriving DecidableEq

/-- The previous client is closed. -/
def closePrevious (s : State) (raises : Bool) : State :=
  if s.client.isSome then
    { s with
      iface := if s.client = s.iface ∧ raises = false then none else s.iface
      client := none
      activeClientId := none }
  else s

/-- The connection-lost handler returns before it does anything. -/
def ignoresLost (s : State) (i : Option ℕ) (busy subscribed : Bool) : Bool :=
  i.isSome && s.client.isNone && subscribed ||
    i.isSome && s.client.isSome && decide (i ≠ s.activeClientId.or s.client) || busy

def step (s : State) : Op → Option State
  | .connect force refused config raises =>
    if s.connecting then none
    else if refused || s.client.isSome && !force then some { s with failed := none }
    else
      some { closePrevious s raises with
             connecting := config, failed := if config then none else some {} }
  | .attempt iface raises retry t => if s.connecting then some (attempt s iface raises retry t) else none
  | .lost i busy subscribed =>
    if ignoresLost s i busy subscribed then some { s with failed := none }
    else
      some { s with
             client := none
             activeClientId := none
             iface := if s.client.isSome ∧ s.client = s.iface then none else s.iface
             pendingProbeTimer := none
             failed := none }
  | .shutdownClose =>
    if s.client.isSome then some { s with client := none, iface := none, failed := none }
    else some { s with failed := none }

/-- The values without a client, as far as a failed attempt has changed them. -/
structure NoClient (s : State) (f : Armed) : Prop where
  client : s.client = none
  activeClientId : s.activeClientId = none
  drain : f.drainArmed = true →
    s.timing.startupDrainDeadline = none ∧ s.timing.startupPacketDrainApplied = false
  bootstrap : f.bootstrapArmed = true → s.timing.reconnectPrestartBootstrapDeadline = none
  probe : s.pendingProbeTimer = none

/-- The pair agrees, and a failed attempt has left nothing behind. -/
structure Consistent (s : State) : Prop where
  ids : s.activeClientId = s.client
  reset : ∀ f, s.failed = some f → NoClient s f

/-- The step is none of those that reset too little. -/
def Clean (s : State) : Op → Prop
  | .connect force refused config _ =>
    (refused || s.client.isSome && !force) = false → config = false → s.pendingProbeTimer = none
  | .attempt _ _ _ .missing => s.pendingProbeTimer = none
  | .attempt _ _ _ (.raises _ e) => e.caught = true ∨ s.pendingProbeTimer = none
  | .attempt _ _ _ (.setup u) =>
    match u.stop with
    | .shutdownFirst => s.pendingProbeTimer = none
    | .raises _ e => e.caught = true
    | _ => True
  | .lost _ _ _ => True
  | .shutdownClose => s.client = none

/-! ## Rollbacks -/

variable {s s' : State} {f : Armed} {client iface : Option ℕ} {k : ℕ} {raises retry : Bool}
  {u : Setup} {p : Point} {e : ErrorClass}

theorem rollbackClient_published (h : s.client = some k) :
    (rollbackClient s (some k) true raises).client = none ∧
      (rollbackClient s (some k) true raises).activeClientId = none := by
  simp [rollbackClient, h]

theorem rollbackClient_none (h : s.client = none) (hid : s.activeClientId = none) (b : Bool) :
    (rollbackClient s client b raises).client = none ∧
      (rollbackClient s client b raises).activeClientId = none := by
  unfold rollbackClient
  split
  · simp [h, hid]
  · exact ⟨h, hid⟩

theorem noClient_rollback (hc : (rollbackClient s client f.clientAssigned raises).client = none ∧
      (rollbackClient s client f.clientAssigned raises).activeClientId = none)
    (hf : f.drainArmed = true → f.drainApplied = true) :
    NoClient (rollbackConnectAttemptState s client f raises) f where
  client := hc.1
  activeClientId := hc.2
  drain h := by simp [rollbackConnectAttemptState, Timing.rollback, h, hf h]
  bootstrap h := by simp [rollbackConnectAttemptState, Timing.rollback, h]
  probe := rfl

theorem stateAt_client (s : State) (u : Setup) (p : Point) :
    (stateAt s u p).client = some u.client := by
  unfold stateAt armDrain
  simp only
  split_ifs <;> rfl

theorem noClient_setup (s : State) (u : Setup) (p : Point) (raises : Bool) :
    NoClient (rollbackConnectAttemptState (stateAt s u p) (some u.client) (armedAt s u p) raises)
      (armedAt s u p) :=
  noClient_rollback (rollbackClient_published (stateAt_client s u p)) fun h => h

theorem consistent_failed {c : Bool} (h : NoClient s f) :
    Consistent { s with connecting := c, failed := some f } where
  ids := h.activeClientId.trans h.client.symm
  reset g hg := by
    cases hg
    exact ⟨h.client, h.activeClientId, h.drain, h.bootstrap, h.probe⟩

theorem consistent_of_ids {c : Bool} (h : s.activeClientId = s.client) :
    Consistent { s with connecting := c, failed := none } := ⟨h, nofun⟩

/-- A step that takes nothing back has to find nothing. -/
theorem consistent_failed_iff {c : Bool} (hc : s.client = none) (hid : s.activeClientId = none)
    (hd : f.drainArmed = false)
    (hb : f.bootstrapArmed = true → s.timing.reconnectPrestartBootstrapDeadline = none) :
    Consistent { s with connecting := c, failed := some f } ↔ s.pendingProbeTimer = none := by
  refine ⟨fun h => (h.reset f rfl).probe, fun h => consistent_failed ⟨hc, hid, fun hda => ?_, hb, h⟩⟩
  rw [hd] at hda
  cases hda

/-- In the retry loop no client is published. -/
def Unpublished (s : State) : Prop := s.connecting = true → s.client = none

/-! ## Steps -/

theorem consistent_raised_early (hc : s.client = none) (hid : s.activeClientId = none) :
    Consistent (raised s client {} e raises retry) ↔
      e.caught = true ∨ s.pendingProbeTimer = none := by
  unfold raised
  split
  · rename_i hcaught
    refine ⟨fun _ => .inl hcaught, fun _ => consistent_failed ?_⟩
    exact noClient_rollback (rollbackClient_none hc hid _) nofun
  · rename_i hcaught
    rw [consistent_failed_iff hc hid rfl fun hb => by cases hb]
    exact ⟨.inr, fun h => h.resolve_left hcaught⟩

theorem consistent_raised_setup :
    Consistent (raised (stateAt s u p) (some u.client) (armedAt s u p) e raises retry) ↔
      e.caught = true := by
  unfold raised
  split
  · rename_i hcaught
    exact ⟨fun _ => hcaught, fun _ => consistent_failed (noClient_setup s u p raises)⟩
  · rename_i hcaught
    refine ⟨fun h => ?_, fun h => absurd h hcaught⟩
    have hnone : (stateAt s u p).client = none := (h.reset _ rfl).client
    rw [stateAt_client] at hnone
    cases hnone

theorem stateAt_ids (s : State) (u : Setup) (p : Point) :
    (stateAt s u p).activeClientId = (stateAt s u p).client := by
  unfold stateAt armDrain
  simp only
  split_ifs <;> rfl

/-- The bail-out before the publication leaves a pending probe timer alone. -/
theorem consistent_shutdownFirst (hc : s.client = none) (hid : s.activeClientId = none) :
    Consistent (shutdownFirst s u raises) ↔ s.pendingProbeTimer = none := by
  refine ⟨fun h => (h.reset _ rfl).probe, fun h => ⟨hid.trans hc.symm, fun g hg => ?_⟩⟩
  cases hg
  refine ⟨hc, hid, nofun, fun hb => ?_, h⟩
  have hb : (s.timing.mode u.now).bootstrapArmed = true := hb
  simp [shutdownFirst, Timing.rollback, hb]

theorem consistent_attempt (hc : s.client = none) (hid : s.activeClientId = none) (t : Try) :
    Consistent (attempt s iface raises retry t) ↔ Clean s (.attempt iface raises retry t) := by
  cases t with
  | missing => exact consistent_failed_iff hc hid rfl nofun
  | raises client e => exact consistent_raised_early hc hid
  | setup u =>
    cases hstop : u.stop with
    | shutdownFirst =>
      simp only [attempt, hstop, Clean]
      exact consistent_shutdownFirst hc hid
    | shutdown p =>
      simp only [attempt, hstop, Clean, iff_true]
      exact consistent_failed (noClient_setup _ u p raises)
    | raises p e =>
      simp only [attempt, hstop, Clean]
      exact consistent_raised_setup
    | done =>
      simp only [attempt, hstop, Clean, iff_true]
      exact consistent_of_ids (stateAt_ids _ u .probe)

theorem closePrevious_spec (raises : Bool) (h : s.activeClientId = s.client) :
    (closePrevious s raises).client = none ∧ (closePrevious s raises).activeClientId = none ∧
      (closePrevious s raises).pendingProbeTimer = s.pendingProbeTimer := by
  unfold closePrevious
  split
  · exact ⟨rfl, rfl, rfl⟩
  · rename_i hnone
    have hnone : s.client = none := by simpa using hnone
    exact ⟨hnone, h.trans hnone, rfl⟩

/-- From a consistent state, exactly the clean steps lead to a consistent one. -/
theorem consistent_step {a : Op} (hj : Unpublished s) (h : Consistent s)
    (hs : step s a = some s') : Consistent s' ↔ Clean s a := by
  cases a with
  | connect force refused config raises =>
    simp only [step] at hs
    split at hs
    · cases hs
    split at hs
    · rename_i hkeep
      cases hs
      refine ⟨fun _ hno => ?_, fun _ => ⟨h.ids, nofun⟩⟩
      rw [hno] at hkeep
      cases hkeep
    · rename_i hkeep
      have hkeep : (refused || s.client.isSome && !force) = false := by simpa using hkeep
      obtain ⟨hc, hid, hprobe⟩ := closePrevious_spec raises h.ids
      cases hs
      cases config with
      | true => exact ⟨fun _ _ => nofun, fun _ => ⟨hid.trans hc.symm, nofun⟩⟩
      | false =>
        have hiff : Consistent { closePrevious s raises with connecting := false, failed := some {} }
            ↔ (closePrevious s raises).pendingProbeTimer = none :=
          consistent_failed_iff hc hid rfl fun hb => by cases hb
        rw [hprobe] at hiff
        exact hiff.trans ⟨fun hp _ _ => hp, fun hp => hp hkeep rfl⟩
  | attempt iface raises retry t =>
    simp only [step] at hs
    split at hs
    · rename_i hcon
      cases hs
      have hc := hj hcon
      exact consistent_attempt hc (h.ids.trans hc) t
    · cases hs
  | lost i busy subscribed =>
    simp only [step] at hs
    split at hs
    · cases hs
      exact ⟨fun _ => trivial, fun _ => ⟨h.ids, nofun⟩⟩
    · cases hs
      exact ⟨fun _ => trivial, fun _ => ⟨rfl, nofun⟩⟩
  | shutdownClose =>
    simp only [step] at hs
    split at hs
    · rename_i hsome
      cases hs
      refine ⟨fun h' => ?_, fun hnone => ?_⟩
      · have hid : s.activeClientId = none := h'.ids
        exact h.ids.symm.trans hid
      · have hnone : s.client = none := hnone
        rw [hnone] at hsome
        cases hsome
    · rename_i hnone
      have hnone : s.client = none := by simpa using hnone
      cases hs
      exact ⟨fun _ => hnone, fun _ => ⟨h.ids, nofun⟩⟩

theorem unpublished_raised
    (h : (rollbackClient s client f.clientAssigned raises).client = none) :
    Unpublished (raised s client f e raises retry) := by
  unfold raised
  split
  · exact fun _ => h
  · exact fun hcon => by cases hcon

/-- Whatever happens, an attempt that goes on with the loop has no client published. -/
theorem unpublished_attempt (hc : s.client = none) (t : Try) :
    Unpublished (attempt s iface raises retry t) := by
  cases t with
  | missing => exact fun h => by cases h
  | raises client e =>
    refine unpublished_raised ?_
    show (rollbackClient { s with iface := iface } client false raises).client = none
    unfold rollbackClient
    split
    · simp [hc]
    · exact hc
  | setup u =>
    cases hstop : u.stop with
    | shutdownFirst | shutdown | done =>
      simp only [attempt, hstop]
      exact fun h => by cases h
    | raises p e =>
      simp only [attempt, hstop]
      exact unpublished_raised (rollbackClient_published (stateAt_client _ u p)).1

theorem unpublished_step {a : Op} (hj : Unpublished s) (hs : step s a = some s') :
    Unpublished s' := by
  cases a with
  | connect force refused config raises =>
    simp only [step] at hs
    split at hs
    · cases hs
    split at hs
    · cases hs
      exact hj
    · cases hs
      intro _
      show (closePrevious s raises).client = none
      unfold closePrevious
      split
      · rfl
      · rename_i hnone
        simpa using hnone
  | attempt iface raises retry t =>
    simp only [step] at hs
    split at hs
    · rename_i hcon
      cases hs
      exact unpublished_attempt (hj hcon) t
    · cases hs
  | lost i busy subscribed =>
    simp only [step] at hs
    split at hs
    · cases hs
      exact hj
    · cases hs
      exact fun _ => rfl
  | shutdownClose =>
    simp only [step] at hs
    split at hs
    · cases hs
      exact fun _ => rfl
    · cases hs
      exact hj

/-- **When the pair is consistent.** For every sequence of operations: in every state between them
the pair agrees and the failed attempts have left nothing behind, exactly if every step is clean. -/
theorem consistent_run_iff (as : List Op) :
    Visited step Consistent {} as ↔ AllSteps step Clean {} as := by
  have hj : Unpublished {} := fun h => by cases h
  have hinit : Consistent {} := ⟨rfl, fun f hf => by cases hf⟩
  exact visited_iff_allSteps_of_invariant (fun _ _ _ => unpublished_step)
    (fun _ _ _ => consistent_step) hj hinit as

/-- The setup of the client `1`, whose probe is delayed. -/
def firstSetup : Setup where
  client := 1
  wall := 100
  mono := 0
  now := 0
  armMono := 1
  timer := 5
  timerStarts := true
  probe := some 6
  stop := .done

/-- The shutdown closer forgets the client but not its identity. -/
theorem shutdownClose_splits :
    ∃ s, runActs step {} [.connect false false true false,
        .attempt none false false (.setup firstSetup), .shutdownClose] = some s ∧
      s.client = none ∧ s.activeClientId = some 1 ∧ ¬ Consistent s := by
  refine ⟨_, rfl, rfl, rfl, fun h => ?_⟩
  have hids := h.ids
  cases hids

end MMRelay.Radio.Identity
