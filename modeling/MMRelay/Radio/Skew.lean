import MMRelay.Lib.PyValue
import MMRelay.Mesh.Handler
import MMRelay.Radio.Timing

/-!
# The clock skew of a connection

How packets and health probes calibrate the skew between the clock of the node and that of the host
(`meshtastic/health.py`), and what `on_meshtastic_message` does with a packet meanwhile. The handler
itself is `Mesh.onMeshtasticMessage`; here it is run on the state that it reads and changes.

* `seedConnectTimeSkew`, `claimHealthProbeResponse`, `receive`: the three ways to calibrate;
* `Event`, `Session.step`: resets, drain transitions, probes and packets in any order;
* **`skew_machine`**: the skew is bounded and calibrated at most once per connection, a probe is
  claimed at most once, and no packet that was consumed or is too old gets through.
-/

namespace MMRelay.Radio

/-! ## Calibration -/

/-- `RX_TIME_SKEW_BOOTSTRAP_WINDOW_SECS`. -/
def rxTimeSkewBootstrapWindowSecs : ℚ := 180

/-- `RX_TIME_SKEW_BOOTSTRAP_MAX_SKEW_SECS`. -/
def rxTimeSkewBootstrapMaxSkewSecs : ℚ := 48 * 60 * 60

/-- `HEALTH_PROBE_TRACK_GRACE_SECS`. -/
def healthProbeTrackGraceSecs : ℚ := 60

/-- `wall - rx_time`, unless its absolute value exceeds the limit. -/
def boundedSkew (wall : ℚ) : PyFloat → Option ℚ
  | .fin q => if |wall - q| > rxTimeSkewBootstrapMaxSkewSecs then none else some (wall - q)
  | _ => none

/-- `_seed_connect_time_skew`, with the answer. -/
def seedConnectTimeSkew (w : Timing) (rx : PyFloat) (wall mono : ℚ) : Bool × Timing :=
  if !rx.gtRat 0 then (false, w)
  else if w.rxTimeClockSkewSecs.isSome then (false, w)
  else
    let startupAge := max 0 (mono - w.connectionStartedMonotonicSecs)
    let withinStartupWindow := decide (startupAge ≤ rxTimeSkewBootstrapWindowSecs)
    let startupDrainActive := w.startupDrainDeadline.isSome
    let reconnectBootstrapActive :=
      w.reconnectPrestartBootstrapDeadline.any fun d => decide (mono ≤ d)
    let bootstrap := w.reconnectPrestartBootstrapDeadline.filter fun d => decide (mono ≤ d)
    let packetIsPostStart := !rx.ltRat w.relayStartTime
    let w' := { w with reconnectPrestartBootstrapDeadline := bootstrap }
    if !packetIsPostStart &&
        (!withinStartupWindow || !startupDrainActive && !reconnectBootstrapActive) then (false, w')
    else
      match boundedSkew wall rx with
      | none => (false, w')
      | some skew =>
        (true,
          { w' with
            rxTimeClockSkewSecs := some skew
            reconnectPrestartBootstrapDeadline :=
              if !packetIsPostStart && !startupDrainActive && reconnectBootstrapActive then none
              else bootstrap })

/-- The timing state and the tracked probes with their deadlines. -/
structure Session where
  timing : Timing := {}
  healthProbeRequestDeadlines : List (ℤ × ℚ) := []
  deriving DecidableEq

/-- `_coerce_int_id`. -/
def coerceIntId (raw : Py) : Except PyErr (Option ℤ) :=
  match raw.toInt with
  | .ok n => .ok (some n)
  | .error .typeError => .ok none
  | .error .valueError => .ok none
  | .error e => .error e

/-- `_coerce_positive_int_id`. -/
def coercePositiveIntId (raw : Py) : Except PyErr (Option ℤ) := do
  let parsed ← coerceIntId raw
  pure (parsed.filter fun n => decide (0 < n))

/-- The loop of `_extract_packet_request_id`. -/
def firstRequestId : List Py → Except PyErr (Option ℤ)
  | [] => .ok none
  | candidate :: rest => do
    match ← coercePositiveIntId candidate with
    | some n => pure (some n)
    | none => firstRequestId rest

/-- `_extract_packet_request_id`. -/
def extractPacketRequestId (packet : Py) : Except PyErr (Option ℤ) :=
  let decoded := packet.field "decoded"
  firstRequestId ([packet.field "requestId", packet.field "request_id"] ++
    if decoded.isDict then [decoded.field "requestId", decoded.field "request_id"] else [])

/-- `_prune_health_probe_tracking`. -/
def pruneHealthProbeTracking (deadlines : List (ℤ × ℚ)) (now : ℚ) : List (ℤ × ℚ) :=
  deadlines.filter fun e => decide (now < e.2)

/-- `_track_health_probe_request_id`. -/
def trackHealthProbeRequestId (s : Session) (requestId : ℤ) (timeout now pruneAt : ℚ) : Session :=
  { s with
    healthProbeRequestDeadlines :=
      (pruneHealthProbeTracking s.healthProbeRequestDeadlines pruneAt).filter (·.1 ≠ requestId) ++
        [(requestId, now + max timeout 1 + healthProbeTrackGraceSecs)] }

/-- What one call of the handler reads: the clocks, the number of the local node, and whether the
drain timer is alive. -/
structure Readings where
  prune : ℚ
  claimWall : ℚ
  now : ℚ
  seedWall : ℚ
  seedMono : ℚ
  localNum : Option ℤ
  timerAlive : Bool

/-- The sender of a packet is known not to be the local node. -/
def fromElsewhere (c : Readings) (packet : Py) : Except PyErr Bool := do
  let sender ← coerceIntId (packet.field "from")
  pure (sender.any fun n => c.localNum.any fun me => decide (n ≠ me))

/-- `_claim_health_probe_response_and_maybe_calibrate`: the claimed probe, if there is one. -/
def claimHealthProbeResponse (s : Session) (c : Readings) (packet : Py) (rx : PyFloat) :
    Except PyErr (Option ℤ × Session) := do
  match ← extractPacketRequestId packet with
  | none => pure (none, s)
  | some requestId =>
    if ← fromElsewhere c packet then pure (none, s)
    else
      let deadlines := pruneHealthProbeTracking s.healthProbeRequestDeadlines c.prune
      if !deadlines.any (fun e => decide (e.1 = requestId)) then
        pure (none, { s with healthProbeRequestDeadlines := deadlines })
      else
        let skew := if rx.gtRat 0 then boundedSkew c.claimWall rx else none
        pure (some requestId,
          { s with
            healthProbeRequestDeadlines := deadlines.filter (·.1 ≠ requestId)
            timing :=
              { s.timing with rxTimeClockSkewSecs := s.timing.rxTimeClockSkewSecs.or skew } })

/-! ## The handler -/

/-- `on_meshtastic_message` up to the health probes. -/
def enter (w : Mesh.World) (packet : Py) : Except Halt PyFloat := do
  require (packet.truthy && packet.isDict)
  require (!w.shuttingDown)
  require (Mesh.fromActiveSession w)
  liftErr (Mesh.rxTime w packet)

/-- A call of the handler: the probe it claimed, the state it left, and what it did. -/
structure Received where
  claimed : Option ℤ
  session : Session
  outcome : Except Halt Mesh.Outcome

/-- The handler closes a drain window that is over, unless the timer will do it. -/
def closeDrain (t : Timing) (c : Readings) : Timing :=
  if inFuture t.startupDrainDeadline c.now || c.timerAlive then t else t.endDrain

/-- The state and the globals that the rest of the handler finds. -/
def calibrate (s : Session) (c : Readings) (rx : PyFloat) : Bool × Session :=
  let t := closeDrain s.timing c
  let (seeded, t') :=
    if rx.gtRat 0 then seedConnectTimeSkew t rx c.seedWall c.seedMono else (false, t)
  (seeded, { s with timing := t' })

/-- `on_meshtastic_message` on the state of the connection. -/
def receive (s : Session) (w : Mesh.World) (c : Readings) (packet : Py) : Received :=
  match enter w packet with
  | .error e => ⟨none, s, .error e⟩
  | .ok rx =>
    match claimHealthProbeResponse s c packet rx with
    | .error e => ⟨none, s, .error (.raised e)⟩
    | .ok (some requestId, s₁) =>
      ⟨some requestId, s₁,
        Mesh.onMeshtasticMessage { w with healthProbeResponse := true } packet⟩
    | .ok (none, s₁) =>
      let (seeded, s₂) := calibrate s₁ c rx
      ⟨none, s₂,
        Mesh.onMeshtasticMessage
          { w with
            healthProbeResponse := false
            now := c.now
            startupDrainDeadline := s₁.timing.startupDrainDeadline
            relayStartTime := s₁.timing.relayStartTime
            seededSkew := seeded
            calibratedSkew := s₂.timing.rxTimeClockSkewSecs } packet⟩

/-! ## Events -/

inductive Event
  | reset (wall mono now : ℚ)
  | arm (mono : ℚ)
  /-- The drain timer expires or could not be started. -/
  | endDrain
  | rollback (drainArmed drainApplied bootstrapArmed : Bool)
  | track (raw : Py) (timeout now pruneAt : ℚ)
  | expire (now : ℚ)
  | packet (w : Mesh.World) (c : Readings) (p : Py)

def Session.step (s : Session) : Event → Session
  | .reset wall mono now => ⟨s.timing.reset wall mono now, []⟩
  | .arm mono => { s with timing := s.timing.arm mono }
  | .endDrain => { s with timing := s.timing.endDrain }
  | .rollback drainArmed drainApplied bootstrapArmed =>
    { s with timing := s.timing.rollback drainArmed drainApplied bootstrapArmed }
  | .track raw timeout now pruneAt =>
    match coercePositiveIntId raw with
    | .ok (some requestId) => trackHealthProbeRequestId s requestId timeout now pruneAt
    | _ => s
  | .expire now =>
    { s with
      healthProbeRequestDeadlines := pruneHealthProbeTracking s.healthProbeRequestDeadlines now }
  | .packet w c p => (receive s w c p).session

def Session.run (s : Session) (es : List Event) : Session := es.foldl step s

/-- After the module is imported. -/
def Session.init (wall mono : ℚ) : Session :=
  ⟨{ relayStartTime := wall, connectionStartedMonotonicSecs := mono }, []⟩

def Event.isReset : Event → Bool
  | .reset _ _ _ => true
  | _ => false

/-- The probe that a step claims. -/
def Event.claims (s : Session) : Event → Option ℤ
  | .packet w c p => (receive s w c p).claimed
  | _ => none

/-- The probe that a step tracks. -/
def Event.tracks : Event → Option ℤ
  | .track raw _ _ _ =>
    match coercePositiveIntId raw with
    | .ok requestId => requestId
    | .error _ => none
  | _ => none

/-- How often a run calibrates the skew. -/
def calibrations (s : Session) : List Event → ℕ
  | [] => 0
  | e :: es =>
    (if s.timing.rxTimeClockSkewSecs = none ∧ (s.step e).timing.rxTimeClockSkewSecs ≠ none then 1
      else 0) + calibrations (s.step e) es

/-- How often a run claims a probe. -/
def claimCount (requestId : ℤ) (s : Session) : List Event → ℕ
  | [] => 0
  | e :: es => (if e.claims s = some requestId then 1 else 0) + claimCount requestId (s.step e) es

/-- How often a run tracks a probe. -/
def trackCount (requestId : ℤ) (es : List Event) : ℕ :=
  es.countP fun e => decide (e.tracks = some requestId)

/-! ## Probes -/

variable {s s' : Session} {c : Readings} {w : Mesh.World} {packet : Py} {rx : PyFloat}
  {requestId : ℤ}

/-- The probe is tracked. -/
def Session.tracked (s : Session) (requestId : ℤ) : Prop :=
  ∃ e ∈ s.healthProbeRequestDeadlines, e.1 = requestId

theorem mem_of_mem_prune {deadlines : List (ℤ × ℚ)} {now : ℚ} {e : ℤ × ℚ}
    (h : e ∈ pruneHealthProbeTracking deadlines now) : e ∈ deadlines :=
  List.mem_of_mem_filter h

theorem abs_le_of_boundedSkew {wall x : ℚ} (h : boundedSkew wall rx = some x) :
    |x| ≤ rxTimeSkewBootstrapMaxSkewSecs := by
  cases rx with
  | fin q =>
    simp only [boundedSkew] at h
    split at h
    · cases h
    · rename_i hle
      cases h
      exact not_lt.mp hle
  | inf negative => cases h
  | nan => cases h

/-- The skew that a calibration leaves, if the old one was `old`. -/
structure Calibrated (old new : Option ℚ) : Prop where
  kept : old ≠ none → new = old
  bounded : ∀ x, old = none → new = some x → |x| ≤ rxTimeSkewBootstrapMaxSkewSecs

theorem Calibrated.refl (old : Option ℚ) : Calibrated old old :=
  ⟨fun _ => rfl, fun x hn hs => by rw [hn] at hs; cases hs⟩

theorem Calibrated.trans {a b d : Option ℚ} (h : Calibrated a b) (h' : Calibrated b d) :
    Calibrated a d := by
  refine ⟨fun hne => ?_, fun x hn hs => ?_⟩
  · have hb := h.kept hne
    rw [h'.kept (by rw [hb]; exact hne), hb]
  · cases hb : b with
    | none => exact h'.bounded x hb hs
    | some y =>
      have hd := h'.kept (by rw [hb]; nofun)
      rw [hs, hb] at hd
      cases hd
      exact h.bounded x hn hb

/-- What a claim does to the state. -/
structure ClaimSpec (s s' : Session) (claimed : Option ℤ) : Prop where
  tracked : ∀ r, s'.tracked r → s.tracked r
  consumed : ∀ r, claimed = some r → s.tracked r ∧ ¬ s'.tracked r
  skew : Calibrated s.timing.rxTimeClockSkewSecs s'.timing.rxTimeClockSkewSecs
  timing : claimed = none → s'.timing = s.timing

theorem claim_spec {claimed : Option ℤ}
    (h : claimHealthProbeResponse s c packet rx = .ok (claimed, s')) :
    ClaimSpec s s' claimed := by
  have hsame : ClaimSpec s s none := ⟨fun _ h => h, nofun, .refl _, fun _ => rfl⟩
  rw [claimHealthProbeResponse, except_bind_eq_ok] at h
  obtain ⟨o, -, h⟩ := h
  cases o with
  | none =>
    cases h
    exact hsame
  | some requestId =>
    rw [except_bind_eq_ok] at h
    obtain ⟨b, -, h⟩ := h
    cases b with
    | true =>
      cases h
      exact hsame
    | false =>
      simp only [Bool.false_eq_true, if_false] at h
      split at h
      · cases h
        refine ⟨fun r hr => ?_, nofun, .refl _, fun _ => rfl⟩
        obtain ⟨e, he, her⟩ := hr
        exact ⟨e, mem_of_mem_prune he, her⟩
      · rename_i hany
        cases h
        have hmem : ∃ e ∈ pruneHealthProbeTracking s.healthProbeRequestDeadlines c.prune,
            e.1 = requestId := by simpa using hany
        refine ⟨fun r hr => ?_, fun r hr => ?_, ⟨fun hne => ?_, fun x hn hx => ?_⟩, nofun⟩
        · obtain ⟨e, he, her⟩ := hr
          exact ⟨e, mem_of_mem_prune (List.mem_of_mem_filter he), her⟩
        · cases hr
          obtain ⟨e, he, her⟩ := hmem
          refine ⟨⟨e, mem_of_mem_prune he, her⟩, fun hr => ?_⟩
          obtain ⟨d, hd, hdr⟩ := hr
          have hne := (List.mem_filter.mp hd).2
          simp [hdr] at hne
        · obtain ⟨x, hx⟩ := Option.ne_none_iff_exists'.mp hne
          simp [hx]
        · simp only [hn, Option.none_or] at hx
          split at hx
          · exact abs_le_of_boundedSkew hx
          · cases hx

/-- What a packet without a claim can do to the skew. -/
structure SeedSpec (t t' : Timing) (seeded : Bool) : Prop where
  skew : Calibrated t.rxTimeClockSkewSecs t'.rxTimeClockSkewSecs
  start : t'.relayStartTime = t.relayStartTime
  unseeded : seeded = false → t'.rxTimeClockSkewSecs = t.rxTimeClockSkewSecs

theorem seed_spec (t : Timing) (rx : PyFloat) (wall mono : ℚ) :
    SeedSpec t (seedConnectTimeSkew t rx wall mono).2 (seedConnectTimeSkew t rx wall mono).1 := by
  unfold seedConnectTimeSkew
  split
  · exact ⟨.refl _, rfl, fun _ => rfl⟩
  split
  · exact ⟨.refl _, rfl, fun _ => rfl⟩
  rename_i hnone
  simp only
  split
  · exact ⟨.refl _, rfl, fun _ => rfl⟩
  split
  · exact ⟨.refl _, rfl, fun _ => rfl⟩
  · rename_i skew hskew
    refine ⟨⟨fun hne => ?_, fun x _ hx => ?_⟩, rfl, nofun⟩
    · exact absurd (by simpa using hnone) hne
    · cases hx
      exact abs_le_of_boundedSkew hskew

theorem closeDrain_skew (t : Timing) (c : Readings) :
    (closeDrain t c).rxTimeClockSkewSecs = t.rxTimeClockSkewSecs ∧
      (closeDrain t c).relayStartTime = t.relayStartTime := by
  unfold closeDrain
  split <;> exact ⟨rfl, rfl⟩

theorem calibrate_spec (s : Session) (c : Readings) (rx : PyFloat) :
    SeedSpec s.timing (calibrate s c rx).2.timing (calibrate s c rx).1 ∧
      (calibrate s c rx).2.healthProbeRequestDeadlines = s.healthProbeRequestDeadlines ∧
      ((calibrate s c rx).1 = true → rx.gtRat 0 = true) := by
  obtain ⟨hskew, hstart⟩ := closeDrain_skew s.timing c
  unfold calibrate
  by_cases hpos : rx.gtRat 0 = true
  · simp only [hpos, if_true]
    have hseed := seed_spec (closeDrain s.timing c) rx c.seedWall c.seedMono
    refine ⟨⟨?_, hseed.start.trans hstart, fun h => (hseed.unseeded h).trans hskew⟩, trivial,
      fun _ => trivial⟩
    rw [← hskew]
    exact hseed.skew
  · simp only [hpos, Bool.false_eq_true, if_false]
    refine ⟨⟨?_, hstart, fun _ => hskew⟩, trivial, nofun⟩
    rw [hskew]
    exact .refl _

/-! ## The handler -/

/-- What a packet does to the state. -/
structure ReceiveSpec (s : Session) (r : Received) : Prop where
  tracked : ∀ n, r.session.tracked n → s.tracked n
  consumed : ∀ n, r.claimed = some n → s.tracked n ∧ ¬ r.session.tracked n
  skew : Calibrated s.timing.rxTimeClockSkewSecs r.session.timing.rxTimeClockSkewSecs

theorem receive_spec (s : Session) (w : Mesh.World) (c : Readings) (packet : Py) :
    ReceiveSpec s (receive s w c packet) := by
  unfold receive
  split
  · exact ⟨fun _ h => h, nofun, .refl _⟩
  split
  · exact ⟨fun _ h => h, nofun, .refl _⟩
  · rename_i hclaim
    have hspec := claim_spec hclaim
    exact ⟨hspec.tracked, hspec.consumed, hspec.skew⟩
  · rename_i rx _ _ s₁ hclaim
    have hspec := claim_spec hclaim
    obtain ⟨hseed, hprobes, -⟩ := calibrate_spec s₁ c rx
    refine ⟨fun n hn => hspec.tracked n ?_, nofun, hspec.skew.trans hseed.skew⟩
    obtain ⟨e, he, hen⟩ := hn
    refine ⟨e, ?_, hen⟩
    rw [← hprobes]
    exact he

theorem acceptPacket_of_ok {o : Mesh.Outcome} (h : Mesh.onMeshtasticMessage w packet = .ok o) :
    ∃ rx, Mesh.rxTime w packet = .ok rx ∧ w.healthProbeResponse = false ∧
      Mesh.draining w = false ∧
      (rx.gtRat 0 && w.seededSkew && rx.ltRat w.relayStartTime) = false ∧
      (rx.gtRat 0 && rx.ltRat (Mesh.effectiveRelayStartTime w)) = false := by
  rw [Mesh.onMeshtasticMessage, except_bind_eq_ok] at h
  obtain ⟨x, hgates, -⟩ := h
  rw [Mesh.passGates, except_bind_eq_ok] at hgates
  obtain ⟨u, hacc, -⟩ := hgates
  simp only [Mesh.acceptPacket, except_bind_eq_ok, require_eq_ok, liftErr_eq_ok,
    Bool.not_eq_true'] at hacc
  obtain ⟨_, -, _, -, _, -, rx, hrx, _, hprobe, _, hdrain, _, hseed, hold⟩ := hacc
  exact ⟨rx, hrx, hprobe, hdrain, hseed, hold⟩

/-- `x >= q`. -/
def PyFloat.geRat (x : PyFloat) (q : ℚ) : Bool :=
  match x with
  | .fin p => decide (q ≤ p)
  | .inf negative => !negative
  | .nan => false

theorem geRat_of_not_ltRat {x : PyFloat} {q : ℚ} (hpos : x.gtRat 0 = true)
    (h : x.ltRat q = false) : PyFloat.geRat x q = true := by
  cases x with
  | fin p => simpa [PyFloat.ltRat, PyFloat.geRat] using h
  | inf negative => exact hpos
  | nan => cases hpos

/-- What a packet must not be, and how old it may be, to be relayed or given to the plugins. -/
structure Gate (s : Session) (w : Mesh.World) (packet : Py) (c : Readings) (r : Received) :
    Prop where
  claimed : r.claimed ≠ none → ∀ o, r.outcome ≠ .ok o
  drained : inFuture s.timing.startupDrainDeadline c.now = true → ∀ o, r.outcome ≠ .ok o
  bootstrap : s.timing.rxTimeClockSkewSecs = none → r.session.timing.rxTimeClockSkewSecs ≠ none →
    (∀ rx, Mesh.rxTime w packet = .ok rx → rx.ltRat s.timing.relayStartTime = true) →
    ∀ o, r.outcome ≠ .ok o
  fresh : ∀ o rx, r.outcome = .ok o → Mesh.rxTime w packet = .ok rx → rx.gtRat 0 = true →
    PyFloat.geRat rx (s.timing.relayStartTime - r.session.timing.rxTimeClockSkewSecs.getD 0) = true

theorem enter_rxTime {x : PyFloat} (h : enter w packet = .ok rx)
    (hx : Mesh.rxTime w packet = .ok x) : x = rx := by
  simp only [enter, except_bind_eq_ok, require_eq_ok, liftErr_eq_ok] at h
  obtain ⟨_, -, _, -, _, -, hrx⟩ := h
  rw [hx] at hrx
  injection hrx

theorem receive_gate (s : Session) (w : Mesh.World) (c : Readings) (packet : Py) :
    Gate s w packet c (receive s w c packet) := by
  unfold receive
  split
  · exact ⟨nofun, nofun, nofun, nofun⟩
  split
  · exact ⟨nofun, nofun, nofun, nofun⟩
  · have hnot : ∀ o, Mesh.onMeshtasticMessage { w with healthProbeResponse := true } packet ≠
        .ok o := by
      intro o ho
      obtain ⟨_, -, hprobe, -⟩ := acceptPacket_of_ok ho
      cases hprobe
    exact ⟨fun _ => hnot, fun _ => hnot, fun _ _ _ => hnot, fun o _ ho => absurd ho (hnot o)⟩
  · rename_i rx henter _ s₁ hclaim
    have htiming : s₁.timing = s.timing := (claim_spec hclaim).timing rfl
    obtain ⟨hseed, -, hpos⟩ := calibrate_spec s₁ c rx
    refine ⟨nofun, fun hdrain o ho => ?_, fun hnone hsome hold o ho => ?_, fun o x ho hx hp => ?_⟩
    · obtain ⟨_, -, -, hopen, -⟩ := acceptPacket_of_ok ho
      obtain ⟨d, hd, hlt⟩ := (Option.any_eq_true _ _).mp hdrain
      simp only [Mesh.draining, htiming, hd, decide_eq_false_iff_not, sub_pos] at hopen
      exact hopen (of_decide_eq_true hlt)
    · obtain ⟨x, hx, -, -, hconsume, -⟩ := acceptPacket_of_ok ho
      have hseeded : (calibrate s₁ c rx).1 = true := by
        by_contra hno
        rw [hseed.unseeded (by simpa using hno), htiming] at hsome
        exact hsome hnone
      have hrx : x = rx := enter_rxTime henter hx
      subst hrx
      have hlt : x.ltRat s₁.timing.relayStartTime = true := by
        rw [htiming]
        exact hold x hx
      simp [hpos hseeded, hseeded, hlt] at hconsume
    · obtain ⟨y, hy, -, -, -, hfresh⟩ := acceptPacket_of_ok ho
      have hyx : y = x := by
        have hsame : Mesh.rxTime w packet = .ok y := hy
        rw [hx] at hsame
        injection hsame with heq
        exact heq.symm
      subst hyx
      rw [hp, Bool.true_and] at hfresh
      rw [← htiming]
      have hcut := geRat_of_not_ltRat hp hfresh
      unfold Mesh.effectiveRelayStartTime at hcut
      split at hcut
      · rename_i hskew
        simp only at hskew
        rw [hskew, Option.getD_none, sub_zero]
        exact hcut
      · rename_i skew hskew
        simp only at hskew
        rw [hskew, Option.getD_some]
        exact hcut

/-! ## Runs -/

/-- The skew is not calibrated, or within the limit. -/
def Session.SkewBounded (s : Session) : Prop :=
  ∀ x, s.timing.rxTimeClockSkewSecs = some x → |x| ≤ rxTimeSkewBootstrapMaxSkewSecs

/-- Only a reset takes the skew back. -/
theorem step_skew (s : Session) {e : Event} (he : e.isReset = false) :
    Calibrated s.timing.rxTimeClockSkewSecs (s.step e).timing.rxTimeClockSkewSecs := by
  cases e with
  | reset wall mono now => cases he
  | arm mono =>
    simp only [Session.step, Timing.arm]
    split <;> exact .refl _
  | track raw timeout now pruneAt =>
    simp only [Session.step]
    split <;> exact .refl _
  | packet w c p => exact (receive_spec s w c p).skew
  | endDrain | rollback | expire => exact .refl _

theorem skewBounded_step {s : Session} (h : s.SkewBounded) (e : Event) :
    (s.step e).SkewBounded := by
  cases he : e.isReset with
  | false =>
    have hcal := step_skew s he
    intro x hx
    cases hs : s.timing.rxTimeClockSkewSecs with
    | none => exact hcal.bounded x hs hx
    | some y =>
      rw [hcal.kept (by rw [hs]; nofun)] at hx
      exact h x hx
  | true =>
    cases e with
    | reset wall mono now => exact nofun
    | _ => cases he

theorem skewBounded_run {s : Session} (h : s.SkewBounded) (es : List Event) :
    (s.run es).SkewBounded := by
  induction es generalizing s with
  | nil => exact h
  | cons e es ih => exact ih (skewBounded_step h e)

/-- A skew that is set stays as it is until the next reset. -/
theorem calibrations_of_some {s : Session} {es : List Event}
    (hes : ∀ e ∈ es, e.isReset = false) (h : s.timing.rxTimeClockSkewSecs ≠ none) :
    calibrations s es = 0 := by
  induction es generalizing s with
  | nil => rfl
  | cons e es ih =>
    have hkept := (step_skew s (hes e List.mem_cons_self)).kept h
    rw [calibrations, if_neg fun hand => h hand.1,
      ih (fun e' he' => hes e' (List.mem_cons_of_mem _ he')) (by rw [hkept]; exact h)]

theorem calibrations_le_one (s : Session) {es : List Event}
    (hes : ∀ e ∈ es, e.isReset = false) : calibrations s es ≤ 1 := by
  induction es generalizing s with
  | nil => exact Nat.zero_le 1
  | cons e es ih =>
    have hrest : ∀ e' ∈ es, e'.isReset = false := fun e' he' => hes e' (List.mem_cons_of_mem _ he')
    rw [calibrations]
    split
    · rename_i hcal
      rw [calibrations_of_some hrest hcal.2]
    · have hle := ih (s.step e) hrest
      omega

theorem tracked_step {s : Session} {e : Event} {r : ℤ} (h : (s.step e).tracked r) :
    e.tracks = some r ∨ s.tracked r ∧ e.claims s ≠ some r := by
  cases e with
  | reset wall mono now =>
    obtain ⟨_, hmem, -⟩ := h
    cases hmem
  | arm | endDrain | rollback => exact .inr ⟨h, nofun⟩
  | expire now =>
    obtain ⟨d, hd, hdr⟩ := h
    exact .inr ⟨⟨d, mem_of_mem_prune hd, hdr⟩, nofun⟩
  | track raw timeout now pruneAt =>
    simp only [Session.step, Event.tracks] at h ⊢
    split at h
    · rename_i n hn
      obtain ⟨d, hd, hdr⟩ := h
      rcases List.mem_append.mp hd with hd | hd
      · exact .inr ⟨⟨d, mem_of_mem_prune (List.mem_of_mem_filter hd), hdr⟩, nofun⟩
      · rw [List.mem_singleton] at hd
        rw [hn, ← hdr, hd]
        exact .inl rfl
    · exact .inr ⟨h, nofun⟩
  | packet w c p =>
    have hspec := receive_spec s w c p
    exact .inr ⟨hspec.tracked r h, fun hc => (hspec.consumed r hc).2 h⟩

theorem claimed_tracked {s : Session} {e : Event} {r : ℤ} (h : e.claims s = some r) :
    s.tracked r ∧ ¬ (s.step e).tracked r := by
  cases e with
  | packet w c p => exact (receive_spec s w c p).consumed r h
  | _ => cases h

theorem claimCount_le (r : ℤ) (s : Session) (es : List Event) :
    claimCount r s es ≤ trackCount r es + 1 ∧
      (¬ s.tracked r → claimCount r s es ≤ trackCount r es) := by
  induction es generalizing s with
  | nil => exact ⟨Nat.zero_le _, fun _ => Nat.zero_le _⟩
  | cons e es ih =>
    obtain ⟨hany, hnone⟩ := ih (s.step e)
    have hcount : trackCount r (e :: es) =
        trackCount r es + if e.tracks = some r then 1 else 0 := by
      simp [trackCount, List.countP_cons]
    rw [claimCount, hcount]
    by_cases hc : e.claims s = some r
    · obtain ⟨htracked, hgone⟩ := claimed_tracked hc
      have hrest := hnone hgone
      rw [if_pos hc]
      exact ⟨by omega, fun hn => absurd htracked hn⟩
    · rw [if_neg hc]
      refine ⟨by omega, fun hn => ?_⟩
      by_cases hafter : (s.step e).tracked r
      · have htracks : e.tracks = some r :=
          (tracked_step hafter).resolve_right fun hboth => hn hboth.1
        rw [if_pos htracks]
        omega
      · have hrest := hnone hafter
        omega

/-- **The clock-skew state machine.** After any events: the skew is bounded; until the next reset it
is calibrated at most once; every probe was claimed at most as often as it was sent; and a packet
that is claimed, drained, consumed or too old is not relayed and not given to a plugin. -/
theorem skew_machine (wall mono : ℚ) (es : List Event) :
    ((Session.init wall mono).run es).SkewBounded ∧
      (∀ fs : List Event, (∀ e ∈ fs, e.isReset = false) →
        calibrations ((Session.init wall mono).run es) fs ≤ 1) ∧
      (∀ r, claimCount r (Session.init wall mono) es ≤ trackCount r es) ∧
      ∀ w c packet, Gate ((Session.init wall mono).run es) w packet c
        (receive ((Session.init wall mono).run es) w c packet) := by
  have hinit : (Session.init wall mono).SkewBounded := fun x hx => by cases hx
  refine ⟨skewBounded_run hinit es, fun fs hfs => calibrations_le_one _ hfs, fun r => ?_,
    fun w c packet => receive_gate _ w c packet⟩
  refine (claimCount_le r _ es).2 fun htracked => ?_
  obtain ⟨_, hmem, -⟩ := htracked
  cases hmem

end MMRelay.Radio
