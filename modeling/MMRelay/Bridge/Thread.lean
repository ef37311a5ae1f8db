import MMRelay.Bridge.Answers
import MMRelay.Matrix.Fidelity
import MMRelay.Matrix.Send
import MMRelay.MessageMap.Retention

/-!
# Threads across the bridge

The two handlers, the calls of `matrix_relay` that one of them schedules, the queue that the other
fills, and the message map that ties a packet to an event, in any interleaving: `matrix_relay`
(`matrix/relay.py`) stores the event that it has sent, `_handle_message_mapping`
(`message_queue.py`) the packet that the radio has sent.

* `storeRelayed`, `storeAired`: the two places that store a message;
* `State`, `Act`, `step`: the bridge, with the events and packets that it has really sent;
* `Bridged`: a packet and an event are the same message, seen from both sides;
* **`threads_true`**: rows, replies and reactions tie together what is the same message.
-/

namespace MMRelay.Bridge

open MMRelay.Relay MMRelay.MessageMap
open MMRelay.Matrix (RelaySide relayContent)
open MMRelay.Matrix.Sending (eventsOf)

/-! ## Storing -/

/-- A value as a text column; `none` if it cannot be bound, and nothing is stored. -/
def bindText (rt : Builtins) (p : Py) : Option (Option String) :=
  if p.isNone then some none
  else
    match Matrix.eventKey rt p with
    | .ok (some s) => some (some s)
    | _ => none

/-- What `matrix_relay` stores once its message is an event. -/
def storeRelayed (side : RelaySide) (r : Mesh.Relay) (eventId roomId : String)
    (t : MessageTable) : MessageTable :=
  if messageStorageEnabled (getInteractionSettings side.config) && !r.meshtasticId.isNone &&
      !r.emote then
    match bindText side.builtins (r.meshtasticText.orElse (.str r.message)),
        bindText side.builtins (Matrix.relayMeshnetName side r) with
    | some (some text), some meshnet =>
      storeMessageMap t (.str (r.meshtasticId.toStr side.builtins)) eventId roomId text meshnet
    | _, _ => t
  else t

/-- What `_handle_message_mapping` stores once the radio has sent a packet. -/
def storeAired (rt : Builtins) (m : Matrix.MappingInfo) (packetId : ℤ) (t : MessageTable) :
    MessageTable :=
  if m.matrixEventId.isEmpty || m.roomId.isEmpty || m.text.isEmpty then t
  else
    match bindText rt m.meshnet with
    | some meshnet =>
      storeMessageMap t (.str (toString packetId)) m.matrixEventId m.roomId m.text meshnet
    | none => t

/-- The rows as the handlers read them. -/
def mapRows (t : MessageTable) : List MapRow :=
  t.rows.map fun r => ⟨some r.data.meshtasticId, some r.key, some r.data.matrixRoomId,
    some r.data.meshtasticText, r.data.meshtasticMeshnet⟩

/-! ## The bridge -/

/-- A call of `matrix_relay` that the handler has scheduled. -/
structure Heard where
  world : Mesh.World
  packet : Py
  relay : Mesh.Relay

/-- A call of `matrix_relay` that has come to send: its place in the schedule and what it reads. -/
structure Task where
  place : ℕ
  side : RelaySide
  heard : Heard

/-- A message that the queue has accepted. -/
structure Queued where
  world : Matrix.World
  event : Matrix.Event
  send : Matrix.Send

/-- A message that the radio has sent, and the id of its packet. -/
structure Aired where
  queued : Queued
  packetId : ℤ

/-- The bridge. Each task has a call of `_send_matrix_message_with_retry` at its own place. -/
structure State where
  scheduled : List Heard
  tasks : List Task
  sending : Matrix.Sending.State
  queued : List Queued
  aired : List Aired
  table : MessageTable

def State.init : State := ⟨[], [], .init, [], [], RowTable.empty⟩

inductive Act
  /-- `on_meshtastic_message`. -/
  | hear (w : Mesh.World) (packet : Py)
  /-- A scheduled `matrix_relay` begins to send, with sixteen random bytes that no other has drawn. -/
  | relay (place : ℕ) (side : RelaySide) (roomId token : String)
  | attempt (i : ℕ) (view : Matrix.Sending.ClientView)
  | arrive (i : ℕ) (eventId : String)
  | finish (i : ℕ) (outcome : Matrix.Sending.Outcome)
  /-- A `matrix_relay` whose event is sent stores it. -/
  | store (i : ℕ)
  /-- `on_room_message`. -/
  | receive (w : Matrix.World) (e : Matrix.Event)
  /-- The radio sends a message of the queue, and its mapping is stored unless that fails. -/
  | air (k : ℕ) (packetId : ℤ) (stored : Bool)
  | prune (msgsToKeep : ℤ)
  | wipe

/-- A step of the calls that send. -/
def sendStep (s : State) (a : Matrix.Sending.Act) : Option State :=
  (Matrix.Sending.step s.sending a).map fun sending => { s with sending := sending }

/-- `max_retries` of `matrix_relay`. -/
def maxRetries : ℕ := 3

def step (s : State) : Act → Option State
  | .hear w packet =>
    if w.messageMap = mapRows s.table then
      some { s with
             scheduled := s.scheduled ++ (Mesh.relays w packet).map fun r => ⟨w, packet, r⟩ }
    else none
  | .relay place side roomId token =>
    match s.scheduled[place]? with
    | none => none
    | some h =>
      if h.relay.room.eqStr roomId && !(s.tasks.map Task.place).contains place &&
          !(s.sending.calls.map Matrix.Sending.Call.key).contains
            (roomId, Matrix.Sending.stableTransactionId none token) then
        (Matrix.Sending.step s.sending
          (.call roomId (relayContent side h.relay) none token maxRetries)).map fun sending =>
            { s with tasks := s.tasks ++ [⟨place, side, h⟩], sending := sending }
      else none
  | .attempt i view => sendStep s (.attempt i view)
  | .arrive i eventId => sendStep s (.arrive i eventId)
  | .finish i outcome => sendStep s (.finish i outcome)
  | .store i =>
    match s.tasks[i]?, s.sending.calls[i]? with
    | some task, some call =>
      match call.phase with
      | .returned (some eventId) =>
        some { s with
               table := storeRelayed task.side task.heard.relay eventId call.roomId s.table }
      | _ => none
    | _, _ => none
  | .receive w e =>
    if w.messageMap = mapRows s.table then
      some { s with
             queued := s.queued ++
               (Matrix.accepted w (Matrix.onRoomMessage w e)).map fun send => ⟨w, e, send⟩ }
    else none
  | .air k packetId stored =>
    match s.queued[k]? with
    | none => none
    | some q =>
      some { s with
             aired := s.aired ++ [⟨q, packetId⟩]
             table :=
              match q.send.mapping with
              | some m =>
                if stored then storeAired q.world.builtins m packetId s.table else s.table
              | none => s.table }
  | .prune msgsToKeep =>
    if 1 ≤ msgsToKeep then some { s with table := pruneMessageMap s.table msgsToKeep } else none
  | .wipe => some { s with table := RowTable.empty }

/-! ## What is the same message -/

/-- The homeserver has made the event in the room, for a packet with this id. -/
def FromMesh (s : State) (packetId eventId roomId : String) : Prop :=
  ∃ (i : ℕ) (task : Task) (call : Matrix.Sending.Call) (e : _), s.tasks[i]? = some task ∧
    s.sending.calls[i]? = some call ∧ e ∈ eventsOf s.sending call ∧ call.roomId = roomId ∧
    e.answer = eventId ∧ (task.heard.packet.field "id").toStr task.side.builtins = packetId

/-- The radio has sent a packet with this id, for the event in the room. -/
def ToMesh (s : State) (packetId eventId roomId : String) : Prop :=
  ∃ a ∈ s.aired, a.queued.event.eventId = eventId ∧ a.queued.world.roomId = roomId ∧
    toString a.packetId = packetId

/-- The packet and the event are the same message. -/
def Bridged (s : State) (packetId eventId roomId : String) : Prop :=
  FromMesh s packetId eventId roomId ∨ ToMesh s packetId eventId roomId

/-- A scheduled call is an ordinary message, or goes to the room of the message that its packet
refers to: a reply as an answer to its event, a reaction as an emote. -/
def TrueRelay (s : State) (h : Heard) : Prop :=
  Ordinary h.relay ∨
    ∃ eventId roomId, h.relay.room = .str roomId ∧
      h.relay.emote = Mesh.isReaction h.world h.packet ∧
      h.relay.replyToEventId = (if h.relay.emote then .none else .str eventId) ∧
      Bridged s (((Mesh.decodedOf h.packet).field "replyId").toStr h.world.builtins) eventId roomId

/-- A message of the queue that answers a packet answers the message that its event names. -/
def TrueSend (s : State) (q : Queued) : Prop :=
  ∀ n, q.send.function = .sendTextReply n → ∃ packetId eventId roomId,
    Mentions q.world q.event eventId ∧ intOfStr packetId = some n ∧
      Bridged s packetId eventId roomId

/-! ## What a step leaves alone -/

/-- The bridge forgets nothing that it has sent. -/
structure Grows (s s' : State) : Prop where
  tasks : ∀ (i : ℕ) task, s.tasks[i]? = some task → s'.tasks[i]? = some task
  calls : ∀ (i : ℕ) c, s.sending.calls[i]? = some c → ∃ c', s'.sending.calls[i]? = some c' ∧
    c'.roomId = c.roomId ∧ eventsOf s.sending c ⊆ eventsOf s'.sending c'
  aired : s.aired ⊆ s'.aired

theorem FromMesh.mono {s s' : State} (h : Grows s s') {packetId eventId roomId : String}
    (hf : FromMesh s packetId eventId roomId) : FromMesh s' packetId eventId roomId := by
  obtain ⟨i, task, call, e, htask, hcall, he, hroom, hanswer, hid⟩ := hf
  obtain ⟨call', hcall', hroom', hsub⟩ := h.calls i call hcall
  exact ⟨i, task, call', e, h.tasks i task htask, hcall', hsub he, hroom'.trans hroom, hanswer, hid⟩

theorem Bridged.mono {s s' : State} (h : Grows s s') {packetId eventId roomId : String}
    (hb : Bridged s packetId eventId roomId) : Bridged s' packetId eventId roomId := by
  rcases hb with hf | ⟨a, ha, hrest⟩
  · exact Or.inl (hf.mono h)
  · exact Or.inr ⟨a, h.aired ha, hrest⟩

theorem TrueRelay.mono {s s' : State} (h : Grows s s') {x : Heard} (hx : TrueRelay s x) :
    TrueRelay s' x := by
  rcases hx with hplain | ⟨eventId, roomId, hroom, hemote, hevent, hb⟩
  · exact Or.inl hplain
  · exact Or.inr ⟨eventId, roomId, hroom, hemote, hevent, hb.mono h⟩

theorem TrueSend.mono {s s' : State} (h : Grows s s') {q : Queued} (hq : TrueSend s q) :
    TrueSend s' q := by
  intro n hn
  obtain ⟨packetId, eventId, roomId, hm, hid, hb⟩ := hq n hn
  exact ⟨packetId, eventId, roomId, hm, hid, hb.mono h⟩

theorem grows_of_eq {s s' : State} (htasks : s'.tasks = s.tasks) (hsending : s'.sending = s.sending)
    (haired : s.aired ⊆ s'.aired) : Grows s s' := by
  refine ⟨fun i task h => ?_, fun i c h => ⟨c, ?_, rfl, ?_⟩, haired⟩
  · rw [htasks]
    exact h
  · rw [hsending]
    exact h
  · rw [hsending]
    exact List.Subset.refl _

theorem grows_of_sending {s s' : State} {a : Matrix.Sending.Act}
    (hstep : Matrix.Sending.step s.sending a = some s'.sending)
    (htasks : ∀ (i : ℕ) task, s.tasks[i]? = some task → s'.tasks[i]? = some task)
    (haired : s.aired ⊆ s'.aired) : Grows s s' := by
  refine ⟨htasks, fun i c hc => ?_, haired⟩
  obtain ⟨c', hc', hsame⟩ := Matrix.Sending.calls_step hstep hc
  exact ⟨c', hc', congrArg Prod.fst hsame.key, Matrix.Sending.eventsOf_step hstep hsame⟩

/-- **Each step** only adds. -/
theorem grows_step {s s' : State} {a : Act} (h : step s a = some s') : Grows s s' := by
  cases a with
  | hear w packet =>
    dsimp only [step] at h
    split_ifs at h
    cases h
    exact grows_of_eq rfl rfl (List.Subset.refl _)
  | relay place side roomId transactionId =>
    dsimp only [step] at h
    split at h
    · cases h
    · split_ifs at h
      obtain ⟨sending, hsending, rfl⟩ := Option.map_eq_some_iff.mp h
      refine grows_of_sending hsending (fun i task htask => ?_) (List.Subset.refl _)
      rw [List.getElem?_append_left (List.getElem?_eq_some_iff.mp htask).1, htask]
  | attempt i view =>
    obtain ⟨sending, hsending, rfl⟩ := Option.map_eq_some_iff.mp h
    exact grows_of_sending hsending (fun _ _ htask => htask) (List.Subset.refl _)
  | arrive i eventId =>
    obtain ⟨sending, hsending, rfl⟩ := Option.map_eq_some_iff.mp h
    exact grows_of_sending hsending (fun _ _ htask => htask) (List.Subset.refl _)
  | finish i outcome =>
    obtain ⟨sending, hsending, rfl⟩ := Option.map_eq_some_iff.mp h
    exact grows_of_sending hsending (fun _ _ htask => htask) (List.Subset.refl _)
  | store i =>
    dsimp only [step] at h
    split at h
    · split at h
      · cases h
        exact grows_of_eq rfl rfl (List.Subset.refl _)
      · cases h
    · cases h
  | receive w e =>
    dsimp only [step] at h
    split_ifs at h
    cases h
    exact grows_of_eq rfl rfl (List.Subset.refl _)
  | air k packetId stored =>
    dsimp only [step] at h
    split at h
    · cases h
    · cases h
      exact grows_of_eq rfl rfl (List.subset_append_left _ _)
  | prune msgsToKeep =>
    dsimp only [step] at h
    split_ifs at h
    cases h
    exact grows_of_eq rfl rfl (List.Subset.refl _)
  | wipe =>
    cases h
    exact grows_of_eq rfl rfl (List.Subset.refl _)

/-! ## The message map -/

section Table

variable {t : MessageTable} {key : String} {row : MapRow}

theorem mem_mapRows (h : row ∈ mapRows t) :
    ∃ r ∈ t.rows, row.meshtasticId = some r.data.meshtasticId ∧ row.matrixEventId = some r.key ∧
      row.matrixRoomId = some r.data.matrixRoomId := by
  obtain ⟨r, hr, rfl⟩ := List.mem_map.mp h
  exact ⟨r, hr, rfl, rfl, rfl⟩

theorem row_of_meshtasticId (h : getMessageMapByMeshtasticId (mapRows t) key = some row) :
    ∃ r ∈ t.rows, r.data.meshtasticId = key ∧ row.matrixEventId = some r.key ∧
      row.matrixRoomId = some r.data.matrixRoomId := by
  obtain ⟨hmem, hkey⟩ := getMessageMapByMeshtasticId_eq_some h
  obtain ⟨r, hr, hid, hevent, hroom⟩ := mem_mapRows hmem
  exact ⟨r, hr, Option.some.inj (hid.symm.trans hkey), hevent, hroom⟩

theorem row_of_matrixEventId (h : getMessageMapByMatrixEventId (mapRows t) key = some row) :
    ∃ r ∈ t.rows, r.key = key ∧ row.meshtasticId = some r.data.meshtasticId := by
  have hmem := List.mem_of_find?_eq_some h
  have hkey : row.matrixEventId = some key := by simpa using List.find?_some h
  obtain ⟨r, hr, hid, hevent, -⟩ := mem_mapRows hmem
  exact ⟨r, hr, Option.some.inj (hevent.symm.trans hkey), hid⟩

variable {r : TableRow String Entry} {eventId roomId : String}

theorem mem_storeRelayed {side : RelaySide} {x : Mesh.Relay}
    (h : r ∈ (storeRelayed side x eventId roomId t).rows) :
    r ∈ t.rows ∨ r.key = eventId ∧ r.data.matrixRoomId = roomId ∧
      r.data.meshtasticId = x.meshtasticId.toStr side.builtins := by
  unfold storeRelayed at h
  split_ifs at h
  · split at h
    · rcases RowTable.mem_rows_upsert h with hold | ⟨hkey, hdata⟩
      · exact Or.inl hold
      · rw [hdata]
        exact Or.inr ⟨hkey, rfl, rfl⟩
    · exact Or.inl h
  · exact Or.inl h

theorem mem_storeAired {rt : Builtins} {m : Matrix.MappingInfo} {packetId : ℤ}
    (h : r ∈ (storeAired rt m packetId t).rows) :
    r ∈ t.rows ∨ r.key = m.matrixEventId ∧ r.data.matrixRoomId = m.roomId ∧
      r.data.meshtasticId = toString packetId := by
  unfold storeAired at h
  split_ifs at h
  · exact Or.inl h
  · split at h
    · rcases RowTable.mem_rows_upsert h with hold | ⟨hkey, hdata⟩
      · exact Or.inl hold
      · rw [hdata]
        exact Or.inr ⟨hkey, rfl, rfl⟩
    · exact Or.inl h

end Table

/-! ## The invariant -/

/-- The task is that of its place in the schedule, and its call sends the content for it. -/
structure Fits (task : Task) (call : Matrix.Sending.Call) : Prop where
  room : task.heard.relay.room = .str call.roomId
  content : call.content = relayContent task.side task.heard.relay

/-- Rows, scheduled calls and queued messages tie together what is the same message; each scheduled
call is made at most once, and sends what it has to. -/
structure Sound (s : State) : Prop where
  rows : ∀ r ∈ s.table.rows, Bridged s r.data.meshtasticId r.key r.data.matrixRoomId
  scheduled : ∀ x ∈ s.scheduled, Scheduled x.world x.packet x.relay ∧ TrueRelay s x
  queued : ∀ q ∈ s.queued, Refers q.world q.event q.send ∧ TrueSend s q
  tasks : ∀ task ∈ s.tasks, s.scheduled[task.place]? = some task.heard
  places : (s.tasks.map Task.place).Nodup
  length : s.tasks.length = s.sending.calls.length
  fits : ∀ (i : ℕ) task call, s.tasks[i]? = some task → s.sending.calls[i]? = some call →
    Fits task call
  keys : (s.sending.calls.map Matrix.Sending.Call.key).Nodup
  net : Retransmit.Sound s.sending.net
  lockstep : Matrix.Sending.Lockstep s.sending

theorem sound_init : Sound State.init where
  rows _ h := by cases h
  scheduled _ h := by cases h
  queued _ h := by cases h
  tasks _ h := by cases h
  places := List.nodup_nil
  length := rfl
  fits _ _ _ h := by cases h
  keys := List.nodup_nil
  net := Retransmit.sound_init
  lockstep := Matrix.Sending.lockstep_init

theorem Sound.table {s s' : State} (h : Sound s) (hscheduled : s'.scheduled = s.scheduled)
    (htasks : s'.tasks = s.tasks) (hsending : s'.sending = s.sending)
    (hqueued : s'.queued = s.queued) (haired : s.aired ⊆ s'.aired)
    (hrows : ∀ r ∈ s'.table.rows, r ∈ s.table.rows ∨
      Bridged s' r.data.meshtasticId r.key r.data.matrixRoomId) : Sound s' := by
  have hgrows := grows_of_eq htasks hsending haired
  refine ⟨fun r hr => ?_, ?_, ?_, ?_, ?_, ?_, ?_, ?_, ?_, ?_⟩
  · rcases hrows r hr with hold | hnew
    · exact (h.rows r hold).mono hgrows
    · exact hnew
  · rw [hscheduled]
    exact fun x hx => ⟨(h.scheduled x hx).1, (h.scheduled x hx).2.mono hgrows⟩
  · rw [hqueued]
    exact fun q hq => ⟨(h.queued q hq).1, (h.queued q hq).2.mono hgrows⟩
  · rw [htasks, hscheduled]
    exact h.tasks
  · rw [htasks]
    exact h.places
  · rw [htasks, hsending]
    exact h.length
  · rw [htasks, hsending]
    exact h.fits
  · rw [hsending]
    exact h.keys
  · rw [hsending]
    exact h.net
  · rw [hsending]
    exact h.lockstep

theorem Sound.trueRelay {s : State} (h : Sound s) {w : Mesh.World} {packet : Py} {r : Mesh.Relay}
    (hw : w.messageMap = mapRows s.table) (hr : r ∈ Mesh.relays w packet) :
    TrueRelay s ⟨w, packet, r⟩ := by
  rcases (relays_scheduled hr).answers with hplain | ⟨row, hrow, hroom, hemote, hevent⟩
  · exact Or.inl hplain
  unfold Mesh.referredRow at hrow
  rw [hw] at hrow
  obtain ⟨x, hx, hid, hkey, hroomId⟩ := row_of_meshtasticId hrow
  refine Or.inr ⟨x.key, x.data.matrixRoomId, ?_, hemote, ?_, ?_⟩
  · rw [hroom, hroomId]
    rfl
  · rw [hkey] at hevent
    exact hevent
  · have hb := h.rows x hx
    rw [hid] at hb
    exact hb

theorem Sound.trueSend {s : State} (h : Sound s) {w : Matrix.World} {e : Matrix.Event}
    {m : Matrix.Send} (hw : w.messageMap = mapRows s.table) (hm : m ∈ Matrix.onRoomMessage w e) :
    TrueSend s ⟨w, e, m⟩ := by
  intro n hn
  obtain ⟨key, row, id, hmentions, hrow, hid, hint⟩ := (onRoomMessage_refers hm).answers n hn
  rw [hw] at hrow
  obtain ⟨x, hx, hkey, hrowId⟩ := row_of_matrixEventId hrow
  obtain rfl : x.data.meshtasticId = id := Option.some.inj (hrowId.symm.trans hid)
  have hb := h.rows x hx
  rw [hkey] at hb
  exact ⟨x.data.meshtasticId, key, x.data.matrixRoomId, hmentions, hint, hb⟩

theorem Sound.sendStep {s s' : State} (h : Sound s) {a : Matrix.Sending.Act}
    (ha : ∀ r x t k m, a ≠ .call r x t k m) (hs : Bridge.sendStep s a = some s') : Sound s' := by
  obtain ⟨sending, hsending, rfl⟩ := Option.map_eq_some_iff.mp hs
  have hgrows : Grows s { s with sending := sending } :=
    grows_of_sending hsending (fun _ _ htask => htask) (List.Subset.refl _)
  refine ⟨fun r hr => (h.rows r hr).mono hgrows,
    fun x hx => ⟨(h.scheduled x hx).1, (h.scheduled x hx).2.mono hgrows⟩,
    fun q hq => ⟨(h.queued q hq).1, (h.queued q hq).2.mono hgrows⟩, h.tasks, h.places, ?_, ?_,
    ?_, Matrix.Sending.net_step h.net hsending, Matrix.Sending.lockstep_step h.lockstep hsending⟩
  · rw [Matrix.Sending.length_step hsending ha]
    exact h.length
  · intro i task call htask hcall
    have hlt : i < s.sending.calls.length := by
      rw [← h.length]
      exact (List.getElem?_eq_some_iff.mp htask).1
    obtain ⟨call', hcall', hsame⟩ :=
      Matrix.Sending.calls_step hsending (List.getElem?_eq_getElem hlt)
    rw [hcall] at hcall'
    cases hcall'
    have hfits := h.fits i task _ htask (List.getElem?_eq_getElem hlt)
    refine ⟨hfits.room.trans ?_, hsame.content.trans hfits.content⟩
    exact congrArg (fun k => Py.str k.1) hsame.key.symm
  · rw [Matrix.Sending.keys_step hsending ha]
    exact h.keys

theorem Sound.relay {s s' : State} (h : Sound s) {place : ℕ} {side : RelaySide}
    {roomId token : String} (hs : step s (.relay place side roomId token) = some s') :
    Sound s' := by
  have hgrows := grows_step hs
  dsimp only [step] at hs
  split at hs
  · cases hs
  next x hx =>
  split_ifs at hs with hguard
  obtain ⟨sending, hsending, rfl⟩ := Option.map_eq_some_iff.mp hs
  obtain ⟨hguard, hdrawn⟩ := Bool.and_eq_true_iff.mp hguard
  obtain ⟨hroom, hfree⟩ := Bool.and_eq_true_iff.mp hguard
  have hplace : place ∉ s.tasks.map Task.place := by simpa using hfree
  have hcalls := (Matrix.Sending.step_eq_some.mp hsending).1
  have hcalls' : sending.calls = s.sending.calls ++
      [{ roomId := roomId, content := relayContent side x.relay
         transactionId := Matrix.Sending.stableTransactionId none token
         maxRetries := maxRetries }] := (Option.some.inj hcalls).symm
  refine ⟨fun r hr => (h.rows r hr).mono hgrows,
    fun y hy => ⟨(h.scheduled y hy).1, (h.scheduled y hy).2.mono hgrows⟩,
    fun q hq => ⟨(h.queued q hq).1, (h.queued q hq).2.mono hgrows⟩, ?_, ?_, ?_, ?_, ?_,
    Matrix.Sending.net_step h.net hsending, Matrix.Sending.lockstep_step h.lockstep hsending⟩
  · intro task htask
    rcases List.mem_append.mp htask with hold | hnew
    · exact h.tasks task hold
    · rw [List.mem_singleton.mp hnew]
      exact hx
  · rw [List.map_append, List.map_singleton]
    exact h.places.append (List.nodup_singleton _) (List.disjoint_singleton.mpr hplace)
  · rw [hcalls', List.length_append, List.length_append, h.length]
    rfl
  · intro i task call htask hcall
    rw [hcalls'] at hcall
    rcases Nat.lt_or_ge i s.tasks.length with hlt | hge
    · rw [List.getElem?_append_left hlt] at htask
      rw [List.getElem?_append_left (by rwa [← h.length])] at hcall
      exact h.fits i task call htask hcall
    · rw [List.getElem?_append_right hge, List.getElem?_singleton] at htask
      rw [List.getElem?_append_right (by rwa [← h.length]), List.getElem?_singleton] at hcall
      split_ifs at htask hcall
      cases htask
      cases hcall
      refine ⟨?_, rfl⟩
      unfold Py.eqStr at hroom
      split at hroom
      · next t ht => rw [ht, of_decide_eq_true hroom]
      · cases hroom
  · rw [hcalls', List.map_append, List.map_singleton]
    refine h.keys.append (List.nodup_singleton _) (List.disjoint_singleton.mpr ?_)
    simpa [Matrix.Sending.Call.key] using hdrawn

/-- **Each step** keeps the invariant. -/
theorem sound_step {s s' : State} {a : Act} (h : Sound s) (hs : step s a = some s') : Sound s' := by
  have hgrows := grows_step hs
  cases a with
  | hear w packet =>
    dsimp only [step] at hs
    split_ifs at hs with hw
    cases hs
    refine ⟨fun r hr => (h.rows r hr).mono hgrows, fun x hx => ?_,
      fun q hq => ⟨(h.queued q hq).1, (h.queued q hq).2.mono hgrows⟩, fun task htask => ?_,
      h.places, h.length, h.fits, h.keys, h.net, h.lockstep⟩
    · rcases List.mem_append.mp hx with hold | hnew
      · exact ⟨(h.scheduled x hold).1, (h.scheduled x hold).2.mono hgrows⟩
      · obtain ⟨r, hr, rfl⟩ := List.mem_map.mp hnew
        exact ⟨relays_scheduled hr, (h.trueRelay hw hr).mono hgrows⟩
    · have hold := h.tasks task htask
      rw [List.getElem?_append_left (List.getElem?_eq_some_iff.mp hold).1, hold]
  | relay place side roomId transactionId => exact h.relay hs
  | attempt i view => exact h.sendStep (fun _ _ _ _ _ hbad => by cases hbad) hs
  | arrive i eventId => exact h.sendStep (fun _ _ _ _ _ hbad => by cases hbad) hs
  | finish i outcome => exact h.sendStep (fun _ _ _ _ _ hbad => by cases hbad) hs
  | store i =>
    dsimp only [step] at hs
    split at hs
    · next task call htask hcall =>
      split at hs
      · next eventId hphase =>
        cases hs
        refine h.table rfl rfl rfl rfl (List.Subset.refl _) fun r hr => ?_
        rcases mem_storeRelayed hr with hold | ⟨hkey, hroom, hid⟩
        · exact Or.inl hold
        -- the event that the call returned is the one in the room
        have hevents := (Matrix.Sending.sentOnce_of h.net h.lockstep hcall).returned eventId hphase
        have hheard := h.tasks task (List.mem_of_getElem? htask)
        have hpacket := (h.scheduled _ (List.mem_of_getElem? hheard)).1.id_eq
        obtain ⟨e, he, hanswer⟩ : ∃ e ∈ eventsOf s.sending call, e.answer = eventId := by
          have hmem : eventId ∈ (eventsOf s.sending call).map Retransmit.Entry.answer := by
            rw [hevents]
            exact List.mem_singleton_self _
          exact List.mem_map.mp hmem
        refine Or.inr (Or.inl ⟨i, task, call, e, htask, hcall, he, hroom.symm, ?_, ?_⟩)
        · exact hanswer.trans hkey.symm
        · rw [hid, hpacket]
      · cases hs
    · cases hs
  | receive w e =>
    dsimp only [step] at hs
    split_ifs at hs with hw
    cases hs
    refine ⟨fun r hr => (h.rows r hr).mono hgrows,
      fun x hx => ⟨(h.scheduled x hx).1, (h.scheduled x hx).2.mono hgrows⟩, fun q hq => ?_,
      h.tasks, h.places, h.length, h.fits, h.keys, h.net, h.lockstep⟩
    rcases List.mem_append.mp hq with hold | hnew
    · exact ⟨(h.queued q hold).1, (h.queued q hold).2.mono hgrows⟩
    · obtain ⟨m, hm, rfl⟩ := List.mem_map.mp hnew
      have hmem := Matrix.accepted_subset hm
      exact ⟨onRoomMessage_refers hmem, (h.trueSend hw hmem).mono hgrows⟩
  | air k packetId stored =>
    dsimp only [step] at hs
    split at hs
    · cases hs
    next q hq =>
    cases hs
    refine h.table rfl rfl rfl rfl (List.subset_append_left _ _) fun r hr => ?_
    dsimp only at hr
    split at hr
    · next m hm =>
      split_ifs at hr
      · rcases mem_storeAired hr with hold | ⟨hkey, hroom, hid⟩
        · exact Or.inl hold
        obtain ⟨hevent, hroomId⟩ := (h.queued q (List.mem_of_getElem? hq)).1.mapping m hm
        refine Or.inr (Or.inr ⟨⟨q, packetId⟩, List.mem_append_right _ (by simp), ?_, ?_, ?_⟩)
        · exact (hkey.trans hevent).symm
        · exact (hroom.trans hroomId).symm
        · exact hid.symm
      · exact Or.inl hr
    · exact Or.inl hr
  | prune msgsToKeep =>
    dsimp only [step] at hs
    split_ifs at hs with hk
    cases hs
    refine h.table rfl rfl rfl rfl (List.Subset.refl _) fun r hr => Or.inl ?_
    rw [rows_prune s.table hk] at hr
    exact List.mem_of_mem_drop hr
  | wipe =>
    cases hs
    exact h.table rfl rfl rfl rfl (List.Subset.refl _) fun r hr => by cases hr

theorem sound_run {as : List Act} {s : State} (h : runActs step State.init as = some s) :
    Sound s :=
  runActs_keeps (fun _ _ _ hs hstep => sound_step hs hstep) sound_init h

/-! ## Threads -/

/-- **Threads are true.** In every state of a run, with whatever faults and whatever order of
packets, events, sends and stores: each row of the message map ties an event in its room to a
packet that is the same message; each reply and reaction that is scheduled goes to the message it
answers, and each one that is queued answers the packet of the event that it names; and each
scheduled call leaves at most one event, its own. -/
theorem threads_true (as : List Act) (s : State) (hrun : runActs step State.init as = some s) :
    (∀ r ∈ s.table.rows, Bridged s r.data.meshtasticId r.key r.data.matrixRoomId) ∧
    (∀ x ∈ s.scheduled, TrueRelay s x) ∧
    (∀ q ∈ s.queued, TrueSend s q) ∧
    (s.tasks.map Task.place).Nodup ∧
    (∀ (i : ℕ) task, s.tasks[i]? = some task → ∃ call, s.sending.calls[i]? = some call ∧
      Fits task call ∧ Matrix.Sending.Alone s.sending i call ∧
        Matrix.Sending.SentOnce s.sending i call) := by
  have h := sound_run hrun
  refine ⟨h.rows, fun x hx => (h.scheduled x hx).2, fun q hq => (h.queued q hq).2, h.places,
    fun i task htask => ?_⟩
  have hlt : i < s.sending.calls.length := by
    rw [← h.length]
    exact (List.getElem?_eq_some_iff.mp htask).1
  have hcall := List.getElem?_eq_getElem hlt
  exact ⟨_, hcall, h.fits i task _ htask hcall, Matrix.Sending.alone_of_nodup h.keys hcall,
    Matrix.Sending.sentOnce_of h.net h.lockstep hcall⟩

/-- A relay without stored messages. -/
def threadWorld (rows : List MapRow) : Mesh.World := { Mesh.demoWorld with messageMap := rows }

def threadSide : RelaySide where
  builtins := Mesh.demoWorld.builtins
  config := Mesh.demoWorld.config
  botUserId := "@bot:x"
  formatBody text := text
  escape text := text
  original _ := none

/-- A packet becomes an event, which is stored, and a packet that replies to it. -/
def threadRun : List Act :=
  [.hear (threadWorld []) (Mesh.demoPacket Mesh.broadcastNum []),
    .relay 0 threadSide "!a" "t", .attempt 0 ⟨fun _ => some false, false⟩, .arrive 0 "$1",
    .finish 0 (.event "$1"), .store 0,
    .hear (threadWorld [⟨some "99", some "$1", some "!a", some "ok", some "mesh"⟩])
      (Mesh.demoPacket Mesh.broadcastNum [("replyId", .int 99)])]

theorem threads_true_reply : ∃ s, runActs step State.init threadRun = some s ∧
    ∃ x ∈ s.scheduled, x.relay.replyToEventId.eqStr "$1" = true ∧ TrueRelay s x := by
  have hrun : ((runActs step State.init threadRun).any fun s =>
      s.scheduled.any fun x => x.relay.replyToEventId.eqStr "$1") = true := by decide +kernel
  obtain ⟨s, hs, hany⟩ := (Option.any_eq_true _ _).mp hrun
  obtain ⟨x, hx, hevent⟩ := List.any_eq_true.mp hany
  exact ⟨s, hs, x, hx, hevent, (threads_true threadRun s hs).2.1 x hx⟩

end MMRelay.Bridge
