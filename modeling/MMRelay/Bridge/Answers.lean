import MMRelay.Matrix.Single
import MMRelay.Mesh.Confinement

/-!
# What the handlers refer to

A packet that replies or reacts is relayed to the stored message that it refers to, and a message
for the radio that answers a packet answers the one that is stored with an event that it names.

* `Answers`, `Ordinary`, `Scheduled`, **`relays_scheduled`**: the calls of `matrix_relay` that
  `on_meshtastic_message` schedules;
* `Mentions`, `Refers`, **`onRoomMessage_refers`**: the messages that `on_room_message` enqueues.
-/

namespace MMRelay.Bridge

open MMRelay.Relay

/-! ## The mesh side -/

/-- A scheduled call answers a stored message in its room: a reply names its event, a reaction is an
emote that names none. -/
structure Answers (w : Mesh.World) (packet : Py) (row : MapRow) (r : Mesh.Relay) : Prop where
  row_eq : Mesh.referredRow w packet = some row
  room_eq : r.room = columnValue row.matrixRoomId
  emote_eq : r.emote = Mesh.isReaction w packet
  event_eq : r.replyToEventId = if r.emote then .none else columnValue row.matrixEventId

/-- A scheduled call that answers nothing. -/
structure Ordinary (r : Mesh.Relay) : Prop where
  emote : r.emote = false
  replyId : r.replyId = .none
  event : r.replyToEventId = .none

/-- The call carries the id of the packet, and is an ordinary message or answers the one that the
packet refers to. -/
structure Scheduled (w : Mesh.World) (packet : Py) (r : Mesh.Relay) : Prop where
  id_eq : r.meshtasticId = packet.field "id"
  answers : Ordinary r ∨ ∃ row, Answers w packet row r

section Mesh

variable {w : Mesh.World} {packet : Py} {r : Mesh.Relay}

theorem relayInteraction_scheduled {meshnetName : Py}
    (h : Mesh.relayInteraction w packet meshnetName = .ok (some r)) : Scheduled w packet r := by
  unfold Mesh.relayInteraction at h
  cases hrow : Mesh.referredRow w packet with
  | none =>
    rw [hrow] at h
    cases h
  | some row =>
    simp only [hrow] at h
    split_ifs at h with hreaction
    · obtain ⟨r', hr', hsome⟩ := except_map_eq_ok.mp h
      cases hsome
      have hroom := Mesh.relayReaction_room hr'
      simp only [Mesh.relayReaction, except_bind_eq_ok] at hr'
      obtain ⟨abbreviated, -, namePrefix, -, symbol, -, hok⟩ := hr'
      cases hok
      exact ⟨rfl, Or.inr ⟨row, hrow, hroom, hreaction.symm, rfl⟩⟩
    · obtain ⟨r', hr', hsome⟩ := except_map_eq_ok.mp h
      cases hsome
      have hroom := Mesh.relayReply_room hr'
      simp only [Mesh.relayReply, except_bind_eq_ok] at hr'
      obtain ⟨namePrefix, -, hok⟩ := hr'
      cases hok
      exact ⟨rfl, Or.inr ⟨row, hrow, hroom, (eq_false_of_ne_true hreaction).symm, rfl⟩⟩
    · cases h

theorem textRelay_scheduled {message : String} {longname shortname meshnetName room : Py}
    (h : r ∈ Mesh.textRelay packet message longname shortname meshnetName room) :
    Scheduled w packet r := by
  unfold Mesh.textRelay at h
  split at h
  · simp at h
  · rw [List.mem_singleton.mp h]
    exact ⟨rfl, Or.inl ⟨rfl, rfl, rfl⟩⟩

theorem relayText_scheduled {meshnetName : Py} {direct : Bool} {o : Mesh.Outcome}
    (h : Mesh.relayText w packet meshnetName direct = .ok o) (hr : r ∈ o.relays) :
    Scheduled w packet r := by
  simp only [Mesh.relayText, except_bind_eq_ok] at h
  obtain ⟨target, -, ⟨longname, shortname, saved⟩, -, namePrefix, -, hok⟩ := h
  cases hok
  simp only at hr
  split_ifs at hr
  · simp at hr
  · split at hr
    · simp at hr
    · obtain ⟨room, -, -, hrel⟩ := Mesh.mem_relayLoop hr
      exact textRelay_scheduled hrel

/-- **The mesh side.** -/
theorem relays_scheduled (h : r ∈ Mesh.relays w packet) : Scheduled w packet r := by
  cases hgates : Mesh.passGates w packet with
  | error e =>
    rw [Mesh.relays_of_halt hgates] at h
    simp at h
  | ok p =>
    obtain ⟨direct, meshnetName⟩ := p
    rw [Mesh.relays_of_passGates hgates] at h
    cases hint : Mesh.relayInteraction w packet meshnetName with
    | error e =>
      rw [hint] at h
      simp at h
    | ok o =>
      rw [hint] at h
      cases o with
      | some r' =>
        simp only [List.mem_singleton] at h
        rw [h]
        exact relayInteraction_scheduled hint
      | none =>
        simp only at h
        split_ifs at h
        · cases htext : Mesh.relayText w packet meshnetName direct with
          | error e =>
            rw [htext] at h
            simp at h
          | ok o =>
            rw [htext] at h
            exact relayText_scheduled htext h
        · simp at h

end Mesh

/-! ## The Matrix side -/

/-- The event names the event with this key: it replies or reacts to it. -/
def Mentions (w : Matrix.World) (e : Matrix.Event) (key : String) : Prop :=
  ∃ c, Matrix.readEvent w e = .ok c ∧
    (Matrix.eventKey w.builtins c.reaction.originalEventId = .ok (some key) ∨
      Matrix.eventKey w.builtins c.replyTo = .ok (some key))

/-- A message for the radio is stored under its event, and answers the packet that is stored with
an event that it names. -/
structure Refers (w : Matrix.World) (e : Matrix.Event) (s : Matrix.Send) : Prop where
  mapping : ∀ m, s.mapping = some m → m.matrixEventId = e.eventId ∧ m.roomId = w.roomId
  answers : ∀ n, s.function = .sendTextReply n → ∃ key row id, Mentions w e key ∧
    getMessageMapByMatrixEventId w.messageMap key = some row ∧ row.meshtasticId = some id ∧
    intOfStr id = some n

section Matrix

variable {w : Matrix.World} {e : Matrix.Event} {c : Matrix.Ctx} {s : Matrix.Send}

theorem mem_enqueueOn {purpose : Matrix.Purpose} {function : Matrix.SendFunction}
    {payload description : String} {mapping : Option Matrix.MappingInfo}
    (h : s ∈ Matrix.enqueueOn w c purpose function payload description mapping) :
    s.function = function ∧ s.mapping = mapping := by
  unfold Matrix.enqueueOn at h
  split at h
  · simp at h
  · split_ifs at h
    · rw [List.mem_singleton.mp h]
      exact ⟨rfl, rfl⟩
    · simp at h

theorem mappingFor_event {text : String} {m : Matrix.MappingInfo}
    (h : Matrix.mappingFor w e text = some m) : m.matrixEventId = e.eventId ∧ m.roomId = w.roomId := by
  unfold Matrix.mappingFor Matrix.createMappingInfo at h
  split_ifs at h
  cases h
  exact ⟨rfl, rfl⟩

theorem refers_of_plain (hf : ∀ n, s.function ≠ .sendTextReply n)
    (hm : s.mapping = none ∨ ∃ text, s.mapping = Matrix.mappingFor w e text) : Refers w e s := by
  refine ⟨fun m h => ?_, fun n hn => absurd hn (hf n)⟩
  obtain hnone | ⟨text, htext⟩ := hm
  · rw [hnone] at h
    cases h
  · exact mappingFor_event (htext.symm.trans h)

theorem numericId_eq_some {row : MapRow} {n : ℤ} (h : Matrix.numericId row = .ok (some n)) :
    ∃ id, row.meshtasticId = some id ∧ intOfStr id = some n := by
  unfold Matrix.numericId at h
  cases hid : row.meshtasticId with
  | none =>
    rw [hid] at h
    cases h
  | some id =>
    simp only [hid] at h
    split_ifs at h
    · cases hn : intOfStr id with
      | none =>
        rw [hn] at h
        cases h
      | some n' =>
        rw [hn] at h
        cases h
        exact ⟨id, rfl, hn⟩
    · cases h

theorem refers_of_row {key : String} {row : MapRow} {replyId : Option ℤ} (hkey : Mentions w e key)
    (hrow : getMessageMapByMatrixEventId w.messageMap key = some row)
    (hid : Matrix.numericId row = .ok replyId)
    (hf : ∀ n, s.function = .sendTextReply n → replyId = some n)
    (hm : s.mapping = none ∨ ∃ text, s.mapping = Matrix.mappingFor w e text) : Refers w e s := by
  refine ⟨fun m h => ?_, fun n hn => ?_⟩
  · obtain hnone | ⟨text, htext⟩ := hm
    · rw [hnone] at h
      cases h
    · exact mappingFor_event (htext.symm.trans h)
  · rw [hf n hn] at hid
    obtain ⟨id, hsome, hint⟩ := numericId_eq_some hid
    exact ⟨key, row, id, hkey, hrow, hsome, hint⟩

theorem storedOriginal_eq_some {eventId : Py} {row : MapRow}
    (h : Matrix.storedOriginal w eventId = .ok (some row)) :
    ∃ key, Matrix.eventKey w.builtins eventId = .ok (some key) ∧
      getMessageMapByMatrixEventId w.messageMap key = some row := by
  unfold Matrix.storedOriginal at h
  obtain ⟨key?, hkey, h⟩ := except_bind_eq_ok.mp h
  cases key? with
  | none => cases h
  | some key => exact ⟨key, hkey, Except.ok.inj h⟩

theorem relayReaction_refers (hread : Matrix.readEvent w e = .ok c) {sends : List Matrix.Send}
    (h : Matrix.relayReaction w e c = .ok (some sends)) (hs : s ∈ sends) : Refers w e s := by
  unfold Matrix.relayReaction at h
  split_ifs at h
  · cases h
  · obtain ⟨sends', hsends, heq⟩ := except_map_eq_ok.mp h
    cases heq
    simp only [Matrix.relayRemoteReaction, except_bind_eq_ok] at hsends
    obtain ⟨sender, -, preview, -, hok⟩ := hsends
    cases hok
    obtain ⟨hf, hm⟩ := mem_enqueueOn hs
    refine refers_of_plain (fun n hn => ?_) (Or.inl hm)
    rw [hf] at hn
    cases hn
  · obtain ⟨row?, hrow, h⟩ := except_bind_eq_ok.mp h
    cases row? with
    | none =>
      cases h
      cases hs
    | some row =>
      obtain ⟨key, hkey, hget⟩ := storedOriginal_eq_some hrow
      obtain ⟨sends', hsends, heq⟩ := except_map_eq_ok.mp h
      cases heq
      simp only [Matrix.relayLocalReaction, except_bind_eq_ok] at hsends
      obtain ⟨replyId, hid, preview, -, hok⟩ := hsends
      cases hok
      refine refers_of_row ⟨c, hread, Or.inl hkey⟩ hget hid (fun n hn => ?_) (Or.inl ?_)
      · cases replyId with
        | none =>
          rw [(mem_enqueueOn hs).1] at hn
          cases hn
        | some n' =>
          rw [(mem_enqueueOn hs).1] at hn
          cases hn
          rfl
      · cases replyId with
        | none => exact (mem_enqueueOn hs).2
        | some n' => exact (mem_enqueueOn hs).2
  · cases h

theorem handleMatrixReply_refers (hread : Matrix.readEvent w e = .ok c)
    {sends : List Matrix.Send} (h : Matrix.handleMatrixReply w e c = .ok sends) (hs : s ∈ sends) :
    Refers w e s := by
  unfold Matrix.handleMatrixReply at h
  split_ifs at h
  · obtain ⟨row?, hrow, h⟩ := except_bind_eq_ok.mp h
    cases row? with
    | none =>
      cases h
      cases hs
    | some row =>
      obtain ⟨key, hkey, hget⟩ := storedOriginal_eq_some hrow
      simp only [Matrix.replyTo, except_bind_eq_ok] at h
      obtain ⟨replyId, hid, reply, -, hok⟩ := h
      cases hok
      refine refers_of_row ⟨c, hread, Or.inr hkey⟩ hget hid (fun n hn => ?_) (Or.inr ⟨c.text, ?_⟩)
      · cases replyId with
        | none =>
          rw [(mem_enqueueOn hs).1] at hn
          cases hn
        | some n' =>
          rw [(mem_enqueueOn hs).1] at hn
          cases hn
          rfl
      · cases replyId with
        | none => exact (mem_enqueueOn hs).2
        | some n' => exact (mem_enqueueOn hs).2
  · cases h
    cases hs

theorem relayOrdinary_refers (hs : s ∈ Matrix.relayOrdinary w e c) : Refers w e s := by
  unfold Matrix.relayOrdinary at hs
  split at hs
  · simp at hs
  · next m hm =>
    split_ifs at hs
    · simp at hs
    · simp at hs
    · unfold Matrix.handleDetectionSensorPacket at hs
      split_ifs at hs
      · simp at hs
      · obtain ⟨hf, hmap⟩ := mem_enqueueOn hs
        refine refers_of_plain (fun n hn => ?_) (Or.inl hmap)
        rw [hf] at hn
        cases hn
    · obtain ⟨hf, hmap⟩ := mem_enqueueOn hs
      refine refers_of_plain (fun n hn => ?_) (Or.inr ⟨m.text, hmap⟩)
      rw [hf] at hn
      cases hn

/-- **The Matrix side.** -/
theorem onRoomMessage_refers (hs : s ∈ Matrix.onRoomMessage w e) : Refers w e s := by
  unfold Matrix.onRoomMessage at hs
  cases hread : Matrix.readEvent w e with
  | error err =>
    rw [hread] at hs
    simp at hs
  | ok c =>
    simp only [hread] at hs
    cases hreaction : Matrix.relayReaction w e c with
    | error err =>
      rw [hreaction] at hs
      simp at hs
    | ok sends? =>
      rw [hreaction] at hs
      cases sends? with
      | some sends => exact relayReaction_refers hread hreaction hs
      | none =>
        simp only [Matrix.relayMessage] at hs
        cases hreply : Matrix.handleMatrixReply w e c with
        | error err =>
          rw [hreply] at hs
          simp at hs
        | ok sends =>
          simp only [hreply] at hs
          split_ifs at hs
          · exact handleMatrixReply_refers hread hreply hs
          · rcases List.mem_append.mp hs with hmem | hmem
            · exact handleMatrixReply_refers hread hreply hmem
            · exact relayOrdinary_refers hmem

end Matrix

end MMRelay.Bridge
