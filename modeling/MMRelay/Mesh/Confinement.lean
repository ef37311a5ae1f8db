import MMRelay.Mesh.Handler

/-!
# Where a received packet may go

* `Leaks`: the packet is a reaction or a reply, its kind is enabled, the message it refers to is
  stored and the call can be built.
* **`direct_confined_iff`**: a packet addressed to the relay's own node is not published to Matrix
  if and only if it does not leak in this way.
* `OnChannel`: the call targets a room of the configuration on the packet's channel.
* **`relays_confined`**: a call goes to the room of the stored message for a reaction or a reply,
  and to a room on the packet's channel for everything else.
-/

namespace MMRelay.Mesh

open MMRelay.Relay

variable {w : World} {packet : Py}

/-! ## The prelude -/

/-- The gates decide whether the message is a direct one as `isDirectMessage` does. -/
theorem passGates_direct {direct : Bool} {meshnetName : Py}
    (h : passGates w packet = .ok (direct, meshnetName)) :
    isDirectMessage w packet = .ok direct := by
  unfold passGates at h
  simp only [except_bind_eq_ok] at h
  obtain ⟨-, -, -, -, -, -, -, -, -, -, -, -, -, -, d, hd, m, -, hok⟩ := h
  cases hok
  exact hd

theorem isDirectMessage_of_own {me : ℤ} (hme : w.myNodeNum = some me)
    (hto : (packet.field "to").eqInt me = true) : isDirectMessage w packet = .ok true := by
  unfold isDirectMessage
  rw [hme]
  simp [hto]

/-! ## The two branches that answer a stored message -/

/-- The stored message that a reaction or a reply of an enabled kind refers to. -/
def interactionRow (w : World) (packet : Py) : Option MapRow :=
  if isReaction w packet || isReply w packet then referredRow w packet else none

/-- The prefix of the answer to `row` can be rendered. -/
def prefixRenders (w : World) (packet : Py) (row : MapRow) (meshnetName : Py) : Bool :=
  (getMatrixPrefix w.builtins w.config
    (.str (getNameSafely w.builtins w.getLongname (senderOf packet)))
    (.str (getNameSafely w.builtins w.getShortname (senderOf packet)))
    (rowMeshnet row meshnetName)).isOk

/-- The text of a reaction is a string, or empty. -/
def textStrips (packet : Py) : Bool :=
  match (decodedOf packet).field "text" with
  | .str _ => true
  | x => !x.truthy

/-- The answer to `row` can be built: nothing on the way to it raises. -/
def answerRenders (w : World) (packet : Py) (row : MapRow) (meshnetName : Py) : Bool :=
  prefixRenders w packet row meshnetName &&
    (!isReaction w packet || (row.meshtasticText.isSome && textStrips packet))

theorem abbreviatedText_isOk (t : Option String) :
    (∃ s, abbreviatedText t = .ok s) ↔ t.isSome = true := by
  cases t with
  | none => simp [abbreviatedText]
  | some s => simp [abbreviatedText]

theorem reactionSymbol_isOk (packet : Py) :
    (∃ s, reactionSymbol ((decodedOf packet).field "text") = .ok s) ↔
      textStrips packet = true := by
  unfold reactionSymbol textStrips
  cases (decodedOf packet).field "text" with
  | str s => simp
  | _ =>
    dsimp only
    generalize Py.truthy _ = truthy
    cases truthy <;> simp

theorem relayReaction_isOk {row : MapRow} {meshnetName : Py} :
    (∃ r, relayReaction w packet row meshnetName = .ok r) ↔
      prefixRenders w packet row meshnetName = true ∧ row.meshtasticText.isSome = true ∧
        textStrips packet = true := by
  rw [← abbreviatedText_isOk, ← reactionSymbol_isOk, prefixRenders, isOk_iff]
  simp only [relayReaction, except_bind_eq_ok]
  constructor
  · rintro ⟨r, abbr, habbr, pre, hpre, sym, hsym, -⟩
    exact ⟨⟨pre, hpre⟩, ⟨abbr, habbr⟩, ⟨sym, hsym⟩⟩
  · rintro ⟨⟨pre, hpre⟩, ⟨abbr, habbr⟩, ⟨sym, hsym⟩⟩
    exact ⟨_, abbr, habbr, pre, hpre, sym, hsym, rfl⟩

theorem relayReply_isOk {row : MapRow} {meshnetName : Py} :
    (∃ r, relayReply w packet row meshnetName = .ok r) ↔
      prefixRenders w packet row meshnetName = true := by
  rw [prefixRenders, isOk_iff]
  simp only [relayReply, except_bind_eq_ok]
  constructor
  · rintro ⟨r, pre, hpre, -⟩
    exact ⟨pre, hpre⟩
  · rintro ⟨pre, hpre⟩
    exact ⟨_, pre, hpre, rfl⟩

theorem relayReaction_room {row : MapRow} {meshnetName : Py} {r : Relay}
    (h : relayReaction w packet row meshnetName = .ok r) : r.room = columnValue row.matrixRoomId := by
  simp only [relayReaction, except_bind_eq_ok] at h
  obtain ⟨_, -, _, -, _, -, hok⟩ := h
  cases hok
  rfl

theorem relayReply_room {row : MapRow} {meshnetName : Py} {r : Relay}
    (h : relayReply w packet row meshnetName = .ok r) : r.room = columnValue row.matrixRoomId := by
  simp only [relayReply, except_bind_eq_ok] at h
  obtain ⟨_, -, hok⟩ := h
  cases hok
  rfl

theorem relayInteraction_of_none {meshnetName : Py} (h : interactionRow w packet = none) :
    relayInteraction w packet meshnetName = .ok none := by
  unfold relayInteraction
  cases hrow : referredRow w packet with
  | none => rfl
  | some row =>
    have hkind : (isReaction w packet || isReply w packet) = false := by
      by_contra hne
      rw [interactionRow, if_pos (Bool.of_not_eq_false hne), hrow] at h
      cases h
    rw [Bool.or_eq_false_iff] at hkind
    simp [hkind.1, hkind.2]

/-- With a stored message to answer, a call is scheduled exactly when it can be built, and it
goes to the room of that message. -/
theorem relayInteraction_of_some (meshnetName : Py) {row : MapRow}
    (h : interactionRow w packet = some row) :
    (∀ o, relayInteraction w packet meshnetName = .ok o →
      ∃ r, o = some r ∧ r.room = columnValue row.matrixRoomId) ∧
    ((∃ o, relayInteraction w packet meshnetName = .ok o) ↔
      answerRenders w packet row meshnetName = true) := by
  unfold interactionRow at h
  split_ifs at h with hkind
  simp only [relayInteraction, h]
  by_cases hr : isReaction w packet = true
  · simp only [hr, if_true, except_map_eq_ok, answerRenders, Bool.not_true, Bool.false_or,
      Bool.and_eq_true]
    refine ⟨?_, ?_⟩
    · rintro o ⟨r, hrel, rfl⟩
      exact ⟨r, rfl, relayReaction_room hrel⟩
    · rw [← relayReaction_isOk]
      constructor
      · rintro ⟨o, r, hrel, -⟩
        exact ⟨r, hrel⟩
      · rintro ⟨r, hrel⟩
        exact ⟨some r, r, hrel, rfl⟩
  · have hreply : isReply w packet = true := by
      rcases Bool.or_eq_true_iff.mp hkind with hk | hk
      · exact absurd hk hr
      · exact hk
    simp only [hr, hreply, if_true, Bool.false_eq_true, if_false, except_map_eq_ok, answerRenders,
      Bool.not_false, Bool.true_or, Bool.and_true]
    refine ⟨?_, ?_⟩
    · rintro o ⟨r, hrel, rfl⟩
      exact ⟨r, rfl, relayReply_room hrel⟩
    · rw [← relayReply_isOk]
      constructor
      · rintro ⟨o, r, hrel, -⟩
        exact ⟨r, hrel⟩
      · rintro ⟨r, hrel⟩
        exact ⟨some r, r, hrel, rfl⟩

/-! ## Direct messages -/

/-- The packet passes the gates as a direct message, is a reaction or a reply to a stored message
and its answer can be built. -/
def Leaks (w : World) (packet : Py) : Prop :=
  ∃ meshnetName row, passGates w packet = .ok (true, meshnetName) ∧
    interactionRow w packet = some row ∧ answerRenders w packet row meshnetName = true

theorem relayText_direct {meshnetName : Py} {o : Outcome}
    (h : relayText w packet meshnetName true = .ok o) : o.relays = [] := by
  simp only [relayText, except_bind_eq_ok] at h
  obtain ⟨_, -, _, -, _, -, hok⟩ := h
  cases hok
  simp

theorem relays_of_passGates {direct : Bool} {meshnetName : Py}
    (h : passGates w packet = .ok (direct, meshnetName)) :
    relays w packet =
      match relayInteraction w packet meshnetName with
      | .error _ => []
      | .ok (some r) => [r]
      | .ok none =>
        if ((decodedOf packet).field "text").truthy then
          match relayText w packet meshnetName direct with
          | .error _ => []
          | .ok o => o.relays
        else [] := by
  unfold relays onMeshtasticMessage
  rw [h]
  simp only [bind, Except.bind]
  cases relayInteraction w packet meshnetName with
  | error e => rfl
  | ok interaction =>
    cases interaction with
    | some r => rfl
    | none =>
      simp only [liftErr]
      split_ifs
      · cases relayText w packet meshnetName direct with
        | error e => rfl
        | ok o => rfl
      · rfl

theorem relays_of_halt {e : Halt} (h : passGates w packet = .error e) : relays w packet = [] := by
  unfold relays onMeshtasticMessage
  rw [h]
  rfl

/-- **Direct messages.** A packet addressed to the relay's own node schedules no `matrix_relay`
call if and only if it is not a reaction or a reply to a stored message that passes the gates. -/
theorem direct_confined_iff (w : World) (packet : Py) (me : ℤ) (hme : w.myNodeNum = some me)
    (hto : (packet.field "to").eqInt me = true) : relays w packet = [] ↔ ¬ Leaks w packet := by
  have hown := isDirectMessage_of_own hme hto
  cases hgates : passGates w packet with
  | error e =>
    refine ⟨fun _ hleak => ?_, fun _ => relays_of_halt hgates⟩
    obtain ⟨m, row, hpass, -⟩ := hleak
    rw [hgates] at hpass
    cases hpass
  | ok p =>
    obtain ⟨direct, meshnetName⟩ := p
    have hdirect : direct = true := by
      have := passGates_direct hgates
      rw [hown] at this
      exact (Except.ok.inj this).symm
    subst hdirect
    rw [relays_of_passGates hgates]
    cases hrow : interactionRow w packet with
    | none =>
      -- the packet goes on as ordinary text, which is never relayed to Matrix
      rw [relayInteraction_of_none hrow]
      refine ⟨fun _ hleak => ?_, fun _ => ?_⟩
      · obtain ⟨m, row, -, hsome, -⟩ := hleak
        rw [hrow] at hsome
        cases hsome
      · simp only
        split_ifs
        · cases htext : relayText w packet meshnetName true with
          | error e => rfl
          | ok o => exact relayText_direct htext
        · rfl
    | some row =>
      obtain ⟨hroom, hok⟩ := relayInteraction_of_some meshnetName hrow
      have hleak : Leaks w packet ↔ answerRenders w packet row meshnetName = true := by
        constructor
        · rintro ⟨m, row', hpass, hsome, hrender⟩
          rw [hgates] at hpass
          rw [hrow] at hsome
          cases hpass
          cases hsome
          exact hrender
        · exact fun hrender => ⟨meshnetName, row, hgates, hrow, hrender⟩
      rw [hleak, ← hok]
      cases hint : relayInteraction w packet meshnetName with
      | error e => simp
      | ok o =>
        obtain ⟨r, rfl, -⟩ := hroom o hint
        simp

/-- A relay on node `7` with two rooms, reactions and replies enabled and one stored message, and
a single interface. -/
def demoWorld : World :=
  { builtins :=
      { repr := fun _ => ""
        toFloat := fun x =>
          match x with
          | .int n => .ok (.fin n)
          | _ => .error .typeError
        format := fun _ _ => none }
    portNumName := fun n => if n = 1 then some "TEXT_MESSAGE_APP" else none
    shuttingDown := false, shuttingDownLater := false, activeClient := some 5
    activeClientId := some 5, interfaceId := 5, callbacksTearingDown := false
    subscribedToMessages := true, reconnecting := false, healthProbeResponse := false
    now := 0, startupDrainDeadline := none, relayStartTime := 0, seededSkew := false
    calibratedSkew := none
    config := .dict
      [("matrix", .dict [("prefix_enabled", .bool false)]),
        ("meshtastic", .dict
          [("meshnet_name", .str "mesh"),
            ("message_interactions",
              .dict [("reactions", .bool true), ("replies", .bool true)])])]
    eventLoop := true, myNodeNum := some 7, nodes := .dict []
    matrixRooms := .list
      [.dict [("id", .str "!a"), ("meshtastic_channel", .int 0)],
        .dict [("id", .str "!b"), ("meshtastic_channel", .int 1)]]
    messageMap := [⟨some "42", some "$e", some "!b", some "hello", none⟩]
    getLongname := fun _ => some "Ann", getShortname := fun _ => some "A"
    plugins := [] }

/-- A text packet to node `to'` on channel zero, with the further fields `extra`. -/
def demoPacket (to' : ℤ) (extra : List (String × Py)) : Py :=
  .dict [("fromId", .str "!1"), ("to", .int to'), ("id", .int 99), ("channel", .int 0),
    ("decoded", .dict ([("portnum", .str "TEXT_MESSAGE_APP"), ("text", .str "ok")] ++ extra))]

/-- An ordinary direct message stays private. -/
theorem direct_confined_iff_plain : relays demoWorld (demoPacket 7 []) = [] ∧
    ¬ Leaks demoWorld (demoPacket 7 []) := by
  have h := direct_confined_iff demoWorld (demoPacket 7 []) 7 rfl rfl
  have hnil : relays demoWorld (demoPacket 7 []) = [] := by
    rw [← List.length_eq_zero_iff]
    decide +kernel
  exact ⟨hnil, h.mp hnil⟩

/-- A direct message that replies to a stored one is published in the room of that message. -/
theorem direct_reply_leaks :
    ((demoPacket 7 [("replyId", .int 42)]).field "to").eqInt 7 = true ∧
    demoWorld.myNodeNum = some 7 ∧
    (relays demoWorld (demoPacket 7 [("replyId", .int 42)])).map Relay.room = [.str "!b"] :=
  ⟨by decide, rfl, rfl⟩

/-! ## Channels -/

/-- The call targets a room of the configuration whose channel is the packet's. -/
def OnChannel (w : World) (packet : Py) (r : Relay) : Prop :=
  ∃ channel rooms room, packetChannel packet = .ok (some channel) ∧
    iterableMatrixRooms w.matrixRooms = .ok rooms ∧ room ∈ rooms ∧
    normalizeRoomChannel room = .ok (some channel) ∧ room.getItem "id" = .ok r.room

theorem mem_relayLoop {relay : Py → List Relay} {channel : ℤ} {rooms : List Py} {r : Relay}
    (h : r ∈ relayLoop relay channel rooms) :
    ∃ room ∈ rooms, normalizeRoomChannel room = .ok (some channel) ∧ r ∈ relay room := by
  induction rooms with
  | nil => simp [relayLoop] at h
  | cons room rest ih =>
    have later : r ∈ relayLoop relay channel rest → ∃ room' ∈ room :: rest,
        normalizeRoomChannel room' = .ok (some channel) ∧ r ∈ relay room' := by
      intro hr
      obtain ⟨room', hmem, hch, hrel⟩ := ih hr
      exact ⟨room', List.mem_cons_of_mem _ hmem, hch, hrel⟩
    rw [relayLoop] at h
    split_ifs at h with hdict
    · exact later h
    · split at h
      · simp at h
      · next mapped hmapped =>
        split_ifs at h with heq
        · rcases List.mem_append.mp h with h | h
          · exact ⟨room, List.mem_cons_self, heq ▸ hmapped, h⟩
          · exact later h
        · exact later h

theorem mem_textRelay {message : String} {longname shortname meshnetName room : Py} {r : Relay}
    (h : r ∈ textRelay packet message longname shortname meshnetName room) :
    room.getItem "id" = .ok r.room := by
  unfold textRelay at h
  split at h
  · simp at h
  · next id hid =>
    rw [List.mem_singleton.mp h]
    exact hid

theorem relayTarget_eq_some {channel : ℤ} {rooms : List Py}
    (h : relayTarget w packet = .ok (some (channel, rooms))) :
    packetChannel packet = .ok (some channel) ∧ iterableMatrixRooms w.matrixRooms = .ok rooms := by
  unfold relayTarget at h
  split at h
  · rw [except_bind_eq_ok] at h
    obtain ⟨c, hc, h⟩ := h
    cases c with
    | none => cases h
    | some c =>
      simp only [except_bind_eq_ok] at h
      obtain ⟨rs, hrs, mapped, -, h⟩ := h
      cases mapped with
      | false => cases h
      | true =>
        cases h
        exact ⟨hc, hrs⟩
  · cases h

theorem relayText_onChannel {meshnetName : Py} {direct : Bool} {o : Outcome} {r : Relay}
    (h : relayText w packet meshnetName direct = .ok o) (hr : r ∈ o.relays) :
    OnChannel w packet r := by
  simp only [relayText, except_bind_eq_ok] at h
  obtain ⟨target, htarget, ⟨longname, shortname, saved⟩, -, pre, -, hok⟩ := h
  cases hok
  simp only at hr
  split_ifs at hr with hskip
  · simp at hr
  · split at hr
    · simp at hr
    · next channel rooms =>
      obtain ⟨hc, hrooms⟩ := relayTarget_eq_some htarget
      obtain ⟨room, hmem, hch, hrel⟩ := mem_relayLoop hr
      exact ⟨channel, rooms, room, hc, hrooms, hmem, hch, mem_textRelay hrel⟩

/-- **Channels.** A call for a reaction or a reply to a stored message goes to the room of that
message; every other call goes to a room on the packet's channel. -/
theorem relays_confined (w : World) (packet : Py) : ∀ r ∈ relays w packet,
    match interactionRow w packet with
    | some row => r.room = columnValue row.matrixRoomId
    | none => OnChannel w packet r := by
  intro r hr
  cases hgates : passGates w packet with
  | error e =>
    rw [relays_of_halt hgates] at hr
    simp at hr
  | ok p =>
    obtain ⟨direct, meshnetName⟩ := p
    rw [relays_of_passGates hgates] at hr
    cases hrow : interactionRow w packet with
    | some row =>
      obtain ⟨hroom, -⟩ := relayInteraction_of_some meshnetName hrow
      cases hint : relayInteraction w packet meshnetName with
      | error e => simp [hint] at hr
      | ok o =>
        obtain ⟨r', rfl, hr'⟩ := hroom o hint
        simp only [hint, List.mem_singleton] at hr
        rw [hr]
        exact hr'
    | none =>
      rw [relayInteraction_of_none hrow] at hr
      simp only at hr
      split_ifs at hr
      · cases htext : relayText w packet meshnetName direct with
        | error e => simp [htext] at hr
        | ok o =>
          rw [htext] at hr
          exact relayText_onChannel htext hr
      · simp at hr

/-- An ordinary broadcast is relayed on its channel. -/
theorem relays_confined_plain : ∃ r ∈ relays demoWorld (demoPacket broadcastNum []),
    OnChannel demoWorld (demoPacket broadcastNum []) r := by
  have hrow : interactionRow demoWorld (demoPacket broadcastNum []) = none := rfl
  refine ⟨_, List.mem_singleton.mpr rfl, ?_⟩
  have h := relays_confined demoWorld (demoPacket broadcastNum []) _ (List.mem_singleton.mpr rfl)
  rw [hrow] at h
  exact h

/-- A broadcast reply on channel zero goes to a room on channel one. -/
theorem reply_off_channel :
    ∃ r ∈ relays demoWorld (demoPacket broadcastNum [("replyId", .int 42)]),
      r.room = .str "!b" ∧
      ¬ OnChannel demoWorld (demoPacket broadcastNum [("replyId", .int 42)]) r := by
  refine ⟨_, List.mem_singleton.mpr rfl, rfl, ?_⟩
  rintro ⟨channel, rooms, room, hc, hrooms, hmem, hch, hid⟩
  cases hc
  cases hrooms
  rcases List.mem_cons.mp hmem with rfl | hmem
  · -- the room on channel zero is another one
    rw [show Py.getItem _ "id" = .ok (.str "!a") from rfl] at hid
    injection hid with hid
    injection hid with hid
    exact absurd hid (by decide)
  · rw [List.mem_singleton.mp hmem] at hch
    rw [show normalizeRoomChannel _ = .ok (some 1) from rfl] at hch
    injection hch with hch
    injection hch with hch
    exact absurd hch (by decide)

end MMRelay.Mesh
