import MMRelay.Matrix.Text

/-!
# The handler of Matrix room events

`on_room_message` (`matrix/events.py`) with `handle_matrix_reply`, `send_reply_to_meshtastic`
(`matrix/replies.py`), `_get_meshtastic_interface_and_channel` and
`_handle_detection_sensor_packet` (`matrix/command_bridge.py`). `World` is what the handler finds:
clocks, configuration, stored messages, the answers of the homeserver, of the radio connection,
of the plugins and of the queue. Every call of `queue_message` is a `Send`.

* `readEvent`: from the first line to the relation of the event, a `Ctx`;
* `relayReaction`: the two branches for reactions;
* `handleMatrixReply`: the branch for replies, which may fail and let the event go on;
* `relayOrdinary`: remote-mesh text, plain text, plugins, commands and detection sensors;
* `onRoomMessage`: the calls in their order.
-/

namespace MMRelay.Matrix

open MMRelay.Relay

/-- The class of the event. -/
inductive EventKind
  | text
  | notice
  | emote
  | reaction
  deriving DecidableEq

/-- A room event; `content` is `event.source["content"]`. -/
structure Event where
  kind : EventKind
  sender : String
  eventId : String
  serverTimestamp : ℤ
  body : String
  content : List (String × Py)

/-- `event.source["content"].get(key)`. -/
def Event.field (e : Event) (key : String) : Py := (Py.dict e.content).field key

/-- What the radio connection is asked for. -/
inductive Purpose
  | reaction
  | reply
  | message
  | detection
  deriving DecidableEq

/-- How `_matches_command` tests a plugin; `none` is an exception. -/
inductive CommandTest
  | matches (answer : Option Bool)
  | commands (answer : Option Bool)
  | absent
  deriving DecidableEq

/-- What a plugin does with the event: the answer of `handle_room_message`, `none` when it raises,
and its command test. -/
structure Plugin where
  handles : Option Bool
  test : CommandTest
  deriving DecidableEq

/-- What the handler finds when it is called. -/
structure World where
  builtins : Builtins
  roomId : String
  botStartTime : ℤ
  rollbackMs : ℤ
  elapsedSinceStartMs : ℤ
  botUserId : Option String
  matrixRooms : Py
  config : Py
  messageMap : List MapRow
  /-- The answer of `get_user_display_name`. -/
  displayName : String
  /-- `_connect_meshtastic` returns an interface. -/
  connects : Purpose → Bool
  plugins : List Plugin
  queueAnswer : ℕ → Bool

/-- `mapping_info`. -/
structure MappingInfo where
  matrixEventId : String
  roomId : String
  text : String
  meshnet : Py
  msgsToKeep : ℤ

/-- The send function that is enqueued. -/
inductive SendFunction
  | sendText
  | sendTextReply (replyId : ℤ)
  /-- `sendData` on the detection-sensor port; the payload is the encoded text. -/
  | sendData
  deriving DecidableEq

/-- A call of `queue_message`. -/
structure Send where
  function : SendFunction
  payload : String
  channel : ℤ
  description : String
  mapping : Option MappingInfo

/-! ## Reading the event -/

/-- `MATRIX_EVENT_EPOCH_FLOOR_MS`. -/
def eventEpochFloorMs : ℤ := 946684800000

/-- `MATRIX_CLOCK_ROLLBACK_DISABLE_MS`. -/
def clockRollbackDisableMs : ℤ := 60 * 1000

/-- `MATRIX_STARTUP_STALE_FILTER_WINDOW_MS`. -/
def startupStaleFilterWindowMs : ℤ := 2 * 60 * 1000

/-- `MATRIX_STALE_STARTUP_EVENT_DROP_MS`. -/
def staleStartupEventDropMs : ℤ := 5 * 60 * 1000

/-- The event predates the start of the bot and is dropped. -/
def isStale (w : World) (e : Event) : Bool :=
  decide (e.serverTimestamp < w.botStartTime) &&
    decide (eventEpochFloorMs ≤ e.serverTimestamp ∧ eventEpochFloorMs ≤ w.botStartTime) &&
    decide (w.elapsedSinceStartMs ≤ startupStaleFilterWindowMs) &&
    !decide (clockRollbackDisableMs < w.rollbackMs) &&
    decide (staleStartupEventDropMs < w.botStartTime - e.serverTimestamp)

/-- The entry of the dictionary form whose key or `id` is the room. -/
def findRoomEntry (roomId : String) : List (String × Py) → Option Py
  | [] => none
  | (key, room) :: rest =>
    if key = roomId || (room.isDict && (room.field "id").eqStr roomId) then
      if room.isDict then some room else none
    else findRoomEntry roomId rest

/-- `room_config`. -/
def findRoomConfig (w : World) : Except PyErr (Option Py) :=
  match w.matrixRooms with
  | .dict kvs =>
    match kvs.lookup w.roomId with
    | some (.dict room) => .ok (some (.dict room))
    | _ => .ok (findRoomEntry w.roomId kvs)
  | .list rooms => .ok (rooms.find? fun room => room.isDict && (room.field "id").eqStr w.roomId)
  | .str _ => .ok none
  | x => if x.truthy then .error .typeError else .ok none

/-- What the event says of a reaction. -/
structure Reaction where
  isReaction : Bool
  emoji : Py
  originalEventId : Py

/-- The block for `ReactionEvent`. -/
def readReactionEvent (e : Event) : Except PyErr Reaction := do
  let relatesTo := e.field "m.relates_to"
  if !relatesTo.truthy then pure ⟨true, .none, .none⟩
  else do
    if ← relatesTo.contains "event_id" then
      if ← relatesTo.contains "key" then
        pure ⟨true, ← relatesTo.getItem "key", ← relatesTo.getItem "event_id"⟩
      else pure ⟨true, .none, .none⟩
    else pure ⟨true, .none, .none⟩

/-- The block for `RoomMessageEmote`. -/
def readEmote (e : Event) : Except PyErr Reaction := do
  let relatesTo := (e.field "m.relates_to").orElse (.dict [])
  let replyId := e.field "meshtastic_replyId"
  let isReaction ←
    if replyId.truthy then pure true
    else do
      let relType ← relatesTo.get "rel_type" .none
      pure (relType.eqStr "m.annotation")
  if !isReaction then pure ⟨false, .none, .none⟩
  else do
    let emoji ←
      match ((Py.dict e.content).key? "body").getD (.str "") with
      | .str body => pure (Py.str (reactionEmoji body))
      | _ => .error .typeError
    if relatesTo.truthy then do
      if ← relatesTo.contains "event_id" then
        pure ⟨true, emoji, ← relatesTo.getItem "event_id"⟩
      else pure ⟨true, emoji, .none⟩
    else pure ⟨true, emoji, .none⟩

def readReaction (e : Event) : Except PyErr Reaction :=
  match e.kind with
  | .reaction => readReactionEvent e
  | .emote => readEmote e
  | _ => .ok ⟨false, .none, .none⟩

/-- `mesh_text_override`. -/
def meshTextOverride (e : Event) : Option String :=
  match e.field "meshtastic_text" with
  | .str s => if (strip s).isEmpty then none else some (strip s)
  | _ => none

/-- `text`. -/
def readText (e : Event) (isReaction : Bool) : Except PyErr String :=
  match meshTextOverride e with
  | some t => .ok (strip t)
  | none =>
    if isReaction then .ok ""
    else
      match (Py.str e.body).orElse
          ((((Py.dict e.content).key? "body").getD (.str "")).orElse (.str "")) with
      | .str s => .ok (strip s)
      | _ => .error .attributeError

/-- `reply_to_event_id`, falsy when the event is no reply. -/
def readReplyTo (e : Event) (isReaction : Bool) : Except PyErr Py := do
  let relatesTo := e.field "m.relates_to"
  if isReaction || !relatesTo.truthy then pure .none
  else do
    if ← relatesTo.contains "m.in_reply_to" then
      (← relatesTo.getItem "m.in_reply_to").get "event_id" .none
    else pure .none

/-- What the branches read of the event. -/
structure Ctx where
  roomConfig : Py
  reaction : Reaction
  text : String
  replyTo : Py

/-- `get_meshtastic_config_value(config, "meshnet_name", "")`. -/
def localMeshnetName (w : World) : Py := getMeshtasticConfigValue w.config "meshnet_name" (.str "")

/-- Everything before the event is relayed. -/
def readEvent (w : World) (e : Event) : Except Halt Ctx := do
  require (!isStale w e)
  require (some e.sender ≠ w.botUserId)
  let roomConfig ← liftErr (findRoomConfig w)
  let roomConfig := roomConfig.getD .none
  require roomConfig.truthy
  require (!w.config.isNone)
  let reaction ← liftErr (readReaction e)
  let text ← liftErr (readText e reaction.isReaction)
  require (!(e.field "mmrelay_suppress").truthy)
  require (!(reaction.isReaction && !(getInteractionSettings w.config).reactions))
  let replyTo ← liftErr (readReplyTo e reaction.isReaction)
  pure ⟨roomConfig, reaction, text, replyTo⟩

/-! ## Sending -/

/-- `_get_meshtastic_interface_and_channel`: the channel, when there is an interface too. -/
def interfaceAndChannel (w : World) (roomConfig : Py) (purpose : Purpose) : Option ℤ :=
  match roomConfig.field "meshtastic_channel" with
  | .int n => if 0 ≤ n ∧ w.connects purpose then some n else none
  | _ => none

/-- `broadcast_enabled`. -/
def broadcastEnabled (w : World) : Bool :=
  (getMeshtasticConfigValue w.config "broadcast_enabled" (.bool true)).truthy

/-- Every branch ends alike: with an interface, a valid channel and `broadcast_enabled`, the
message is enqueued. -/
def enqueueOn (w : World) (c : Ctx) (purpose : Purpose) (function : SendFunction)
    (payload description : String) (mapping : Option MappingInfo) : List Send :=
  match interfaceAndChannel w c.roomConfig purpose with
  | none => []
  | some channel => if broadcastEnabled w then [⟨function, payload, channel, description, mapping⟩]
      else []

/-- The message can be enqueued. -/
def canSend (w : World) (c : Ctx) (purpose : Purpose) : Bool :=
  (interfaceAndChannel w c.roomConfig purpose).isSome && broadcastEnabled w

section EnqueueOn

variable {w : World} {c : Ctx} {purpose : Purpose} {function : SendFunction}
  {payload description : String} {mapping : Option MappingInfo}

theorem enqueueOn_of_canSend (h : canSend w c purpose = true) :
    ∃ channel, enqueueOn w c purpose function payload description mapping =
      [⟨function, payload, channel, description, mapping⟩] := by
  unfold canSend at h
  rw [Bool.and_eq_true, Option.isSome_iff_exists] at h
  obtain ⟨⟨channel, hc⟩, hb⟩ := h
  refine ⟨channel, ?_⟩
  rw [enqueueOn, hc]
  exact if_pos hb

theorem enqueueOn_of_not_canSend (h : canSend w c purpose = false) :
    enqueueOn w c purpose function payload description mapping = [] := by
  unfold enqueueOn
  cases hc : interfaceAndChannel w c.roomConfig purpose with
  | none => rfl
  | some channel =>
    have hb : broadcastEnabled w = false := by
      simpa [canSend, hc] using h
    simp [hb]

theorem enqueueOn_eq_nil_iff :
    enqueueOn w c purpose function payload description mapping = [] ↔
      canSend w c purpose = false := by
  cases h : canSend w c purpose with
  | false => simp [enqueueOn_of_not_canSend h]
  | true =>
    obtain ⟨channel, hc⟩ := enqueueOn_of_canSend h
    rw [hc]
    simp

end EnqueueOn

/-- `DEFAULT_MSGS_TO_KEEP`. -/
def defaultMsgsToKeep : ℤ := 500

/-- `_get_msgs_to_keep_config`. -/
def getMsgsToKeepConfig (config : Py) : ℤ :=
  let msgMap (name : String) : Option Py :=
    match (config.field name).field "msg_map" with
    | .dict kvs => some (.dict kvs)
    | _ => none
  match ((msgMap "database").orElse fun _ => msgMap "db").getD (.dict []) |>.field "msgs_to_keep" with
  | .int n => n
  | _ => defaultMsgsToKeep

/-- `_create_mapping_info`. -/
def createMappingInfo (eventId roomId text : String) (meshnet : Py) (msgsToKeep : ℤ) :
    Option MappingInfo :=
  if eventId.isEmpty || roomId.isEmpty || text.isEmpty then none
  else some ⟨eventId, roomId, stripQuotedLines text, meshnet, msgsToKeep⟩

/-- The mapping of an enqueued message, when storage is enabled. -/
def mappingFor (w : World) (e : Event) (text : String) : Option MappingInfo :=
  if messageStorageEnabled (getInteractionSettings w.config) then
    createMappingInfo e.eventId w.roomId text (localMeshnetName w) (getMsgsToKeepConfig w.config)
  else none

/-- The numeric id of a stored message; a text of digits that is no number raises. -/
def numericId (row : MapRow) : Except PyErr (Option ℤ) :=
  match row.meshtasticId with
  | some s =>
    if isDigitStr s then
      match intOfStr s with
      | some n => .ok (some n)
      | none => .error .valueError
    else .ok none
  | none => .ok none

/-- The key under which an event id is looked up; a value that cannot be bound finds nothing. -/
def eventKey (rt : Builtins) : Py → Except PyErr (Option String)
  | .str s => .ok (some s)
  | .int n => if -(2 ^ 63) ≤ n ∧ n < 2 ^ 63 then .ok (some (toString n)) else .error .overflowError
  | .bool b => .ok (some (if b then "1" else "0"))
  | .float x => .ok (some (rt.repr (.float x)))
  | _ => .ok none

/-- `get_message_map_by_matrix_event_id` of the event that this one refers to. -/
def storedOriginal (w : World) (eventId : Py) : Except PyErr (Option MapRow) := do
  match ← eventKey w.builtins eventId with
  | some key => pure (getMessageMapByMatrixEventId w.messageMap key)
  | none => pure none

/-! ## Reactions -/

/-- The reaction comes from a remote mesh, relayed as an emote. -/
def isRemoteReaction (w : World) (e : Event) : Bool :=
  (e.field "meshtastic_meshnet").truthy &&
    !(e.field "meshtastic_meshnet").eq (localMeshnetName w) &&
    (e.field "meshtastic_replyId").truthy && decide (e.kind = .emote)

/-- `shortname`, or the start of `longname`. -/
def shortnameOr (longname : Py) : Except PyErr Py :=
  if longname.truthy then longname.slice shortnameFallbackLength else .ok (.str "???")

/-- `shortname/meshnet` of a remote reaction. -/
def remoteReactionSender (w : World) (e : Event) : Except PyErr String := do
  let shortMeshnet ← (e.field "meshtastic_meshnet").slice meshnetNameAbbreviationLength
  let shortname ←
    if (e.field "meshtastic_shortname").truthy then pure (e.field "meshtastic_shortname")
    else shortnameOr (e.field "meshtastic_longname")
  pure (shortname.toStr w.builtins ++ "/" ++ shortMeshnet.toStr w.builtins ++ " ")

/-- The text that a remote reaction refers to. -/
def remoteReactionText (e : Event) : Except PyErr String :=
  match ((Py.dict e.content).key? "meshtastic_text").getD (.str "") with
  | .str s => .ok (previewText s)
  | _ => .error .attributeError

/-- The text of a reaction: who reacted, how, and to what. No path cuts it. -/
def reactionMessage (sender emoji preview : String) : String :=
  sender ++ "reacted " ++ emoji ++ " to \"" ++ preview ++ "\""

/-- The branch for a reaction from a remote mesh. -/
def relayRemoteReaction (w : World) (e : Event) (c : Ctx) : Except PyErr (List Send) := do
  let sender ← remoteReactionSender w e
  let preview ← remoteReactionText e
  pure (enqueueOn w c .reaction .sendText
    (reactionMessage sender (c.reaction.emoji.toStr w.builtins) preview)
    ("Remote reaction from " ++ (e.field "meshtastic_meshnet").toStr w.builtins) none)

/-- The text of the stored message that a reaction refers to. -/
def storedPreview (row : MapRow) : Except PyErr String :=
  match row.meshtasticText with
  | some s => .ok (previewText s)
  | none => .error .attributeError

/-- The branch for a reaction to a stored message. -/
def relayLocalReaction (w : World) (c : Ctx) (row : MapRow) : Except PyErr (List Send) := do
  let replyId ← numericId row
  let sender := getMeshtasticPrefix w.builtins w.config w.displayName ""
  let preview ← storedPreview row
  let payload := reactionMessage sender (c.reaction.emoji.toStr w.builtins) preview
  pure
    (match replyId with
      | some n => enqueueOn w c .reaction (.sendTextReply n) payload
          ("Local reaction from " ++ w.displayName ++ " (reply to " ++ toString n ++ ")") none
      | none => enqueueOn w c .reaction .sendText payload
          ("Local reaction from " ++ w.displayName) none)

/-- The block for reactions: the calls it makes before it returns, or `none` when the event goes
on. -/
def relayReaction (w : World) (e : Event) (c : Ctx) : Except PyErr (Option (List Send)) :=
  if !c.reaction.isReaction then .ok none
  else if isRemoteReaction w e then (relayRemoteReaction w e c).map some
  else if c.reaction.originalEventId.truthy then do
    match ← storedOriginal w c.reaction.originalEventId with
    | none => pure (some [])
    | some row => (relayLocalReaction w c row).map some
  else .ok none

/-! ## Replies -/

/-- `send_reply_to_meshtastic`: its calls; the answer of the queue is its own answer. -/
def sendReplyToMeshtastic (w : World) (e : Event) (c : Ctx) (reply : String)
    (replyId : Option ℤ) : List Send :=
  match replyId with
  | some n => enqueueOn w c .reply (.sendTextReply n) reply
      ("Reply from " ++ w.displayName ++ " to message " ++ toString n) (mappingFor w e c.text)
  | none => enqueueOn w c .reply .sendText reply
      ("Reply from " ++ w.displayName ++ " (fallback to regular message)") (mappingFor w e c.text)

/-- `handle_matrix_reply` for the stored message `row`. -/
def replyTo (w : World) (e : Event) (c : Ctx) (row : MapRow) : Except PyErr (List Send) := do
  let replyId ← numericId row
  let reply ← formatReplyMessage w.builtins w.config w.displayName c.text
    (e.field "meshtastic_longname") (e.field "meshtastic_shortname")
    (e.field "meshtastic_meshnet") (localMeshnetName w) (meshTextOverride e) e.sender
  pure (sendReplyToMeshtastic w e c reply replyId)

/-- The branch for replies: its calls. It is the end of the handler when the queue accepts. -/
def handleMatrixReply (w : World) (e : Event) (c : Ctx) : Except PyErr (List Send) :=
  if c.replyTo.truthy && (getInteractionSettings w.config).replies then do
    match ← storedOriginal w c.replyTo with
    | none => pure []
    | some row => replyTo w e c row
  else .ok []

/-! ## Ordinary messages -/

/-- The event was relayed by a relay: it names a sender and a mesh. -/
def isRelayed (e : Event) : Bool :=
  (e.field "meshtastic_longname").truthy && (e.field "meshtastic_meshnet").truthy

/-- What is sent for an ordinary message: the name of the sender, the text handed to plugins and
detection sensors, and the message. -/
structure Ordinary where
  fullDisplayName : String
  text : String
  message : String

/-- The text of a remote message without the prefix of its own mesh, cut to the limit. -/
def remoteText (e : Event) (text originalPrefix : String) : String :=
  let text := (meshTextOverride e).getD text
  let text :=
    if originalPrefix.isEmpty then text else (dropPrefix? originalPrefix text).getD text
  let text := if text.isEmpty then (meshTextOverride e).getD text else text
  truncateMessage text defaultMessageTruncateBytes

/-- The prefix of a remote message: the names of the sender and the short name of the mesh. -/
def remotePrefixes (w : World) (e : Event) : Except PyErr (String × String) := do
  let longname := e.field "meshtastic_longname"
  let meshnet := e.field "meshtastic_meshnet"
  let shortMeshnet ← meshnet.slice meshnetNameAbbreviationLength
  let shortname ←
    if (e.field "meshtastic_shortname").isNone then longname.slice shortnameFallbackLength
    else pure (e.field "meshtastic_shortname")
  let original ← getMatrixPrefix w.builtins w.config longname shortname meshnet
  let short ← getMatrixPrefix w.builtins w.config longname shortname shortMeshnet
  pure (original, short)

/-- A message from a remote mesh; the prefix is put before the text that was cut. -/
def remoteMessage (w : World) (e : Event) (c : Ctx) : Except Halt Ordinary := do
  let (original, short) ← liftErr (remotePrefixes w e)
  let text := remoteText e c.text original
  require (!text.isEmpty)
  pure ⟨(e.field "meshtastic_longname").toStr w.builtins ++ "/" ++
    (e.field "meshtastic_meshnet").toStr w.builtins, text, short ++ text⟩

/-- A message of a Matrix user. -/
def plainMessage (w : World) (e : Event) (c : Ctx) : Ordinary :=
  ⟨w.displayName, c.text,
    truncateMessage (getMeshtasticPrefix w.builtins w.config w.displayName e.sender ++ c.text)
      defaultMessageTruncateBytes⟩

def ordinaryMessage (w : World) (e : Event) (c : Ctx) : Except Halt Ordinary :=
  if isRelayed e then
    if !(e.field "meshtastic_meshnet").eq (localMeshnetName w) then remoteMessage w e c
    else .error .returned
  else .ok (plainMessage w e c)

/-- `portnum == PORTNUM_DETECTION_SENSOR_APP`, after a name or a text of digits is resolved. -/
def isDetectionPacket (e : Event) : Bool :=
  match e.field "meshtastic_portnum" with
  | .str s =>
    if isDigitStr s then intOfStr s == some 10 else s == "DETECTION_SENSOR_APP"
  | portnum => portnum.eqInt 10

/-- The loop over the plugins: the first that handles the event ends it. -/
def pluginHandles (plugins : List Plugin) : Bool := plugins.any fun p => p.handles == some true

/-- `_matches_command`. -/
def matchesCommand (p : Plugin) : Bool :=
  match p.test with
  | .matches answer => answer == some true
  | .commands answer => answer == some true
  | .absent => false

/-- `detection_sensor`. -/
def detectionEnabled (w : World) : Bool :=
  (getMeshtasticConfigValue w.config "detection_sensor" (.bool true)).truthy

/-- `_handle_detection_sensor_packet`. -/
def handleDetectionSensorPacket (w : World) (c : Ctx) (m : Ordinary) : List Send :=
  if !detectionEnabled w then []
  else enqueueOn w c .detection .sendData m.text
    ("Detection sensor data from " ++ m.fullDisplayName) none

/-- The call for an ordinary message. -/
def sendMessage (w : World) (e : Event) (c : Ctx) (m : Ordinary) : List Send :=
  enqueueOn w c .message .sendText m.message ("Message from " ++ m.fullDisplayName)
    (mappingFor w e m.text)

/-- The rest of the handler, after reactions and replies. -/
def relayOrdinary (w : World) (e : Event) (c : Ctx) : List Send :=
  match ordinaryMessage w e c with
  | .error _ => []
  | .ok m =>
    if pluginHandles w.plugins then []
    else if w.plugins.any matchesCommand then []
    else if isDetectionPacket e then handleDetectionSensorPacket w c m
    else sendMessage w e c m

/-! ## The handler -/

/-- What follows once the reaction block is passed. -/
def relayMessage (w : World) (e : Event) (c : Ctx) : List Send :=
  match handleMatrixReply w e c with
  | .error _ => []
  | .ok sends => if !sends.isEmpty && w.queueAnswer 0 then sends else sends ++ relayOrdinary w e c

/-- `on_room_message`: its calls of `queue_message`. -/
def onRoomMessage (w : World) (e : Event) : List Send :=
  match readEvent w e with
  | .error _ => []
  | .ok c =>
    match relayReaction w e c with
    | .error _ => []
    | .ok (some sends) => sends
    | .ok none => relayMessage w e c

/-- A relay of the mesh `mesh` with one room on channel zero, reactions and replies enabled and
one stored message. -/
def demoWorld : World :=
  { builtins := { repr := fun _ => "", toFloat := fun _ => .error .typeError
                  format := fun _ _ => none }
    roomId := "!a", botStartTime := 0, rollbackMs := 0, elapsedSinceStartMs := 0
    botUserId := some "@bot:x"
    matrixRooms := .list [.dict [("id", .str "!a"), ("meshtastic_channel", .int 0)]]
    config := .dict
      [("meshtastic", .dict
          [("meshnet_name", .str "mesh"), ("prefix_enabled", .bool false),
            ("message_interactions", .dict [("reactions", .bool true), ("replies", .bool true)])])]
    messageMap := [⟨some "42", some "$e", some "!a", some "hello", none⟩]
    displayName := "Ann", connects := fun _ => true, plugins := [], queueAnswer := fun _ => true }

end MMRelay.Matrix
