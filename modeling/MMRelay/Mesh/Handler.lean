import MMRelay.Mesh.Routing

/-!
# The handler of received packets

`on_meshtastic_message` (`meshtastic/events.py`). `World` is what the handler finds of the relay
when it is called: the globals it reads, the answers of the functions it calls, the stored
messages and what each plugin does with the packet. A handler that returns early or raises is an
error of the computation; either way nothing more is scheduled.

* `acceptPacket`: everything before the packet is decoded (session identity, health probes,
  startup drain, clock skew);
* `passGates`: the whole prelude, up to the name of the local mesh;
* `relayReaction`, `relayReply`: the two places that answer a stored message;
* `relayText`: ordinary text, routed by channel;
* `onMeshtasticMessage`, `relays`.
-/

namespace MMRelay.Mesh

open MMRelay.Relay

/-- What a plugin does with the packet. -/
inductive PluginOutcome
  | returned (handled : Bool)
  | raised
  | timedOut
  | noFuture
  deriving DecidableEq

/-- What the handler finds when it is called. -/
structure World where
  builtins : Builtins
  portNumName : ℤ → Option String
  shuttingDown : Bool
  /-- `shutting_down`, read again before the destination is looked at. -/
  shuttingDownLater : Bool
  /-- `id(meshtastic_client)`. -/
  activeClient : Option ℕ
  activeClientId : Option ℕ
  interfaceId : ℕ
  callbacksTearingDown : Bool
  subscribedToMessages : Bool
  reconnecting : Bool
  /-- The answer of `_claim_health_probe_response_and_maybe_calibrate`. -/
  healthProbeResponse : Bool
  now : ℚ
  startupDrainDeadline : Option ℚ
  relayStartTime : ℚ
  /-- The answer of `_seed_connect_time_skew`. -/
  seededSkew : Bool
  calibratedSkew : Option ℚ
  config : Py
  eventLoop : Bool
  /-- `interface.myInfo.my_node_num`. -/
  myNodeNum : Option ℤ
  nodes : Py
  matrixRooms : Py
  messageMap : List MapRow
  getLongname : Py → Option String
  getShortname : Py → Option String
  plugins : List PluginOutcome

/-- The arguments of a scheduled `matrix_relay(..)`. -/
structure Relay where
  room : Py
  message : String
  longname : Py
  shortname : Py
  meshnetName : Py
  portnum : Py
  meshtasticId : Py
  replyId : Py
  meshtasticText : Py
  emote : Bool
  emoji : Bool
  replyToEventId : Py

/-- A name that the handler stores. -/
inductive SavedName
  | long (sender name : Py)
  | short (sender name : Py)

/-- What the handler did. -/
structure Outcome where
  relays : List Relay
  dispatched : Option (Option String)
  saved : List SavedName

/-! ## Before the packet is decoded -/

/-- The packet comes from the interface of the current session. -/
def fromActiveSession (w : World) : Bool :=
  match w.activeClient with
  | none => !(w.callbacksTearingDown || w.subscribedToMessages || w.reconnecting ||
      w.shuttingDown)
  | some client => decide (w.interfaceId = w.activeClientId.getD client)

/-- `rx_time`. -/
def rxTime (w : World) (packet : Py) : Except PyErr PyFloat :=
  match w.builtins.toFloat ((packet.key? "rxTime").getD (.int 0)) with
  | .ok x => .ok x
  | .error .typeError => .ok (.fin 0)
  | .error .valueError => .ok (.fin 0)
  | .error e => .error e

/-- The startup drain window is still open. -/
def draining (w : World) : Bool :=
  match w.startupDrainDeadline with
  | none => false
  | some deadline => decide (0 < deadline - w.now)

/-- `RELAY_START_TIME`, moved by the calibrated clock skew. -/
def effectiveRelayStartTime (w : World) : ℚ :=
  match w.calibratedSkew with
  | none => w.relayStartTime
  | some skew => w.relayStartTime - skew

/-- The packet passes everything that stands before it is decoded. -/
def acceptPacket (w : World) (packet : Py) : Except Halt Unit := do
  require (packet.truthy && packet.isDict)
  require (!w.shuttingDown)
  require (fromActiveSession w)
  let rx ← liftErr (rxTime w packet)
  require (!w.healthProbeResponse)
  require (!draining w)
  require (!(rx.gtRat 0 && w.seededSkew && rx.ltRat w.relayStartTime))
  require (!(rx.gtRat 0 && rx.ltRat (effectiveRelayStartTime w)))

/-! ## Up to the destination -/

/-- `packet.get("decoded")`, or an empty mapping. -/
def decodedOf (packet : Py) : Py :=
  match packet.field "decoded" with
  | .dict kvs => .dict kvs
  | _ => .dict []

/-- A value that the format `.1f` accepts. -/
def formatsAsFloat : Py → Bool
  | .bool _ => true
  | .int n => decide (n.natAbs < 2 ^ 1024 - 2 ^ 970)
  | .float _ => true
  | _ => false

/-- A metric that is absent or can be formatted. -/
def metricFormats (metrics : Py) (name : String) : Bool :=
  (metrics.field name).isNone || formatsAsFloat (metrics.field name)

/-- `_get_packet_details` formats its numbers without raising. -/
def packetDetailsFormat (decoded packet : Py) (portnumName : String) : Bool :=
  let telemetry := decoded.field "telemetry"
  let device := telemetry.field "deviceMetrics"
  let environment := telemetry.field "environmentMetrics"
  let telemetryFormats :=
    if !(portnumName == "TELEMETRY_APP" && telemetry.truthy) then true
    else if device.truthy && device.isDict then metricFormats device "voltage"
    else if environment.truthy && environment.isDict then
      metricFormats environment "temperature" && metricFormats environment "relativeHumidity"
    else true
  telemetryFormats && metricFormats packet "rxSnr"

/-- The logging before the packet is routed, which may raise. -/
def logReceived (w : World) (packet decoded : Py) : Except PyErr Unit := do
  let debugSettings ←
    if w.config.truthy then (w.config.get "logging" (.dict [])) >>= (·.get "debug" (.dict []))
    else .ok (.dict [])
  let _ ← debugSettings.get "full_packets" .none
  if (decoded.field "text").truthy then .ok ()
  else if packetDetailsFormat decoded packet
      (getPortnumName w.portNumName (decoded.field "portnum") packet) then .ok ()
  else .error .valueError

/-- `emoji_flag`. -/
def emojiFlag (decoded : Py) : Bool := (decoded.field "emoji").eqInt 1

/-- The filter for reactions while reactions are disabled. -/
def filteredReaction (w : World) (decoded : Py) : Bool :=
  isTextMessagePortnum w.portNumName (decoded.field "portnum") &&
    !(getInteractionSettings w.config).reactions && !(decoded.field "replyId").isNone &&
    emojiFlag decoded

/-- `BROADCAST_NUM`. -/
def broadcastNum : ℤ := 4294967295

/-- `is_direct_message`; a packet for another node is ignored. -/
def isDirectMessage (w : World) (packet : Py) : Except Halt Bool :=
  match w.myNodeNum with
  | none => .error .returned
  | some me =>
    if (packet.field "to").eqInt me then .ok true
    else if (packet.field "to").eqInt broadcastNum || (packet.field "to").isNone then .ok false
    else .error .returned

/-- `classify_packet` of the packet. -/
def actionOf (w : World) (packet : Py) : PacketAction :=
  classifyPacket w.portNumName ((decodedOf packet).field "portnum") w.config packet

/-- The prelude of the handler: whether the message is a direct one, and the local mesh name. -/
def passGates (w : World) (packet : Py) : Except Halt (Bool × Py) := do
  acceptPacket w packet
  require (!w.config.isNone)
  require (actionOf w packet ≠ .drop)
  liftErr (logReceived w packet (decodedOf packet))
  require (!filteredReaction w (decodedOf packet))
  require (!w.shuttingDownLater)
  require w.eventLoop
  let direct ← isDirectMessage w packet
  let meshnetName ← liftErr ((w.config.getItem "meshtastic") >>= (·.getItem "meshnet_name"))
  pure (direct, meshnetName)

/-! ## Reactions and replies -/

/-- `packet.get("fromId") or packet.get("from")`. -/
def senderOf (packet : Py) : Py := (packet.field "fromId").orElse (packet.field "from")

/-- `_get_name_safely`. -/
def getNameSafely (rt : Builtins) (lookup : Py → Option String) (sender : Py) : String :=
  match lookup sender with
  | some name => if name.isEmpty then sender.toStr rt else name
  | none => sender.toStr rt

/-- Both interaction branches ask for a relayed text packet that refers to a message. -/
def refersToMessage (w : World) (packet : Py) : Bool :=
  decide (actionOf w packet = .relay) &&
    isTextMessagePortnum w.portNumName ((decodedOf packet).field "portnum") &&
    ((decodedOf packet).field "replyId").truthy

/-- The guard of the reaction branch. -/
def isReaction (w : World) (packet : Py) : Bool :=
  refersToMessage w packet && emojiFlag (decodedOf packet) &&
    (getInteractionSettings w.config).reactions

/-- The guard of the reply branch. -/
def isReply (w : World) (packet : Py) : Bool :=
  refersToMessage w packet && !emojiFlag (decodedOf packet) &&
    (getInteractionSettings w.config).replies

/-- The stored message that the packet refers to. -/
def referredRow (w : World) (packet : Py) : Option MapRow :=
  getMessageMapByMeshtasticId w.messageMap (((decodedOf packet).field "replyId").toStr w.builtins)

/-- `meshtastic_meshnet or meshnet_name`. -/
def rowMeshnet (row : MapRow) (meshnetName : Py) : Py :=
  (columnValue row.meshtasticMeshnet).orElse meshnetName

/-- `text.strip() if (text and text.strip()) else "⚠️"`. -/
def reactionSymbol (text : Py) : Except PyErr String :=
  match text with
  | .str s => .ok (if (strip s).isEmpty then "⚠️" else strip s)
  | x => if x.truthy then .error .attributeError else .ok "⚠️"

/-- The stored text, cut after forty characters. -/
def abbreviatedText : Option String → Except PyErr String
  | none => .error .typeError
  | some s => .ok (if 40 < s.length then takeChars s 40 ++ "..." else s)

/-- `decoded.get("portnum", 0)`. -/
def portnumOrZero (decoded : Py) : Py := (decoded.key? "portnum").getD (.int 0)

/-- The call that the reaction branch schedules for the stored message `row`. -/
def relayReaction (w : World) (packet : Py) (row : MapRow) (meshnetName : Py) :
    Except PyErr Relay := do
  let decoded := decodedOf packet
  let longname := Py.str (getNameSafely w.builtins w.getLongname (senderOf packet))
  let shortname := Py.str (getNameSafely w.builtins w.getShortname (senderOf packet))
  let abbreviated ← abbreviatedText row.meshtasticText
  let namePrefix ← getMatrixPrefix w.builtins w.config longname shortname
    (rowMeshnet row meshnetName)
  let symbol ← reactionSymbol (decoded.field "text")
  pure
    { room := columnValue row.matrixRoomId
      message := "\n " ++ namePrefix ++ "reacted " ++ symbol ++ " to \"" ++ abbreviated ++ "\""
      longname := longname, shortname := shortname, meshnetName := rowMeshnet row meshnetName
      portnum := portnumOrZero decoded, meshtasticId := packet.field "id"
      replyId := decoded.field "replyId", meshtasticText := columnValue row.meshtasticText
      emote := true, emoji := true, replyToEventId := .none }

/-- The call that the reply branch schedules for the stored message `row`. -/
def relayReply (w : World) (packet : Py) (row : MapRow) (meshnetName : Py) :
    Except PyErr Relay := do
  let decoded := decodedOf packet
  let longname := Py.str (getNameSafely w.builtins w.getLongname (senderOf packet))
  let shortname := Py.str (getNameSafely w.builtins w.getShortname (senderOf packet))
  let namePrefix ← getMatrixPrefix w.builtins w.config longname shortname
    (rowMeshnet row meshnetName)
  pure
    { room := columnValue row.matrixRoomId
      message := namePrefix ++ (decoded.field "text").toStr w.builtins
      longname := longname, shortname := shortname, meshnetName := rowMeshnet row meshnetName
      portnum := portnumOrZero decoded, meshtasticId := packet.field "id"
      replyId := decoded.field "replyId", meshtasticText := decoded.field "text"
      emote := false, emoji := false, replyToEventId := columnValue row.matrixEventId }

/-- The reaction and the reply branch: the call they schedule, or nothing and the packet goes on
as an ordinary message. -/
def relayInteraction (w : World) (packet meshnetName : Py) : Except PyErr (Option Relay) :=
  match referredRow w packet with
  | none => .ok none
  | some row =>
    if isReaction w packet then (relayReaction w packet row meshnetName).map some
    else if isReply w packet then (relayReply w packet row meshnetName).map some
    else .ok none

/-! ## Ordinary text -/

/-- `_normalize_room_channel`. -/
def normalizeRoomChannel (room : Py) : Except PyErr (Option ℤ) :=
  match room.field "meshtastic_channel" with
  | .none => .ok none
  | channel =>
    match channel.toInt with
    | .ok c => .ok (some c)
    | .error .valueError => .ok none
    | .error .typeError => .ok none
    | .error e => .error e

/-- `_get_iterable_matrix_rooms`, read to its end; a string gives characters, no room. -/
def iterableMatrixRooms (rooms : Py) : Except PyErr (List Py) :=
  match rooms with
  | .dict kvs => .ok (kvs.map Prod.snd)
  | .list xs => .ok xs
  | .str _ => .ok []
  | x => if x.truthy then .error .typeError else .ok []

/-- The first loop over the rooms, which stops at the first room on the channel. -/
def channelMapped (channel : ℤ) : List Py → Except PyErr Bool
  | [] => .ok false
  | room :: rest =>
    if !room.isDict then channelMapped channel rest
    else do
      let mapped ← normalizeRoomChannel room
      if mapped = some channel then pure true else channelMapped channel rest

/-- Text and detection-sensor ports default to channel zero. -/
def defaultsChannel (decoded : Py) : Bool :=
  portnumIs (decoded.field "portnum") 1 "TEXT_MESSAGE_APP" ||
    portnumIs (decoded.field "portnum") 10 "DETECTION_SENSOR_APP"

/-- The channel of a packet that is to be relayed; `none` when the relay is skipped. -/
def packetChannel (packet : Py) : Except PyErr (Option ℤ) :=
  let fallback := if defaultsChannel (decodedOf packet) then some 0 else none
  match packet.field "channel" with
  | .none => .ok fallback
  | channel =>
    match channel.toInt with
    | .ok c => .ok (some c)
    | .error .valueError => .ok fallback
    | .error .typeError => .ok fallback
    | .error e => .error e

/-- The loop of `_run_meshtastic_plugins`: the first plugin that handles the packet ends it. -/
def runMeshtasticPlugins : List PluginOutcome → Bool
  | [] => false
  | .returned true :: _ => true
  | .timedOut :: _ => true
  | _ :: rest => runMeshtasticPlugins rest

/-- `interface.nodes.get(sender)`. -/
def nodeOf (w : World) (sender : Py) : Except PyErr Py :=
  match w.nodes, sender with
  | .dict _, .list _ => .error .typeError
  | .dict _, .dict _ => .error .typeError
  | .dict kvs, .str s => .ok ((kvs.lookup s).getD .none)
  | .dict _, _ => .ok .none
  | _, _ => .error .attributeError

/-- A name from the node list: it is used, and stored, when it is not empty. -/
def nodeName (known : Py) (user : Py) (key : String) (sender : Py) : Except PyErr (Py × Bool) := do
  if known.truthy then pure (known, false)
  else do
    let value ← user.get key .none
    pure (if value.truthy && !sender.isNone then (value, true) else (known, false))

/-- The names of the sender, and those that the handler stores. -/
def senderNames (w : World) (sender : Py) : Except PyErr (Py × Py × List SavedName) := do
  let longname := columnValue (w.getLongname sender)
  let shortname := columnValue (w.getShortname sender)
  let (longname, shortname, saved) ←
    if longname.truthy && shortname.truthy then .ok (longname, shortname, [])
    else do
      let node ← nodeOf w sender
      if !node.truthy then pure (longname, shortname, [])
      else do
        let user ← node.get "user" .none
        if !user.truthy then pure (longname, shortname, [])
        else do
          let (long, saveLong) ← nodeName longname user "longName" sender
          let (short, saveShort) ← nodeName shortname user "shortName" sender
          pure (long, short,
            (if saveLong then [SavedName.long sender long] else []) ++
            (if saveShort then [SavedName.short sender short] else []))
  pure (longname.orElse (.str (sender.toStr w.builtins)),
    shortname.orElse (.str (sender.toStr w.builtins)), saved)

/-- The call for a room of the configuration; a room without an `id` raises and is skipped. -/
def textRelay (packet : Py) (message : String) (longname shortname meshnetName room : Py) :
    List Relay :=
  match room.getItem "id" with
  | .error _ => []
  | .ok id =>
    [{ room := id, message := message, longname := longname, shortname := shortname
       meshnetName := meshnetName, portnum := portnumOrZero (decodedOf packet)
       meshtasticId := packet.field "id", replyId := .none
       meshtasticText := (decodedOf packet).field "text"
       emote := false, emoji := false, replyToEventId := .none }]

/-- The second loop over the rooms, with the call `relay` for each room on the channel. A room
whose channel raises ends it; the calls made before stand. -/
def relayLoop (relay : Py → List Relay) (channel : ℤ) : List Py → List Relay
  | [] => []
  | room :: rest =>
    if !room.isDict then relayLoop relay channel rest
    else
      match normalizeRoomChannel room with
      | .error _ => []
      | .ok mapped =>
        if mapped = some channel then relay room ++ relayLoop relay channel rest
        else relayLoop relay channel rest

/-- The channel and the rooms of a packet that may be relayed; `none` when the action, the
channel or the configuration rules it out. -/
def relayTarget (w : World) (packet : Py) : Except PyErr (Option (ℤ × List Py)) :=
  match actionOf w packet with
  | .relay => do
    match ← packetChannel packet with
    | none => pure none
    | some channel => do
      let rooms ← iterableMatrixRooms w.matrixRooms
      let mapped ← channelMapped channel rooms
      pure (if mapped then some (channel, rooms) else none)
  | _ => .ok none

/-- The branch for packets with text. -/
def relayText (w : World) (packet meshnetName : Py) (direct : Bool) : Except PyErr Outcome := do
  let target ← relayTarget w packet
  let (longname, shortname, saved) ← senderNames w (senderOf packet)
  let namePrefix ← getMatrixPrefix w.builtins w.config longname shortname meshnetName
  let message := namePrefix ++ ((decodedOf packet).field "text").toStr w.builtins
  let relays :=
    if direct || runMeshtasticPlugins w.plugins then []
    else
      match target with
      | none => []
      | some (channel, rooms) =>
        relayLoop (textRelay packet message longname shortname meshnetName) channel rooms
  pure { relays := relays, dispatched := some (some message), saved := saved }

/-! ## The handler -/

/-- `on_meshtastic_message`. -/
def onMeshtasticMessage (w : World) (packet : Py) : Except Halt Outcome := do
  let (direct, meshnetName) ← passGates w packet
  let interaction ← liftErr (relayInteraction w packet meshnetName)
  match interaction with
  | some relay => pure { relays := [relay], dispatched := none, saved := [] }
  | none =>
    if ((decodedOf packet).field "text").truthy then
      liftErr (relayText w packet meshnetName direct)
    else pure { relays := [], dispatched := some none, saved := [] }

/-- The `matrix_relay` calls that the handler schedules. -/
def relays (w : World) (packet : Py) : List Relay :=
  match onMeshtasticMessage w packet with
  | .ok outcome => outcome.relays
  | .error _ => []

end MMRelay.Mesh
