import MMRelay.Relay.Settings

/-!
# Classification of received packets

`_get_portnum_name`, `_is_text_message_portnum`, the overrides of `meshtastic.packet_routing` and
`classify_packet` (`meshtastic/packet_routing.py`). The names of the port numbers come from the
protocol library and are a parameter.
-/

namespace MMRelay.Mesh

open MMRelay.Relay

/-- `PacketAction`. -/
inductive PacketAction
  | relay
  | pluginOnly
  | drop
  deriving DecidableEq

variable (portNumName : ℤ → Option String)

/-- `_get_portnum_name`; the names of unknown ports only have to be told apart from known ones. -/
def getPortnumName (portnum packet : Py) : String :=
  match portnum with
  | .none => if packet.truthy && (packet.field "encrypted").truthy then "ENCRYPTED"
      else "UNKNOWN (None)"
  | .str s => if s.isEmpty then "UNKNOWN (empty string)" else s
  | .int n =>
    match portNumName n with
    | some name => if name.isEmpty then "UNKNOWN (portnum=" ++ toString n ++ ")" else name
    | none => "UNKNOWN (portnum=" ++ toString n ++ ")"
  | .bool _ => "UNKNOWN (type=bool)"
  | .float _ => "UNKNOWN (type=float)"
  | .list _ => "UNKNOWN (type=list)"
  | .dict _ => "UNKNOWN (type=dict)"

/-- `portnum in (number, name)`. -/
def portnumIs (portnum : Py) (number : ℤ) (name : String) : Bool :=
  portnum.eqInt number || portnum.eqStr name

/-- `_is_text_message_portnum`. -/
def isTextMessagePortnum (portnum : Py) : Bool :=
  portnumIs portnum 1 "TEXT_MESSAGE_APP" ||
    getPortnumName portNumName portnum .none == "TEXT_MESSAGE_APP"

/-- `_is_encrypted_packet`. -/
def isEncryptedPacket (packet : Py) : Bool := packet.truthy && (packet.field "encrypted").truthy

/-- `_resolve_portnum_set`. -/
def resolvePortnumSet (portnums : Py) : List String :=
  match portnums with
  | .str s => if (strip s).isEmpty then [] else [strip s]
  | .list entries =>
    entries.filterMap fun entry =>
      let item :=
        match entry with
        | .str s => .str (strip s)
        | x => x
      let name := getPortnumName portNumName item .none
      if "UNKNOWN".toList.isPrefixOf name.toList then none else some name
  | _ => []

/-- The section `meshtastic.packet_routing`, when it is a mapping. -/
def packetRouting (config : Py) : Option Py :=
  match config with
  | .dict _ =>
    match (config.key? "meshtastic").getD (.dict []) with
    | .dict kvs =>
      match ((Py.dict kvs).key? "packet_routing").getD (.dict []) with
      | .dict routing => some (.dict routing)
      | _ => none
    | _ => none
  | _ => none

/-- `_get_packet_routing_overrides`: the ports promoted to chat and the disabled ones. -/
def getPacketRoutingOverrides (config : Py) : List String × List String :=
  match packetRouting config with
  | none => ([], [])
  | some routing =>
    (resolvePortnumSet portNumName (routing.field "chat_portnums"),
      resolvePortnumSet portNumName (routing.field "disabled_portnums"))

/-- `_get_encrypted_action`. -/
def getEncryptedAction (config : Py) : PacketAction :=
  match packetRouting config with
  | none => .pluginOnly
  | some routing =>
    match routing.field "encrypted_action" with
    | .str s => if asciiLower (strip s) = "drop" then .drop else .pluginOnly
    | _ => .pluginOnly

/-- `DEFAULT_DETECTION_SENSOR`, unless `meshtastic.detection_sensor` is set. -/
def detectionSensorEnabled (config : Py) : Bool :=
  (getMeshtasticConfigValue config "detection_sensor" (.bool true)).truthy

/-- `classify_packet`. -/
def classifyPacket (portnum config packet : Py) : PacketAction :=
  if isEncryptedPacket packet then getEncryptedAction config
  else
    let name := getPortnumName portNumName portnum packet
    let overrides := getPacketRoutingOverrides portNumName config
    let isDetectionSensor :=
      portnumIs portnum 10 "DETECTION_SENSOR_APP" || name == "DETECTION_SENSOR_APP"
    let isTextMessage := portnumIs portnum 1 "TEXT_MESSAGE_APP" || name == "TEXT_MESSAGE_APP"
    if overrides.2.contains name then .drop
    else if overrides.1.contains name then
      if isDetectionSensor && !detectionSensorEnabled config then .pluginOnly else .relay
    else if isDetectionSensor then
      if detectionSensorEnabled config then .relay else .pluginOnly
    else if isTextMessage then .relay
    else .pluginOnly

end MMRelay.Mesh
