import MMRelay.Lib.Alike
import MMRelay.Mesh.Confinement

/-!
# Numbers and names of ports

A port may be written as its number or as its name: in a received packet and in the lists of
`meshtastic.packet_routing`.

* `PortNames`: what holds of the names of the protocol library;
* `SamePort`, `SamePacket`, `SameConfig`: values that differ in how ports are written only;
* `classifyPacket_same`: the classification is the same;
* `onMeshtasticMessage_same`: so is what the handler does, up to the port handed on;
* `Listed`, `classifyPacket_listed`: a port of the disabled ones is dropped;
* **`ports_interchangeable`**.
-/

namespace MMRelay.Mesh

open MMRelay.Relay

/-- The names of the protocol's ports: each belongs to one number and is written without blanks. -/
structure PortNames (portNumName : ℤ → Option String) : Prop where
  text : portNumName 1 = some "TEXT_MESSAGE_APP"
  detection : portNumName 10 = some "DETECTION_SENSOR_APP"
  injective : ∀ m n name, portNumName m = some name → portNumName n = some name → m = n
  nonempty : ∀ n name, portNumName n = some name → name.isEmpty = false
  stripped : ∀ n name, portNumName n = some name → strip name = name

/-- A port, as its number or as its name. -/
inductive SamePort (portNumName : ℤ → Option String) : Py → Py → Prop
  | same (v : Py) : SamePort portNumName v v
  | toName {n : ℤ} {name : String} : portNumName n = some name →
    SamePort portNumName (.int n) (.str name)
  | toNumber {n : ℤ} {name : String} : portNumName n = some name →
    SamePort portNumName (.str name) (.int n)

/-- A list of ports. -/
inductive SamePorts (portNumName : ℤ → Option String) : Py → Py → Prop
  | same (v : Py) : SamePorts portNumName v v
  | list {ports ports' : List Py} : List.Forall₂ (SamePort portNumName) ports ports' →
    SamePorts portNumName (.list ports) (.list ports')

/-- `decoded`, up to `portnum`. -/
abbrev SameDecoded (portNumName : ℤ → Option String) : Py → Py → Prop :=
  Alike ["portnum"] (SamePort portNumName)

/-- A packet, up to `decoded.portnum`. -/
abbrev SamePacket (portNumName : ℤ → Option String) : Py → Py → Prop :=
  Alike ["decoded"] (SameDecoded portNumName)

/-- `meshtastic.packet_routing`, up to the lists of ports. -/
abbrev SameRouting (portNumName : ℤ → Option String) : Py → Py → Prop :=
  Alike ["chat_portnums", "disabled_portnums"] (SamePorts portNumName)

/-- A section `meshtastic`, up to the lists of ports. -/
abbrev SameSection (portNumName : ℤ → Option String) : Py → Py → Prop :=
  Alike ["packet_routing"] (SameRouting portNumName)

/-- A configuration, up to the lists of ports. -/
abbrev SameConfig (portNumName : ℤ → Option String) : Py → Py → Prop :=
  Alike ["meshtastic"] (SameSection portNumName)

variable {portNumName : ℤ → Option String}

/-! ## Classification -/

theorem portnumIs_same (hnames : PortNames portNumName) {a b : Py} (h : SamePort portNumName a b)
    {number : ℤ} {name : String} (hname : portNumName number = some name) :
    portnumIs a number name = portnumIs b number name := by
  have hiff {n : ℤ} {s : String} (hs : portNumName n = some s) : n = number ↔ s = name := by
    constructor
    · rintro rfl
      exact Option.some.inj (hs.symm.trans hname)
    · rintro rfl
      exact hnames.injective _ _ _ hs hname
  cases h with
  | same => rfl
  | toName hs => simp [portnumIs, Py.eqInt, Py.eqStr, hiff hs]
  | toNumber hs => simp [portnumIs, Py.eqInt, Py.eqStr, hiff hs]

theorem getPortnumName_same (hnames : PortNames portNumName) {a b packet packet' : Py}
    (h : SamePort portNumName a b)
    (hpacket : isEncryptedPacket packet = isEncryptedPacket packet') :
    getPortnumName portNumName a packet = getPortnumName portNumName b packet' := by
  cases h with
  | same =>
    rw [isEncryptedPacket, isEncryptedPacket] at hpacket
    cases a with
    | none => simp only [getPortnumName, hpacket]
    | _ => rfl
  | toName hs => simp [getPortnumName, hs, hnames.nonempty _ _ hs]
  | toNumber hs => simp [getPortnumName, hs, hnames.nonempty _ _ hs]

/-- An entry of a list of ports; a string is stripped. -/
def entryItem : Py → Py
  | .str s => .str (strip s)
  | x => x

/-- The name that an entry resolves to. -/
def entryName (portNumName : ℤ → Option String) (entry : Py) : Option String :=
  let name := getPortnumName portNumName (entryItem entry) .none
  if "UNKNOWN".toList.isPrefixOf name.toList then none else some name

theorem resolvePortnumSet_list (entries : List Py) :
    resolvePortnumSet portNumName (.list entries) = entries.filterMap (entryName portNumName) := by
  rw [resolvePortnumSet]
  congr 1

theorem entryName_same (hnames : PortNames portNumName) {a b : Py} (h : SamePort portNumName a b) :
    entryName portNumName a = entryName portNumName b := by
  have hitem : SamePort portNumName (entryItem a) (entryItem b) := by
    cases h with
    | same => exact .same _
    | toName hs =>
      rw [entryItem, entryItem, hnames.stripped _ _ hs]
      · exact .toName hs
      · simp
    | toNumber hs =>
      rw [entryItem, entryItem, hnames.stripped _ _ hs]
      · exact .toNumber hs
      · simp
  rw [entryName, entryName, getPortnumName_same hnames hitem rfl]

theorem resolvePortnumSet_same (hnames : PortNames portNumName) {v v' : Py}
    (h : SamePorts portNumName v v') :
    resolvePortnumSet portNumName v = resolvePortnumSet portNumName v' := by
  cases h with
  | same => rfl
  | list h =>
    rw [resolvePortnumSet_list, resolvePortnumSet_list]
    induction h with
    | nil => rfl
    | cons hab _ ih => rw [List.filterMap_cons, List.filterMap_cons, ih, entryName_same hnames hab]

/-- A value, when it is a mapping. -/
def mapping : Py → Option Py
  | .dict kvs => some (.dict kvs)
  | _ => none

/-- The routing section of a section, when both are mappings. -/
def routingOf (section' : Py) : Option Py :=
  (mapping section').bind fun kvs => mapping ((kvs.key? "packet_routing").getD (.dict []))

theorem packetRouting_dict (kvs : List (String × Py)) :
    packetRouting (.dict kvs) = routingOf (((Py.dict kvs).key? "meshtastic").getD (.dict [])) := by
  unfold packetRouting routingOf
  generalize ((Py.dict kvs).key? "meshtastic").getD (.dict []) = section'
  cases section' with
  | dict kvs' =>
    have hmapping (v : Py) : (match v with | .dict r => some (Py.dict r) | _ => none) =
        mapping v := by
      cases v <;> rfl
    exact hmapping (((Py.dict kvs').key? "packet_routing").getD (.dict []))
  | _ => rfl

theorem routingOf_same {a b : Py} (h : SameSection portNumName a b) :
    routingOf a = routingOf b ∨ ∃ routing routing', routingOf a = some routing ∧
      routingOf b = some routing' ∧ SameRouting portNumName routing routing' := by
  have hrouting := h.getD (R := SameRouting portNumName) .same "packet_routing" (.dict [])
  cases h with
  | same => exact .inl rfl
  | @dict kvs kvs' hkvs =>
    have hof (kvs : List (String × Py)) : routingOf (.dict kvs) =
        mapping (((Py.dict kvs).key? "packet_routing").getD (.dict [])) := rfl
    rw [hof, hof]
    generalize ((Py.dict kvs).key? "packet_routing").getD (.dict []) = x at *
    generalize ((Py.dict kvs').key? "packet_routing").getD (.dict []) = y at *
    cases hrouting with
    | same => exact .inl rfl
    | dict hxy => exact .inr ⟨_, _, rfl, rfl, .dict hxy⟩

theorem packetRouting_same {config config' : Py} (h : SameConfig portNumName config config') :
    packetRouting config = packetRouting config' ∨
      ∃ routing routing', packetRouting config = some routing ∧
        packetRouting config' = some routing' ∧ SameRouting portNumName routing routing' := by
  have hsection := h.getD (R := SameSection portNumName) .same "meshtastic" (.dict [])
  cases h with
  | same => exact .inl rfl
  | dict hkvs =>
    rw [packetRouting_dict, packetRouting_dict]
    exact routingOf_same hsection

theorem getPacketRoutingOverrides_same (hnames : PortNames portNumName) {config config' : Py}
    (h : SameConfig portNumName config config') :
    getPacketRoutingOverrides portNumName config = getPacketRoutingOverrides portNumName config' := by
  obtain heq | ⟨routing, routing', hr, hr', hsame⟩ := packetRouting_same h
  · rw [getPacketRoutingOverrides, getPacketRoutingOverrides, heq]
  · simp only [getPacketRoutingOverrides, hr, hr',
      resolvePortnumSet_same hnames (hsame.field .same "chat_portnums"),
      resolvePortnumSet_same hnames (hsame.field .same "disabled_portnums")]

theorem getEncryptedAction_same {config config' : Py} (h : SameConfig portNumName config config') :
    getEncryptedAction config = getEncryptedAction config' := by
  obtain heq | ⟨routing, routing', hr, hr', hsame⟩ := packetRouting_same h
  · rw [getEncryptedAction, getEncryptedAction, heq]
  · have hfield : routing.field "encrypted_action" = routing'.field "encrypted_action" :=
      hsame.field_eq (by decide)
    simp only [getEncryptedAction, hr, hr', hfield]

theorem getMeshtasticConfigValue_same {config config' : Py}
    (h : SameConfig portNumName config config') {key : String} (hkey : key ∉ ["packet_routing"])
    (default : Py) :
    getMeshtasticConfigValue config key default = getMeshtasticConfigValue config' key default := by
  have hsection := h.getD (R := SameSection portNumName) .same "meshtastic" (.dict [])
  unfold getMeshtasticConfigValue
  generalize (config.key? "meshtastic").getD (.dict []) = a at *
  generalize (config'.key? "meshtastic").getD (.dict []) = b at *
  cases hsection with
  | same => rfl
  | dict hkvs => simp only [Alike.lookup_eq hkvs hkey]

theorem detectionSensorEnabled_same {config config' : Py}
    (h : SameConfig portNumName config config') :
    detectionSensorEnabled config = detectionSensorEnabled config' := by
  rw [detectionSensorEnabled, detectionSensorEnabled,
    getMeshtasticConfigValue_same h (by decide)]

theorem isEncryptedPacket_same {packet packet' : Py} (h : SamePacket portNumName packet packet') :
    isEncryptedPacket packet = isEncryptedPacket packet' := by
  rw [isEncryptedPacket, isEncryptedPacket, h.truthy_eq, h.field_eq (by decide)]

/-- The classification does not depend on how ports are written. -/
theorem classifyPacket_same (hnames : PortNames portNumName)
    {portnum portnum' config config' packet packet' : Py}
    (hport : SamePort portNumName portnum portnum') (hconfig : SameConfig portNumName config config')
    (hpacket : SamePacket portNumName packet packet') :
    classifyPacket portNumName portnum config packet =
      classifyPacket portNumName portnum' config' packet' := by
  have hencrypted := isEncryptedPacket_same hpacket
  unfold classifyPacket
  rw [hencrypted, getEncryptedAction_same hconfig, getPortnumName_same hnames hport hencrypted,
    getPacketRoutingOverrides_same hnames hconfig, portnumIs_same hnames hport hnames.text,
    portnumIs_same hnames hport hnames.detection, detectionSensorEnabled_same hconfig]

/-! ## What the handler reads of the configuration -/

theorem getInteractionSettings_same {config config' : Py}
    (h : SameConfig portNumName config config') :
    getInteractionSettings config = getInteractionSettings config' := by
  have hsection := h.getD (R := SameSection portNumName) .same "meshtastic" (.dict [])
  cases h with
  | same => rfl
  | @dict kvs kvs' hkvs =>
    unfold getInteractionSettings
    generalize ((Py.dict kvs).key? "meshtastic").getD (.dict []) = a at *
    generalize ((Py.dict kvs').key? "meshtastic").getD (.dict []) = b at *
    cases hsection with
    | same => rfl
    | dict hab =>
      have hsame : SameSection portNumName _ _ := .dict hab
      simp only [hsame.field_eq (k := "message_interactions") (by decide),
        hsame.key?_eq (k := "relay_reactions") (by decide)]

theorem getMatrixPrefix_same {config config' : Py} (h : SameConfig portNumName config config')
    (rt : Builtins) (longname shortname meshnetName : Py) :
    getMatrixPrefix rt config longname shortname meshnetName =
      getMatrixPrefix rt config' longname shortname meshnetName := by
  have hsection : configSection config "matrix" = configSection config' "matrix" := by
    rw [configSection, configSection, h.field_eq (by decide)]
  cases h with
  | same => rfl
  | dict hkvs => simp only [getMatrixPrefix, hsection]

theorem meshnetName_same {config config' : Py} (h : SameConfig portNumName config config') :
    ((config.getItem "meshtastic") >>= (·.getItem "meshnet_name")) =
      ((config'.getItem "meshtastic") >>= (·.getItem "meshnet_name")) := by
  cases h with
  | same => rfl
  | dict hkvs =>
    obtain heq | ⟨a, b, ha, hb, hab⟩ := Alike.lookup_rel hkvs "meshtastic"
    · simp only [Py.getItem, heq]
    · simp only [Py.getItem, ha, hb]
      exact hab.getItem_eq (by decide)

/-! ## The handler -/

section Handler

variable {w : World} {config' packet packet' : Py}

theorem decodedOf_same (hp : SamePacket w.portNumName packet packet') :
    SameDecoded w.portNumName (decodedOf packet) (decodedOf packet') := by
  have hdecoded := hp.field (R := SameDecoded w.portNumName) .same "decoded"
  unfold decodedOf
  generalize packet.field "decoded" = a at *
  generalize packet'.field "decoded" = b at *
  cases hdecoded with
  | same => exact .same _
  | dict hab => exact .dict hab

theorem portnum_same (hp : SamePacket w.portNumName packet packet') :
    SamePort w.portNumName ((decodedOf packet).field "portnum")
      ((decodedOf packet').field "portnum") :=
  (decodedOf_same hp).field .same "portnum"

theorem decoded_field_same (hp : SamePacket w.portNumName packet packet') {k : String}
    (hk : k ∉ ["portnum"]) : (decodedOf packet).field k = (decodedOf packet').field k :=
  (decodedOf_same hp).field_eq hk

theorem isTextMessagePortnum_same (hnames : PortNames w.portNumName)
    (hp : SamePacket w.portNumName packet packet') :
    isTextMessagePortnum w.portNumName ((decodedOf packet).field "portnum") =
      isTextMessagePortnum w.portNumName ((decodedOf packet').field "portnum") := by
  have hport := portnum_same hp
  rw [isTextMessagePortnum, isTextMessagePortnum, portnumIs_same hnames hport hnames.text,
    getPortnumName_same hnames hport rfl]

theorem actionOf_same (hnames : PortNames w.portNumName)
    (hc : SameConfig w.portNumName w.config config')
    (hp : SamePacket w.portNumName packet packet') :
    actionOf w packet = actionOf { w with config := config' } packet' :=
  classifyPacket_same hnames (portnum_same hp) hc hp

theorem acceptPacket_same (config' : Py) (hp : SamePacket w.portNumName packet packet') :
    acceptPacket w packet = acceptPacket { w with config := config' } packet' := by
  have hrx : rxTime w packet = rxTime { w with config := config' } packet' := by
    rw [rxTime, rxTime, hp.key?_eq (by decide)]
  unfold acceptPacket
  rw [hp.truthy_eq, hp.isDict_eq, hrx]
  rfl

theorem logReceived_same (hnames : PortNames w.portNumName)
    (hc : SameConfig w.portNumName w.config config')
    (hp : SamePacket w.portNumName packet packet') :
    logReceived w packet (decodedOf packet) =
      logReceived { w with config := config' } packet' (decodedOf packet') := by
  have hname := getPortnumName_same hnames (portnum_same hp) (isEncryptedPacket_same hp)
  have hdetails (name : String) : packetDetailsFormat (decodedOf packet) packet name =
      packetDetailsFormat (decodedOf packet') packet' name := by
    simp only [packetDetailsFormat, metricFormats, decoded_field_same hp (k := "telemetry") (by decide),
      hp.field_eq (k := "rxSnr") (by decide)]
  unfold logReceived
  simp only [hname, hdetails, hc.truthy_eq, hc.get_eq (k := "logging") (by decide),
    decoded_field_same hp (k := "text") (by decide)]

theorem filteredReaction_same (hnames : PortNames w.portNumName)
    (hc : SameConfig w.portNumName w.config config')
    (hp : SamePacket w.portNumName packet packet') :
    filteredReaction w (decodedOf packet) =
      filteredReaction { w with config := config' } (decodedOf packet') := by
  simp only [filteredReaction, emojiFlag, isTextMessagePortnum_same hnames hp,
    getInteractionSettings_same hc, decoded_field_same hp (k := "replyId") (by decide),
    decoded_field_same hp (k := "emoji") (by decide)]

theorem isDirectMessage_same (config' : Py) (hp : SamePacket w.portNumName packet packet') :
    isDirectMessage w packet = isDirectMessage { w with config := config' } packet' := by
  simp only [isDirectMessage, hp.field_eq (k := "to") (by decide)]

theorem passGates_same (hnames : PortNames w.portNumName)
    (hc : SameConfig w.portNumName w.config config')
    (hp : SamePacket w.portNumName packet packet') :
    passGates w packet = passGates { w with config := config' } packet' := by
  unfold passGates
  rw [acceptPacket_same config' hp, hc.isNone_eq, actionOf_same hnames hc hp,
    logReceived_same hnames hc hp, filteredReaction_same hnames hc hp,
    isDirectMessage_same config' hp, meshnetName_same hc]

/-- A call without the port that it hands on. -/
def Relay.unported (r : Relay) : Relay := { r with portnum := .none }

/-- What the handler did, without the ports that it handed on. -/
def Outcome.unported (o : Outcome) : Outcome := { o with relays := o.relays.map Relay.unported }

theorem senderOf_same (hp : SamePacket w.portNumName packet packet') :
    senderOf packet = senderOf packet' := by
  rw [senderOf, senderOf, hp.field_eq (k := "fromId") (by decide), hp.field_eq (k := "from") (by decide)]

theorem relayReaction_same (hc : SameConfig w.portNumName w.config config')
    (hp : SamePacket w.portNumName packet packet') (row : MapRow) (meshnetName : Py) :
    (relayReaction w packet row meshnetName).map Relay.unported =
      (relayReaction { w with config := config' } packet' row meshnetName).map Relay.unported := by
  unfold relayReaction
  simp only [senderOf_same hp, getMatrixPrefix_same hc, hp.field_eq (k := "id") (by decide),
    decoded_field_same hp (k := "text") (by decide),
    decoded_field_same hp (k := "replyId") (by decide)]
  cases abbreviatedText row.meshtasticText with
  | error e => rfl
  | ok abbreviated =>
    cases getMatrixPrefix w.builtins config'
        (.str (getNameSafely w.builtins w.getLongname (senderOf packet')))
        (.str (getNameSafely w.builtins w.getShortname (senderOf packet')))
        (rowMeshnet row meshnetName) with
    | error e => rfl
    | ok namePrefix =>
      cases reactionSymbol ((decodedOf packet').field "text") <;> rfl

theorem relayReply_same (hc : SameConfig w.portNumName w.config config')
    (hp : SamePacket w.portNumName packet packet') (row : MapRow) (meshnetName : Py) :
    (relayReply w packet row meshnetName).map Relay.unported =
      (relayReply { w with config := config' } packet' row meshnetName).map Relay.unported := by
  unfold relayReply
  simp only [senderOf_same hp, getMatrixPrefix_same hc, hp.field_eq (k := "id") (by decide),
    decoded_field_same hp (k := "text") (by decide),
    decoded_field_same hp (k := "replyId") (by decide)]
  cases getMatrixPrefix w.builtins config'
      (.str (getNameSafely w.builtins w.getLongname (senderOf packet')))
      (.str (getNameSafely w.builtins w.getShortname (senderOf packet')))
      (rowMeshnet row meshnetName) <;> rfl

theorem relayInteraction_same (hnames : PortNames w.portNumName)
    (hc : SameConfig w.portNumName w.config config')
    (hp : SamePacket w.portNumName packet packet') (meshnetName : Py) :
    (relayInteraction w packet meshnetName).map (Option.map Relay.unported) =
      (relayInteraction { w with config := config' } packet' meshnetName).map
        (Option.map Relay.unported) := by
  have hrefers : refersToMessage w packet =
      refersToMessage { w with config := config' } packet' := by
    simp only [refersToMessage, actionOf_same hnames hc hp, isTextMessagePortnum_same hnames hp,
      decoded_field_same hp (k := "replyId") (by decide)]
  have hreaction : isReaction w packet = isReaction { w with config := config' } packet' := by
    simp only [isReaction, hrefers, emojiFlag, getInteractionSettings_same hc,
      decoded_field_same hp (k := "emoji") (by decide)]
  have hreply : isReply w packet = isReply { w with config := config' } packet' := by
    simp only [isReply, hrefers, emojiFlag, getInteractionSettings_same hc,
      decoded_field_same hp (k := "emoji") (by decide)]
  have hrow : referredRow w packet = referredRow { w with config := config' } packet' := by
    simp only [referredRow, decoded_field_same hp (k := "replyId") (by decide)]
  unfold relayInteraction
  rw [hrow, hreaction, hreply]
  cases referredRow { w with config := config' } packet' with
  | none => rfl
  | some row =>
    have hmap (x : Except PyErr Relay) : (x.map some).map (Option.map Relay.unported) =
        (x.map Relay.unported).map some := by
      cases x <;> rfl
    dsimp only
    split_ifs
    · rw [hmap, hmap, relayReaction_same hc hp]
    · rw [hmap, hmap, relayReply_same hc hp]
    · rfl

theorem relayLoop_unported {relay relay' : Py → List Relay}
    (h : ∀ room, (relay room).map Relay.unported = (relay' room).map Relay.unported)
    (channel : ℤ) (rooms : List Py) :
    (relayLoop relay channel rooms).map Relay.unported =
      (relayLoop relay' channel rooms).map Relay.unported := by
  induction rooms with
  | nil => rfl
  | cons room rest ih =>
    unfold relayLoop
    cases room.isDict with
    | false => exact ih
    | true =>
      rw [if_neg (by decide), if_neg (by decide)]
      cases normalizeRoomChannel room with
      | error e => rfl
      | ok mapped =>
        dsimp only
        split_ifs
        · rw [List.map_append, List.map_append, h, ih]
        · exact ih

theorem textRelay_unported (hp : SamePacket w.portNumName packet packet') (message : String)
    (longname shortname meshnetName room : Py) :
    (textRelay packet message longname shortname meshnetName room).map Relay.unported =
      (textRelay packet' message longname shortname meshnetName room).map Relay.unported := by
  unfold textRelay
  rw [hp.field_eq (k := "id") (by decide), decoded_field_same hp (k := "text") (by decide)]
  cases room.getItem "id" <;> rfl

theorem relayTarget_same (hnames : PortNames w.portNumName)
    (hc : SameConfig w.portNumName w.config config')
    (hp : SamePacket w.portNumName packet packet') :
    relayTarget w packet = relayTarget { w with config := config' } packet' := by
  have hdefaults : defaultsChannel (decodedOf packet) = defaultsChannel (decodedOf packet') := by
    rw [defaultsChannel, defaultsChannel, portnumIs_same hnames (portnum_same hp) hnames.text,
      portnumIs_same hnames (portnum_same hp) hnames.detection]
  have hchannel : packetChannel packet = packetChannel packet' := by
    rw [packetChannel, packetChannel, hdefaults, hp.field_eq (k := "channel") (by decide)]
  unfold relayTarget
  rw [actionOf_same hnames hc hp, hchannel]

theorem relayText_same (hnames : PortNames w.portNumName)
    (hc : SameConfig w.portNumName w.config config')
    (hp : SamePacket w.portNumName packet packet') (meshnetName : Py) (direct : Bool) :
    (relayText w packet meshnetName direct).map Outcome.unported =
      (relayText { w with config := config' } packet' meshnetName direct).map Outcome.unported := by
  have hnames' (sender : Py) :
      senderNames w sender = senderNames { w with config := config' } sender := rfl
  unfold relayText
  rw [relayTarget_same hnames hc hp, senderOf_same hp, hnames']
  cases relayTarget { w with config := config' } packet' with
  | error e => exact (rfl : (.error e : Except PyErr Outcome) = .error e)
  | ok target =>
    cases senderNames { w with config := config' } (senderOf packet') with
    | error e => exact (rfl : (.error e : Except PyErr Outcome) = .error e)
    | ok found =>
      obtain ⟨longname, shortname, saved⟩ := found
      have htext := decoded_field_same hp (k := "text") (by decide)
      have hhead := getMatrixPrefix_same hc w.builtins longname shortname meshnetName
      dsimp only [bind, Except.bind]
      rw [hhead, htext]
      cases getMatrixPrefix w.builtins config' longname shortname meshnetName with
      | error e => exact (rfl : (.error e : Except PyErr Outcome) = .error e)
      | ok namePrefix =>
        refine congrArg Except.ok ?_
        unfold Outcome.unported
        dsimp only
        split_ifs with hhandled
        · rfl
        · cases target with
          | none => rfl
          | some found =>
            rw [relayLoop_unported fun room => textRelay_unported hp _ longname shortname
              meshnetName room]

theorem map_liftErr {α β : Type} (f : α → β) (x : Except PyErr α) :
    (liftErr x).map f = liftErr (x.map f) := by
  cases x <;> rfl

/-- What follows the gates, where the two branches do the same. -/
theorem outcome_unported {relay relay' : Except PyErr (Option Relay)}
    {text text' : Except PyErr Outcome}
    (hrelay : relay.map (Option.map Relay.unported) = relay'.map (Option.map Relay.unported))
    (htext : text.map Outcome.unported = text'.map Outcome.unported) (hasText : Bool) :
    Except.map Outcome.unported (do
      match ← liftErr relay with
      | some relay => pure { relays := [relay], dispatched := none, saved := [] }
      | none =>
        if hasText then liftErr text
        else pure { relays := [], dispatched := some none, saved := [] }) =
    Except.map Outcome.unported (do
      match ← liftErr relay' with
      | some relay => pure { relays := [relay], dispatched := none, saved := [] }
      | none =>
        if hasText then liftErr text'
        else pure { relays := [], dispatched := some none, saved := [] }) := by
  cases relay with
  | error e =>
    cases relay' with
    | error e' =>
      obtain rfl : e = e' := Except.error.inj hrelay
      rfl
    | ok r' => cases hrelay
  | ok r =>
    cases relay' with
    | error e' => cases hrelay
    | ok r' =>
      have hsame : r.map Relay.unported = r'.map Relay.unported := Except.ok.inj hrelay
      cases r with
      | none =>
        cases r' with
        | some relay' => cases hsame
        | none =>
          cases hasText with
          | false => rfl
          | true =>
            exact (map_liftErr _ _).trans ((congrArg liftErr htext).trans (map_liftErr _ _).symm)
      | some relay =>
        cases r' with
        | none => cases hsame
        | some relay' =>
          have : relay.unported = relay'.unported := Option.some.inj hsame
          refine congrArg Except.ok ?_
          simp [Outcome.unported, this]

/-- **The handler does the same**, up to the port that it hands on. -/
theorem onMeshtasticMessage_same (hnames : PortNames w.portNumName)
    (hc : SameConfig w.portNumName w.config config')
    (hp : SamePacket w.portNumName packet packet') :
    (onMeshtasticMessage w packet).map Outcome.unported =
      (onMeshtasticMessage { w with config := config' } packet').map Outcome.unported := by
  unfold onMeshtasticMessage
  rw [passGates_same hnames hc hp]
  cases passGates { w with config := config' } packet' with
  | error e => exact (rfl : (.error e : Except Halt Outcome) = .error e)
  | ok gates =>
    obtain ⟨direct, meshnetName⟩ := gates
    dsimp only [bind, Except.bind]
    rw [decoded_field_same hp (k := "text") (by decide)]
    exact outcome_unported (relayInteraction_same hnames hc hp meshnetName)
      (relayText_same hnames hc hp meshnetName direct) _

end Handler

/-! ## Disabled ports -/

/-- A list of ports in the configuration contains a port, as its number or its name; a single name
stands for the list of it. -/
def Listed (portNumName : ℤ → Option String) (config : Py) (key : String) (portnum : Py) : Prop :=
  ∃ routing, packetRouting config = some routing ∧
    ((∃ s, routing.field key = .str s ∧ (strip s).isEmpty = false ∧
      SamePort portNumName (.str (strip s)) portnum) ∨
    ∃ entries, routing.field key = .list entries ∧
      ∃ entry ∈ entries, SamePort portNumName (entryItem entry) portnum)

/-- The port has a name, which does not begin with `UNKNOWN`. -/
def HasName (portNumName : ℤ → Option String) (portnum : Py) : Prop :=
  "UNKNOWN".toList.isPrefixOf (getPortnumName portNumName portnum .none).toList = false

theorem mem_resolvePortnumSet (hnames : PortNames portNumName) {config portnum : Py} {key : String}
    (hport : HasName portNumName portnum) (h : Listed portNumName config key portnum) :
    ∃ routing, packetRouting config = some routing ∧
      getPortnumName portNumName portnum .none ∈
        resolvePortnumSet portNumName (routing.field key) := by
  obtain ⟨routing, hrouting, ⟨s, hs, hne, hsame⟩ | ⟨entries, hentries, entry, hmem, hsame⟩⟩ := h
  · refine ⟨routing, hrouting, ?_⟩
    have hname := @getPortnumName_same _ hnames _ _ .none .none hsame rfl
    rw [← hname, hs, resolvePortnumSet, if_neg (by simp [hne]), getPortnumName, if_neg (by simp [hne])]
    exact List.mem_singleton_self _
  · refine ⟨routing, hrouting, ?_⟩
    have hname := @getPortnumName_same _ hnames _ _ .none .none hsame rfl
    rw [hentries, resolvePortnumSet_list, List.mem_filterMap]
    refine ⟨entry, hmem, ?_⟩
    rw [entryName, hname]
    exact if_neg (ne_true_of_eq_false hport)

/-- A packet that is not encrypted is dropped when its port is disabled, whatever else lists it. -/
theorem classifyPacket_listed (hnames : PortNames portNumName) {portnum config packet : Py}
    (hplain : isEncryptedPacket packet = false) (hport : HasName portNumName portnum)
    (h : Listed portNumName config "disabled_portnums" portnum) :
    classifyPacket portNumName portnum config packet = .drop := by
  obtain ⟨routing, hrouting, hmem⟩ := mem_resolvePortnumSet hnames hport h
  have hname : getPortnumName portNumName portnum packet =
      getPortnumName portNumName portnum .none :=
    getPortnumName_same hnames (.same portnum) hplain
  have hdisabled : (getPacketRoutingOverrides portNumName config).2.contains
      (getPortnumName portNumName portnum packet) = true := by
    rw [hname, getPacketRoutingOverrides, hrouting]
    exact List.contains_iff_mem.2 hmem
  unfold classifyPacket
  rw [hplain]
  simp only [Bool.false_eq_true, if_false, hdisabled, if_true]

theorem getEncryptedAction_ne_relay (config : Py) : getEncryptedAction config ≠ .relay := by
  unfold getEncryptedAction
  cases packetRouting config with
  | none => simp
  | some routing =>
    dsimp only
    generalize routing.field "encrypted_action" = action
    cases action with
    | str s =>
      dsimp only
      split_ifs <;> simp
    | _ => simp

theorem classifyPacket_encrypted {portnum config packet : Py}
    (h : isEncryptedPacket packet = true) :
    classifyPacket portNumName portnum config packet ≠ .relay := by
  rw [classifyPacket, if_pos h]
  exact getEncryptedAction_ne_relay config

/-- **Ports.** How ports are written, in a packet and in the lists of the configuration, changes
neither the classification nor, up to the port handed on, what the handler does. An encrypted packet
is not relayed; one that is not encrypted is dropped when its port is disabled. -/
theorem ports_interchangeable (w : World) (hnames : PortNames w.portNumName)
    {portnum portnum' config' packet packet' : Py}
    (hport : SamePort w.portNumName portnum portnum')
    (hconfig : SameConfig w.portNumName w.config config')
    (hpacket : SamePacket w.portNumName packet packet') :
    classifyPacket w.portNumName portnum w.config packet =
        classifyPacket w.portNumName portnum' config' packet' ∧
    (onMeshtasticMessage w packet).map Outcome.unported =
      (onMeshtasticMessage { w with config := config' } packet').map Outcome.unported ∧
    (isEncryptedPacket packet = true →
      classifyPacket w.portNumName portnum w.config packet ≠ .relay) ∧
    (isEncryptedPacket packet = false → HasName w.portNumName portnum →
      Listed w.portNumName w.config "disabled_portnums" portnum →
      classifyPacket w.portNumName portnum w.config packet = .drop) :=
  ⟨classifyPacket_same hnames hport hconfig hpacket, onMeshtasticMessage_same hnames hconfig hpacket,
    classifyPacket_encrypted, classifyPacket_listed hnames⟩

/-- Some names of the protocol library. -/
def protoName (n : ℤ) : Option String :=
  if n = 0 then some "UNKNOWN_APP"
  else if n = 1 then some "TEXT_MESSAGE_APP"
  else if n = 10 then some "DETECTION_SENSOR_APP"
  else if n = 67 then some "TELEMETRY_APP"
  else none

theorem portNames_protoName : PortNames protoName where
  text := rfl
  detection := rfl
  injective m n name hm hn := by
    unfold protoName at hm hn
    split_ifs at hm hn <;> cases hm <;> first | omega | exact absurd hn (by decide)
  nonempty n name h := by
    unfold protoName at h
    split_ifs at h <;> (cases h; decide)
  stripped n name h := by
    unfold protoName at h
    split_ifs at h <;> (cases h; decide)

/-- A configuration that disables a port. -/
def portConfig (disabled : List Py) : Py :=
  .dict [("matrix", .dict [("prefix_enabled", .bool false)]),
    ("meshtastic", .dict [("meshnet_name", .str "mesh"),
      ("packet_routing", .dict [("disabled_portnums", .list disabled)])])]

/-- A text packet whose port is written as given. -/
def portPacket (portnum : Py) : Py :=
  .dict [("fromId", .str "!1"), ("to", .int broadcastNum), ("channel", .int 0),
    ("decoded", .dict [("portnum", portnum), ("text", .str "ok")])]

/-- The relay of the other examples, with the names of the protocol library. -/
def portWorld (disabled : List Py) : World :=
  { demoWorld with portNumName := protoName, config := portConfig disabled }

/-- A text message is relayed alike as port 1 and as `TEXT_MESSAGE_APP`. -/
theorem ports_interchangeable_text :
    (onMeshtasticMessage (portWorld [.int 67]) (portPacket (.int 1))).map Outcome.unported =
      (onMeshtasticMessage (portWorld [.str "TELEMETRY_APP"])
        (portPacket (.str "TEXT_MESSAGE_APP"))).map Outcome.unported := by
  have hport : SamePort protoName (.int 1) (.str "TEXT_MESSAGE_APP") := .toName rfl
  have hconfig : SameConfig protoName (portConfig [.int 67]) (portConfig [.str "TELEMETRY_APP"]) :=
    .dict (.cons ⟨rfl, .inl rfl⟩ (.cons ⟨rfl, .inr ⟨by decide, .dict (.cons ⟨rfl, .inl rfl⟩
      (.cons ⟨rfl, .inr ⟨by decide, .dict (.cons ⟨rfl, .inr ⟨by decide,
        .list (.cons (.toName rfl) .nil)⟩⟩ .nil)⟩⟩ .nil))⟩⟩ .nil))
  have hpacket : SamePacket protoName (portPacket (.int 1)) (portPacket (.str "TEXT_MESSAGE_APP")) :=
    .dict (.cons ⟨rfl, .inl rfl⟩ (.cons ⟨rfl, .inl rfl⟩ (.cons ⟨rfl, .inl rfl⟩
      (.cons ⟨rfl, .inr ⟨by decide, .dict (.cons ⟨rfl, .inr ⟨by decide, hport⟩⟩
        (.cons ⟨rfl, .inl rfl⟩ .nil))⟩⟩ .nil))))
  exact (ports_interchangeable (portWorld [.int 67]) portNames_protoName hport hconfig hpacket).2.1

/-- The port of an encrypted packet is not looked at, and `UNKNOWN_APP` cannot be disabled. -/
theorem disabled_not_dropped :
    (Listed protoName (portConfig [.int 1]) "disabled_portnums" (.int 1) ∧
      classifyPacket protoName (.int 1) (portConfig [.int 1])
        (.dict [("encrypted", .str "x"), ("decoded", .dict [("portnum", .int 1)])]) ≠ .drop) ∧
    Listed protoName (portConfig [.int 0]) "disabled_portnums" (.int 0) ∧
      classifyPacket protoName (.int 0) (portConfig [.int 0]) (portPacket (.int 0)) ≠ .drop := by
  have hlisted (n : ℤ) : Listed protoName (portConfig [.int n]) "disabled_portnums" (.int n) :=
    ⟨_, rfl, .inr ⟨_, rfl, _, List.mem_singleton_self _, .same _⟩⟩
  exact ⟨⟨hlisted 1, by decide +kernel⟩, hlisted 0, by decide +kernel⟩

end MMRelay.Mesh
