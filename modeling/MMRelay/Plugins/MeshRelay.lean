import MMRelay.Matrix.Claimed

/-!
# The raw packet bridge

`plugins/mesh_relay_plugin.py`: one relay publishes a packet as the content of an event, another
relay rebuilds the packet from it. JSON, base64 and the conversions of the radio library are a
parameter (`Library`).

* `Value`: packets, with bytes; `normalize`, `process`, `handleMeshtasticMessage`: the encoder;
* `matchEvent`, `handleRoomMessage`: the decoder;
* `handleRoomMessage_of_sent`: the decoder rebuilds what the encoder published;
* `Receiver`, `packetsSent`: the decoder behind `on_room_message`;
* **`never_bridged`**: the handler returns at the suppress key, so that no packet is rebuilt.
-/

namespace MMRelay.Plugins

open MMRelay.Matrix

/-- A packet as the radio library hands it over; `object` is what JSON cannot express. -/
inductive Value
  | none
  | bool (b : Bool)
  | int (n : ℤ)
  | float (x : PyFloat)
  | str (s : String)
  | bytes (bs : List UInt8)
  | list (xs : List Value)
  | dict (kvs : List (String × Value))
  | object

/-- A dictionary with another value for a key that it has. -/
def setKey {α : Type} (kvs : List (String × α)) (key : String) (v : α) : List (String × α) :=
  kvs.map fun entry => if entry.1 = key then (key, v) else entry

namespace Value

mutual

/-- The value of an object that was read from JSON. -/
def ofPy : Py → Value
  | .none => none
  | .bool b => bool b
  | .int n => int n
  | .float x => float x
  | .str s => str s
  | .list xs => list (ofPyList xs)
  | .dict kvs => dict (ofPyDict kvs)

def ofPyList : List Py → List Value
  | [] => []
  | x :: xs => ofPy x :: ofPyList xs

def ofPyDict : List (String × Py) → List (String × Value)
  | [] => []
  | (k, x) :: kvs => (k, ofPy x) :: ofPyDict kvs

end

mutual

/-- The value without bytes and objects. -/
def toPy : Value → Option Py
  | none => some .none
  | bool b => some (.bool b)
  | int n => some (.int n)
  | float x => some (.float x)
  | str s => some (.str s)
  | bytes _ => Option.none
  | list xs => (toPyList xs).map .list
  | dict kvs => (toPyDict kvs).map .dict
  | object => Option.none

def toPyList : List Value → Option (List Py)
  | [] => some []
  | x :: xs => (toPy x).bind fun y => (toPyList xs).map (y :: ·)

def toPyDict : List (String × Value) → Option (List (String × Py))
  | [] => some []
  | (k, x) :: kvs => (toPy x).bind fun y => (toPyDict kvs).map ((k, y) :: ·)

end

mutual

/-- `strip_raw`. -/
def stripRaw : Value → Value
  | list xs => list (stripRawList xs)
  | dict kvs => dict (stripRawDict kvs)
  | x => x

def stripRawList : List Value → List Value
  | [] => []
  | x :: xs => stripRaw x :: stripRawList xs

def stripRawDict : List (String × Value) → List (String × Value)
  | [] => []
  | (k, x) :: kvs => if k = "raw" then stripRawDict kvs else (k, stripRaw x) :: stripRawDict kvs

end

def isNone : Value → Bool
  | none => true
  | _ => false

/-- `k in x` for a string `k`. -/
def contains (x : Value) (k : String) : Except PyErr Bool :=
  match x with
  | dict kvs => .ok (kvs.lookup k).isSome
  | list xs => .ok (xs.any fun y => match y with | str s => s == k | _ => false)
  | str s => .ok (decide (k.toList <:+: s.toList))
  | _ => .error .typeError

/-- `x[k]` with a string key. -/
def getItem (x : Value) (k : String) : Except PyErr Value :=
  match x with
  | dict kvs =>
    match kvs.lookup k with
    | some v => .ok v
    | Option.none => .error .keyError
  | _ => .error .typeError

/-- `x.get(k, default)`. -/
def get (x : Value) (k : String) (default : Value) : Except PyErr Value :=
  match x with
  | dict kvs => .ok ((kvs.lookup k).getD default)
  | _ => .error .attributeError

/-- `x[k] = v` for a key of the dictionary. -/
def setItem (x : Value) (k : String) (v : Value) : Value :=
  match x with
  | dict kvs => dict (setKey kvs k v)
  | x => x

/-- `x == y` for a configured `x`. -/
def eqConfigured (x : Py) (y : Value) : Bool :=
  match y.toPy with
  | some y => x.eq y
  | Option.none => false

end Value

/-- What `json.loads` raises: what the callers catch, or something else. -/
inductive LoadErr
  | caught
  | other (e : PyErr)

/-- JSON, base64 and the radio library. -/
structure Library where
  dumps : Value → Except PyErr String
  loads : Value → Except LoadErr Py
  b64encode : List UInt8 → String
  /-- `None` on the exceptions that the caller catches. -/
  b64decode : Py → Option (List UInt8)
  /-- `"{}".format(x)`. -/
  format : Value → String
  /-- The assignment to `MeshPacket.channel`. -/
  channelField : Py → Option ℕ
  /-- The assignment to `Data.portnum`. -/
  portnumField : Py → Option ℤ

variable {lib : Library}

/-! ## The encoder -/

/-- `normalize`. -/
def normalize (lib : Library) (packet : Value) : Except PyErr Value :=
  match packet with
  | .dict kvs => .ok (Value.dict kvs).stripRaw
  | x =>
    match lib.loads x with
    | .ok y => .ok (Value.ofPy y).stripRaw
    | .error .caught => .ok (Value.dict [("decoded", .dict [("text", x)])]).stripRaw
    | .error (.other e) => .error e

/-- `process`. -/
def process (lib : Library) (packet : Value) : Except PyErr Value := do
  let result ← normalize lib packet
  if ← result.contains "decoded" then
    let decoded ← result.getItem "decoded"
    if ← decoded.contains "payload" then
      match ← decoded.getItem "payload" with
      | .bytes bs =>
        pure (result.setItem "decoded" (decoded.setItem "payload" (.str (lib.b64encode bs))))
      | _ => pure result
    else pure result
  else pure result

/-- `_iter_room_configs`. -/
def iterRoomConfigs (config : Py) : List Py :=
  match (config.key? "matrix_rooms").getD (.list []) with
  | .dict kvs => (kvs.map Prod.snd).filter Py.isDict
  | .list rooms => rooms.filter Py.isDict
  | _ => []

/-- A call of `room_send`. -/
structure RoomSend where
  roomId : Py
  content : List (String × Py)

/-- The content that marks a bridged packet. -/
def packetContent (packetJson packetType : String) : List (String × Py) :=
  [("msgtype", .str "m.text"), ("mmrelay_suppress", .bool true),
    ("meshtastic_packet", .str packetJson),
    ("body", .str ("Processed " ++ packetType ++ " radio packet"))]

/-- `handle_meshtastic_message` with a Matrix client. -/
def handleMeshtasticMessage (lib : Library) (config : Py) (packet : Value) :
    Except PyErr (Option RoomSend) := do
  let packet ← process lib packet
  let decoded ← packet.get "decoded" (.dict [])
  let packetType ← decoded.get "portnum" .none
  if packetType.isNone then pure none
  else
    let channel ← packet.get "channel" (.int 0)
    let onChannel (room : Py) := Value.eqConfigured (room.field "meshtastic_channel") channel
    match (iterRoomConfigs config).find? onChannel with
    | none => pure none
    | some room =>
      if !(room.field "id").truthy then pure none
      else
        let packetJson ← lib.dumps packet
        pure (some ⟨room.field "id", packetContent packetJson (lib.format packetType)⟩)

/-! ## The decoder -/

/-- The group of `^Processed (.+) radio packet$`. -/
def processedPacket? (body : String) : Option String :=
  let line := if body.endsWith "\n" then (body.dropEnd 1).toString else body
  match dropPrefix? "Processed " line with
  | none => none
  | some rest =>
    let chars := rest.toList.reverse
    let suffix := " radio packet".toList.reverse
    if suffix.isPrefixOf chars && !(chars.drop suffix.length).isEmpty &&
        !(chars.drop suffix.length).contains '\n' then
      some (String.ofList (chars.drop suffix.length).reverse)
    else none

/-- `content[key] = x`. -/
def setContent (content : List (String × Py)) (key : String) (x : Py) : List (String × Py) :=
  if (content.lookup key).isSome then setKey content key x else content ++ [(key, x)]

/-- The packet that an older marker carries. -/
def legacyPacket (lib : Library) (content : List (String × Py)) (group : String) :
    Except PyErr (Option Py) :=
  match ((Py.dict content).field "packet").orElse ((Py.dict content).field "meshtastic_packet") with
  | .dict kvs => (lib.dumps (Value.ofPy (.dict kvs))).map fun json => some (.str json)
  | .str s =>
    if !(strip s).isEmpty then .ok (some (.str s)) else .ok (legacyBody (strip group))
  | _ => .ok (legacyBody (strip group))
where
  legacyBody (payload : String) : Option Py :=
    if payload.startsWith "\x7b" && payload.endsWith "\x7d" then some (.str payload) else none

/-- `matches`: its answer, and the content that it leaves. -/
def matchEvent (lib : Library) (content : List (String × Py)) :
    Except PyErr (Bool × List (String × Py)) := do
  let content ←
    match (Py.dict content).field "meshtastic_packet" with
    | .dict kvs =>
      (lib.dumps (Value.ofPy (.dict kvs))).map fun json =>
        setContent content "meshtastic_packet" (.str json)
    | _ => pure content
  let packet := (Py.dict content).field "meshtastic_packet"
  match (Py.dict content).field "mmrelay_suppress", packet.truthy with
  | .bool true, true => pure (true, content)
  | _, _ =>
    match ((Py.dict content).key? "body").getD (.str "") with
    | .str body =>
      match processedPacket? body with
      | none => pure (false, content)
      | some group =>
        if packet.truthy then pure (true, content)
        else
          match ← legacyPacket lib content group with
          | none => pure (false, content)
          | some x => pure (x.truthy, setContent content "meshtastic_packet" x)
    | _ => pure (false, content)

/-- A packet handed to `_sendPacket`. -/
structure MeshPacket where
  channel : ℕ
  payload : List UInt8
  portnum : ℤ
  destination : Py

/-- The packet that is rebuilt; `None` where the function logs and returns `False`. -/
def rebuild (lib : Library) (channel packet : Py) : Option MeshPacket := do
  let decoded ← (packet.key? "decoded").getD (.dict [])
    |> fun decoded => if decoded.isDict then some decoded else none
  let payload := decoded.field "payload"
  let portnum := decoded.field "portnum"
  let destination := packet.field "toId"
  if !payload.truthy || portnum.isNone || destination.isNone then none
  else
    let channel ← lib.channelField channel
    let payload ← lib.b64decode payload
    let portnum ← lib.portnumField portnum
    some ⟨channel, payload, portnum, destination⟩

/-- `meshtastic_channel` of the first room with this id. -/
def channelOf (config : Py) (roomId : String) : Py :=
  match (iterRoomConfigs config).find? fun room => (room.field "id").eqStr roomId with
  | some room => room.field "meshtastic_channel"
  | none => .none

/-- `handle_room_message`: the packet that it sends. `sends` says that there is a radio client, and
that it has `_sendPacket`. -/
def handleRoomMessage (lib : Library) (config : Py) (roomId : String) (sends : Bool)
    (content : List (String × Py)) : Except PyErr (Option MeshPacket) := do
  let (matched, content) ← matchEvent lib content
  if !matched then pure none
  else if (channelOf config roomId).isNone then pure none
  else
    let packetJson := (Py.dict content).field "meshtastic_packet"
    if !packetJson.truthy then pure none
    else
      match lib.loads (Value.ofPy packetJson) with
      | .error .caught => pure none
      | .error (.other e) => .error e
      | .ok (.dict kvs) =>
        pure (if sends then rebuild lib (channelOf config roomId) (.dict kvs) else none)
      | .ok _ => pure none

/-! ## The round trip of the plugin -/

theorem lookup_stripRawDict {k : String} (hk : k ≠ "raw") (kvs : List (String × Value)) :
    (Value.stripRawDict kvs).lookup k = (kvs.lookup k).map Value.stripRaw := by
  induction kvs with
  | nil => rfl
  | cons entry kvs ih =>
    obtain ⟨key, x⟩ := entry
    rw [Value.stripRawDict, List.lookup_cons]
    split_ifs with hraw
    · have hne : (k == key) = false := by
        rw [hraw]
        exact beq_false_of_ne hk
      rw [hne, ih]
    · rw [List.lookup_cons]
      cases hkey : k == key with
      | true => rfl
      | false => exact ih

theorem lookup_setKey {α : Type} (kvs : List (String × α)) (key : String) (v : α) (k : String) :
    (setKey kvs key v).lookup k =
      if k = key then (kvs.lookup k).map fun _ => v else kvs.lookup k := by
  unfold setKey
  induction kvs with
  | nil => simp
  | cons entry kvs ih =>
    obtain ⟨key', x⟩ := entry
    rw [List.map_cons, List.lookup_cons, List.lookup_cons]
    by_cases hkey : key' = key
    · subst hkey
      rw [if_pos rfl]
      by_cases hk : k = key'
      · subst hk
        simp
      · rw [beq_false_of_ne hk, ih]
    · rw [if_neg hkey]
      simp only
      cases hk : k == key' with
      | true =>
        rw [eq_of_beq hk, if_neg hkey]
      | false => exact ih

theorem lookup_toPyDict {kvs : List (String × Value)} {kvs' : List (String × Py)}
    (h : Value.toPyDict kvs = some kvs') {k : String} {x : Value} (hx : kvs.lookup k = some x) :
    ∃ y, x.toPy = some y ∧ kvs'.lookup k = some y := by
  induction kvs generalizing kvs' with
  | nil => cases hx
  | cons entry kvs ih =>
    obtain ⟨key, z⟩ := entry
    rw [Value.toPyDict, Option.bind_eq_some_iff] at h
    obtain ⟨y, hy, h⟩ := h
    obtain ⟨rest, hrest, rfl⟩ := Option.map_eq_some_iff.mp h
    rw [List.lookup_cons] at hx ⊢
    cases hk : k == key with
    | true =>
      rw [hk] at hx
      cases hx
      exact ⟨y, hy, rfl⟩
    | false =>
      rw [hk] at hx
      exact ih hrest hx

/-- The fields of a packet that are rebuilt. -/
def RawPacket (packet payload : Value) (portnum : ℤ) (toId : String) : Prop :=
  ∃ kvs decoded, packet = .dict kvs ∧ kvs.lookup "decoded" = some (.dict decoded) ∧
    decoded.lookup "payload" = some payload ∧ decoded.lookup "portnum" = some (.int portnum) ∧
    kvs.lookup "toId" = some (.str toId)

/-- The encoder keeps the fields and encodes the payload. -/
theorem process_rawPacket (lib : Library) {packet : Value} {bs : List UInt8} {portnum : ℤ} {toId : String}
    (h : RawPacket packet (.bytes bs) portnum toId) :
    ∃ v, process lib packet = .ok v ∧ RawPacket v (.str (lib.b64encode bs)) portnum toId := by
  obtain ⟨kvs, decoded, rfl, hdecoded, hpayload, hportnum, htoId⟩ := h
  have hdecoded' : (Value.stripRawDict kvs).lookup "decoded" =
      some (.dict (Value.stripRawDict decoded)) := by
    rw [lookup_stripRawDict (by decide), hdecoded, Option.map_some, Value.stripRaw]
  have hpayload' : (Value.stripRawDict decoded).lookup "payload" = some (.bytes bs) := by
    rw [lookup_stripRawDict (by decide), hpayload]
    simp [Value.stripRaw]
  have hportnum' : (Value.stripRawDict decoded).lookup "portnum" = some (.int portnum) := by
    rw [lookup_stripRawDict (by decide), hportnum]
    simp [Value.stripRaw]
  have htoId' : (Value.stripRawDict kvs).lookup "toId" = some (.str toId) := by
    rw [lookup_stripRawDict (by decide), htoId]
    simp [Value.stripRaw]
  have hnormal : normalize lib (.dict kvs) = .ok (.dict (Value.stripRawDict kvs)) := by
    simp [normalize, Value.stripRaw]
  have hprocess : process lib (.dict kvs) = .ok
      (.dict (setKey (Value.stripRawDict kvs) "decoded"
        (.dict (setKey (Value.stripRawDict decoded) "payload" (.str (lib.b64encode bs)))))) := by
    simp only [process, hnormal, bind, Except.bind, Value.contains, Value.getItem, hdecoded',
      hpayload', Option.isSome_some, if_true, pure, Except.pure, Value.setItem]
  refine ⟨_, hprocess, setKey (Value.stripRawDict kvs) "decoded" _,
    setKey (Value.stripRawDict decoded) "payload" (.str (lib.b64encode bs)), rfl, ?_, ?_, ?_, ?_⟩
  · rw [lookup_setKey, if_pos rfl, hdecoded']
    rfl
  · rw [lookup_setKey, if_pos rfl, hpayload']
    rfl
  · rw [lookup_setKey, if_neg (by decide)]
    exact hportnum'
  · rw [lookup_setKey, if_neg (by decide)]
    exact htoId'

/-- JSON carries the value: what is dumped loads as the same object. -/
structure Library.Carries (lib : Library) (v : Value) : Prop where
  nonempty : ∀ json, lib.dumps v = .ok json → json.isEmpty = false
  loads : ∀ json, lib.dumps v = .ok json → ∃ x, v.toPy = some x ∧ lib.loads (.str json) = .ok x

/-- What the encoder publishes is the JSON text of the processed packet. -/
theorem sent_content {config : Py} {packet v : Value} {sent : RoomSend}
    (hv : process lib packet = .ok v)
    (hsent : handleMeshtasticMessage lib config packet = .ok (some sent)) :
    ∃ json packetType, lib.dumps v = .ok json ∧ sent.content = packetContent json packetType := by
  unfold handleMeshtasticMessage at hsent
  rw [hv] at hsent
  obtain ⟨_, hv', hsent⟩ := except_bind_eq_ok.mp hsent
  cases hv'
  obtain ⟨decoded, -, hsent⟩ := except_bind_eq_ok.mp hsent
  obtain ⟨packetType, -, hsent⟩ := except_bind_eq_ok.mp hsent
  split_ifs at hsent
  · cases hsent
  · obtain ⟨channel, -, hsent⟩ := except_bind_eq_ok.mp hsent
    simp only at hsent
    split at hsent
    · cases hsent
    · split_ifs at hsent
      · cases hsent
      · obtain ⟨json, hjson, hsent⟩ := except_bind_eq_ok.mp hsent
        cases hsent
        exact ⟨json, _, hjson, rfl⟩

theorem rebuild_rawPacket {v : Value} {x channel : Py} {bs : List UInt8} {c : ℕ} {portnum : ℤ}
    {toId : String} (h : RawPacket v (.str (lib.b64encode bs)) portnum toId)
    (hx : v.toPy = some x) (hbs : (lib.b64encode bs).isEmpty = false)
    (hdecode : lib.b64decode (.str (lib.b64encode bs)) = some bs)
    (hport : lib.portnumField (.int portnum) = some portnum)
    (hchannel : lib.channelField channel = some c) :
    x.isDict = true ∧ rebuild lib channel x = some ⟨c, bs, portnum, .str toId⟩ := by
  obtain ⟨kvs, decoded, rfl, hdecoded, hpayload, hportnum, htoId⟩ := h
  rw [Value.toPy] at hx
  obtain ⟨kvs', hkvs', rfl⟩ := Option.map_eq_some_iff.mp hx
  obtain ⟨y, hy, hlookup⟩ := lookup_toPyDict hkvs' hdecoded
  obtain ⟨target, hto, htoLookup⟩ := lookup_toPyDict hkvs' htoId
  simp only [Value.toPy, Option.some.injEq] at hy hto
  subst hto
  obtain ⟨decoded', hdecoded', rfl⟩ := Option.map_eq_some_iff.mp hy
  obtain ⟨p, hp, hpLookup⟩ := lookup_toPyDict hdecoded' hpayload
  obtain ⟨n, hn, hnLookup⟩ := lookup_toPyDict hdecoded' hportnum
  simp only [Value.toPy, Option.some.injEq] at hp hn
  subst hp hn
  refine ⟨rfl, ?_⟩
  simp [rebuild, Py.key?, Py.field, hlookup, htoLookup, hpLookup, hnLookup, Py.isDict, Py.truthy,
    Py.isNone, hbs, hdecode, hport, hchannel]

/-- The decoder rebuilds the packet that the encoder published: the two methods of the plugin are
inverse to each other, for a payload that is not empty. -/
theorem handleRoomMessage_of_sent {configA configB : Py} {roomId : String} {packet v : Value}
    {bs : List UInt8} {portnum : ℤ} {toId : String} {sent : RoomSend} {c : ℕ}
    (h : RawPacket packet (.bytes bs) portnum toId) (hv : process lib packet = .ok v)
    (hcarries : lib.Carries v)
    (hsent : handleMeshtasticMessage lib configA packet = .ok (some sent))
    (hbs : (lib.b64encode bs).isEmpty = false)
    (hdecode : lib.b64decode (.str (lib.b64encode bs)) = some bs)
    (hport : lib.portnumField (.int portnum) = some portnum)
    (hroom : (channelOf configB roomId).isNone = false)
    (hchannel : lib.channelField (channelOf configB roomId) = some c) :
    handleRoomMessage lib configB roomId true sent.content =
      .ok (some ⟨c, bs, portnum, .str toId⟩) := by
  obtain ⟨json, packetType, hjson, hcontent⟩ := sent_content hv hsent
  obtain ⟨x, hx, hloads⟩ := hcarries.loads json hjson
  have hne := hcarries.nonempty json hjson
  obtain ⟨v', hv', hraw⟩ := process_rawPacket lib h
  rw [hv] at hv'
  cases hv'
  obtain ⟨hdict, hrebuild⟩ := rebuild_rawPacket hraw hx hbs hdecode hport hchannel
  have hmatch : matchEvent lib sent.content = .ok (true, sent.content) := by
    rw [hcontent]
    simp [matchEvent, packetContent, Py.field, Py.key?, List.lookup, Py.truthy, hne, bind,
      Except.bind, pure, Except.pure]
  have hpacket : (Py.dict sent.content).field "meshtastic_packet" = .str json := by
    rw [hcontent]
    rfl
  cases x with
  | dict kvs =>
    simp [handleRoomMessage, hmatch, hroom, hpacket, Py.truthy, hne, Value.ofPy, hloads, hrebuild,
      bind, Except.bind, pure, Except.pure]
  | _ => cases hdict

/-! ## Behind the room handler -/

/-- A relay with the plugin: `rank` of its other plugins are asked first. -/
structure Receiver where
  world : World
  rank : ℕ
  sends : Bool

/-- The plugin, as the handler of room events sees it. -/
def Receiver.plugin (lib : Library) (b : Receiver) (e : Event) : Plugin where
  handles :=
    match handleRoomMessage lib b.world.config b.world.roomId b.sends e.content with
    | .ok packet => some packet.isSome
    | .error _ => none
  test :=
    .matches
      (match matchEvent lib e.content with
      | .ok (_, content) =>
        match matchEvent lib content with
        | .ok (matched, _) => some matched
        | .error _ => none
      | .error _ => none)

/-- The relay while it handles the event. -/
def Receiver.worldFor (lib : Library) (b : Receiver) (e : Event) : World :=
  { b.world with
    plugins := b.world.plugins.take b.rank ++ b.plugin lib e :: b.world.plugins.drop b.rank }

/-- The packets that the plugin sends while the relay handles the event. -/
def packetsSent (lib : Library) (b : Receiver) (e : Event) : List MeshPacket :=
  if reachesPlugins (b.worldFor lib e) e && !pluginHandles (b.world.plugins.take b.rank) then
    match handleRoomMessage lib b.world.config b.world.roomId b.sends e.content with
    | .ok (some packet) => [packet]
    | _ => []
  else []

/-- The event leads to exactly this packet, and its text is not relayed. -/
def Bridged (lib : Library) (b : Receiver) (e : Event) (packet : MeshPacket) : Prop :=
  packetsSent lib b e = [packet] ∧ onRoomMessage (b.worldFor lib e) e = []

theorem readEvent_of_suppressed {w : World} {e : Event}
    (h : (e.field "mmrelay_suppress").truthy = true) : (readEvent w e).isOk = false := by
  cases hread : readEvent w e with
  | error err => rfl
  | ok c =>
    rw [(readEvent_eq_ok hread).2.2] at h
    cases h

/-- A published packet is neither rebuilt nor relayed as text. -/
theorem packetsSent_of_suppressed {b : Receiver} {e : Event}
    (h : (e.field "mmrelay_suppress").truthy = true) :
    packetsSent lib b e = [] ∧ onRoomMessage (b.worldFor lib e) e = [] := by
  have hread := readEvent_of_suppressed (w := b.worldFor lib e) h
  cases herr : readEvent (b.worldFor lib e) e with
  | ok c =>
    rw [herr] at hread
    cases hread
  | error err =>
    constructor
    · simp [packetsSent, reachesPlugins, herr]
    · simp [onRoomMessage, herr]

/-- **The bridge.** No packet that the plugin of one relay publishes is rebuilt by another relay:
its content carries the suppress key, at which the room handler returns before it asks a plugin. -/
theorem never_bridged (lib : Library) (configA : Py) (packet : Value) (sent : RoomSend)
    (hsent : handleMeshtasticMessage lib configA packet = .ok (some sent)) (b : Receiver)
    (e : Event) (he : e.content = sent.content) (rebuilt : MeshPacket) :
    ¬ Bridged lib b e rebuilt := by
  have hsuppress : (e.field "mmrelay_suppress").truthy = true := by
    unfold handleMeshtasticMessage at hsent
    obtain ⟨v, hv, -⟩ := except_bind_eq_ok.mp hsent
    obtain ⟨json, packetType, -, hcontent⟩ := sent_content hv hsent
    rw [Event.field, he, hcontent]
    rfl
  rintro ⟨hpackets, -⟩
  rw [(packetsSent_of_suppressed hsuppress).1] at hpackets
  cases hpackets

/-! ## A packet that is lost -/

/-- A text packet on channel zero. -/
def helloPacket : Value :=
  .dict [("channel", .int 0), ("toId", .str "!b"),
    ("decoded", .dict [("portnum", .int 1), ("payload", .bytes [72, 105])]), ("raw", .object)]

/-- The packet as JSON carries it. -/
def helloObject : Py :=
  .dict [("channel", .int 0), ("toId", .str "!b"),
    ("decoded", .dict [("portnum", .int 1), ("payload", .str "SGk=")])]

def helloJson : String :=
  "\x7b\"channel\": 0, \"toId\": \"!b\", " ++
    "\"decoded\": \x7b\"portnum\": 1, \"payload\": \"SGk=\"\x7d\x7d"

/-- The libraries on this packet. -/
def helloLibrary : Library where
  dumps v :=
    match v.toPy with
    | some x => if x.eq helloObject then .ok helloJson else .error .typeError
    | none => .error .typeError
  loads
    | .str s => if s = helloJson then .ok helloObject else .error .caught
    | _ => .error .caught
  b64encode bs := if bs = [72, 105] then "SGk=" else ""
  b64decode x := if x.eqStr "SGk=" then some [72, 105] else none
  format
    | .int n => toString n
    | _ => ""
  channelField
    | .int n => if 0 ≤ n ∧ n < 2 ^ 32 then some n.toNat else none
    | _ => none
  portnumField
    | .int n => if -(2 ^ 31) ≤ n ∧ n < 2 ^ 31 then some n else none
    | _ => none

/-- A configuration with one room on channel zero. -/
def bridgeConfig : Py :=
  .dict [("matrix_rooms", .list [.dict [("id", .str "!a"), ("meshtastic_channel", .int 0)]])]

/-- The relay of the other mesh. -/
def bridgeReceiver : Receiver where
  world := { demoWorld with config := bridgeConfig }
  rank := 0
  sends := true

def helloSent : RoomSend := ⟨.str "!a", packetContent helloJson "1"⟩

/-- The event of the published packet. -/
def helloEvent : Event :=
  { kind := .text, sender := "@relay:x", eventId := "$p", serverTimestamp := 0
    body := "Processed 1 radio packet", content := helloSent.content }

theorem helloPacket_sent :
    handleMeshtasticMessage helloLibrary bridgeConfig helloPacket = .ok (some helloSent) := rfl

/-- The published packet does not reach the plugin of the other relay. -/
theorem never_bridged_hello :
    handleMeshtasticMessage helloLibrary bridgeConfig helloPacket = .ok (some helloSent) ∧
      ∀ rebuilt, ¬ Bridged helloLibrary bridgeReceiver helloEvent rebuilt :=
  ⟨helloPacket_sent,
    never_bridged helloLibrary bridgeConfig helloPacket helloSent helloPacket_sent bridgeReceiver
      helloEvent rfl⟩

/-- The plugin of the other relay would rebuild the packet, and the relay never asks it. -/
theorem helloPacket_lost :
    RawPacket helloPacket (.bytes [72, 105]) 1 "!b" ∧
    handleMeshtasticMessage helloLibrary bridgeConfig helloPacket = .ok (some helloSent) ∧
    channelOf bridgeReceiver.world.config "!a" = .int 0 ∧
    handleRoomMessage helloLibrary bridgeReceiver.world.config "!a" true helloEvent.content =
      .ok (some ⟨0, [72, 105], 1, .str "!b"⟩) ∧
    packetsSent helloLibrary bridgeReceiver helloEvent = [] := by
  refine ⟨⟨_, _, rfl, rfl, rfl, rfl, rfl⟩, helloPacket_sent, rfl, rfl, ?_⟩
  exact (packetsSent_of_suppressed rfl).1

end MMRelay.Plugins
