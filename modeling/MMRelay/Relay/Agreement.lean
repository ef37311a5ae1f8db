import MMRelay.Mesh.Confinement
import MMRelay.Matrix.Handler

/-!
# Rooms and channels in the two directions

Which room a packet of channel `c` reaches, and on which channel a message of room `R` is sent.
`on_meshtastic_message` goes through the entries of `matrix_rooms` with `_normalize_room_channel`
and `room["id"]`; `on_room_message` looks the room up by key or `id` and takes only a true integer.

* `relayLoop_eq`, `relayedTo_iff`: the packet reaches the rooms before the first entry that raises;
* `findRoomConfig_iff`, `enqueuedOn_iff`: the message is sent on the channel of the room's entry;
* **`agreement_iff`**: when the two agree, for every configuration;
* **`channels_agree_iff`**: the same for configurations whose keys and channels are in order.
-/

namespace MMRelay.Relay

/-! ## Entries -/

/-- The entries of `matrix_rooms` in list or in dictionary form, with the key of the latter. -/
def roomEntries : Py → List (Option String × Py)
  | .list rooms => rooms.map fun room => (none, room)
  | .dict kvs => kvs.map fun kv => (some kv.1, kv.2)
  | _ => []

/-- The entry stands for the room, by its key or by its `id`. -/
def Names (entry : Option String × Py) (R : String) : Prop :=
  entry.1 = some R ∨ entry.2.field "id" = .str R

/-- Each room id occurs once. -/
def RoomIdsOnce (rooms : Py) : Prop :=
  (roomEntries rooms).Pairwise fun a b => ∀ R, Names a R → ¬ Names b R

/-! ## From the radio to Matrix -/

/-- `_normalize_room_channel` of the entry raises. -/
def raises (room : Py) : Bool := room.isDict && !(Mesh.normalizeRoomChannel room).isOk

/-- The entries that the loops over the rooms get to see. -/
def reached (rooms : List Py) : List Py := rooms.takeWhile fun room => !raises room

/-- The channel of the entry, after `int()`. -/
def onChannel (c : ℤ) (room : Py) : Bool :=
  match Mesh.normalizeRoomChannel room with
  | .ok channel => decide (channel = some c)
  | .error _ => false

theorem normalizeRoomChannel_of_not_isDict {room : Py} (h : room.isDict = false) :
    Mesh.normalizeRoomChannel room = .ok none := by
  cases room with
  | dict kvs => cases h
  | none | bool | int | float | str | list => rfl

theorem onChannel_eq_true {c : ℤ} {room : Py} :
    onChannel c room = true ↔ Mesh.normalizeRoomChannel room = .ok (some c) := by
  unfold onChannel
  cases Mesh.normalizeRoomChannel room with
  | error e => simp
  | ok channel => simp

theorem reached_cons_of_raises {room : Py} (h : raises room = true) (rest : List Py) :
    reached (room :: rest) = [] := by
  simp [reached, h]

theorem reached_cons {room : Py} (h : raises room = false) (rest : List Py) :
    reached (room :: rest) = room :: reached rest := by
  simp [reached, h]

theorem relayLoop_eq (relay : Py → List Mesh.Relay) (c : ℤ) (rooms : List Py) :
    Mesh.relayLoop relay c rooms = ((reached rooms).filter (onChannel c)).flatMap relay := by
  induction rooms with
  | nil => rfl
  | cons room rest ih =>
    rw [Mesh.relayLoop]
    cases hdict : room.isDict with
    | false =>
      have hraise : raises room = false := by simp [raises, hdict]
      have hoff : onChannel c room = false := by
        simp [onChannel, normalizeRoomChannel_of_not_isDict hdict]
      rw [reached_cons hraise, List.filter_cons_of_neg (by simp [hoff]), ← ih]
      rfl
    | true =>
      cases hch : Mesh.normalizeRoomChannel room with
      | error e =>
        have hraise : raises room = true := by simp [raises, hdict, hch, Except.isOk, Except.toBool]
        rw [reached_cons_of_raises hraise]
        rfl
      | ok mapped =>
        have hraise : raises room = false := by simp [raises, hch, Except.isOk, Except.toBool]
        rw [reached_cons hraise]
        by_cases heq : mapped = some c
        · have hon : onChannel c room = true := by simp [onChannel, hch, heq]
          rw [List.filter_cons_of_pos hon, List.flatMap_cons, ← ih]
          simp [heq]
        · have hoff : onChannel c room = false := by simp [onChannel, hch, heq]
          rw [List.filter_cons_of_neg (by simp [hoff]), ← ih]
          simp [heq]

theorem channelMapped_eq_true (c : ℤ) (rooms : List Py) :
    Mesh.channelMapped c rooms = .ok true ↔ ∃ room ∈ reached rooms, onChannel c room = true := by
  induction rooms with
  | nil => simp [Mesh.channelMapped, reached]
  | cons room rest ih =>
    rw [Mesh.channelMapped]
    cases hdict : room.isDict with
    | false =>
      have hraise : raises room = false := by simp [raises, hdict]
      have hoff : onChannel c room = false := by
        simp [onChannel, normalizeRoomChannel_of_not_isDict hdict]
      rw [reached_cons hraise]
      simpa [hoff] using ih
    | true =>
      cases hch : Mesh.normalizeRoomChannel room with
      | error e =>
        have hraise : raises room = true := by simp [raises, hdict, hch, Except.isOk, Except.toBool]
        rw [reached_cons_of_raises hraise]
        simp [bind, Except.bind]
      | ok mapped =>
        have hraise : raises room = false := by simp [raises, hch, Except.isOk, Except.toBool]
        rw [reached_cons hraise]
        by_cases heq : mapped = some c
        · simp [onChannel, hch, heq, bind, Except.bind, pure, Except.pure]
        · simpa [onChannel, hch, heq, bind, Except.bind] using ih

/-- An ordinary broadcast text packet on channel `c`: it passes the gates, is no direct message and
no answer to another message, no plugin is active, and the name of its sender can be rendered. -/
structure OrdinaryPacket (w : Mesh.World) (packet : Py) (c : ℤ) : Prop where
  action : Mesh.actionOf w packet = .relay
  text : ((Mesh.decodedOf packet).field "text").truthy = true
  noReply : (Mesh.decodedOf packet).field "replyId" = .none
  channel : packet.field "channel" = .int c
  plugins : w.plugins = []
  accepted : ∃ meshnetName longname shortname saved,
    Mesh.passGates w packet = .ok (false, meshnetName) ∧
    Mesh.senderNames w (Mesh.senderOf packet) = .ok (longname, shortname, saved) ∧
    (getMatrixPrefix w.builtins w.config longname shortname meshnetName).isOk = true

/-- A relay of the packet to the room is scheduled. -/
def RelayedTo (w : Mesh.World) (packet : Py) (R : String) : Prop :=
  ∃ r ∈ Mesh.relays w packet, r.room = .str R

section Packet

variable {w : Mesh.World} {packet : Py} {c : ℤ} {R : String}

theorem OrdinaryPacket.interactionRow_eq_none (h : OrdinaryPacket w packet c) :
    Mesh.interactionRow w packet = none := by
  have hrefers : Mesh.refersToMessage w packet = false := by
    simp [Mesh.refersToMessage, h.noReply, Py.truthy]
  simp [Mesh.interactionRow, Mesh.isReaction, Mesh.isReply, hrefers]

/-- Of the other forms there are no entries; some of them raise. -/
theorem iterableMatrixRooms_cases (rooms : Py) :
    Mesh.iterableMatrixRooms rooms = .ok ((roomEntries rooms).map Prod.snd) ∨
      (∃ e, Mesh.iterableMatrixRooms rooms = .error e) ∧ roomEntries rooms = [] := by
  cases rooms with
  | list rooms => exact .inl (by simp [Mesh.iterableMatrixRooms, roomEntries])
  | dict kvs =>
    left
    simp only [Mesh.iterableMatrixRooms, roomEntries, List.map_map]
    rfl
  | str s => exact .inl rfl
  | none => exact .inl rfl
  | bool | int | float =>
    unfold Mesh.iterableMatrixRooms
    simp only
    split
    · exact .inr ⟨⟨_, rfl⟩, rfl⟩
    · exact .inl rfl

theorem mem_textRelay_room {message : String} {longname shortname meshnetName room : Py} :
    (∃ r ∈ Mesh.textRelay packet message longname shortname meshnetName room, r.room = .str R) ↔
      room.field "id" = .str R := by
  cases room with
  | dict kvs =>
    simp only [Mesh.textRelay, Py.getItem, Py.field, Py.key?]
    cases hid : kvs.lookup "id" with
    | none => simp
    | some id => simp
  | none | bool | int | float | str | list => simp [Mesh.textRelay, Py.getItem, Py.field, Py.key?]

theorem relays_of_ordinary (h : OrdinaryPacket w packet c) : ∃ relay : Py → List Mesh.Relay,
    (∀ room, (∃ r ∈ relay room, r.room = .str R) ↔ room.field "id" = .str R) ∧
      Mesh.relays w packet =
        match Mesh.relayTarget w packet with
        | .ok (some (channel, rooms)) => Mesh.relayLoop relay channel rooms
        | _ => [] := by
  obtain ⟨meshnetName, longname, shortname, saved, hgates, hnames, hprefix⟩ := h.accepted
  obtain ⟨namePrefix, hprefix⟩ := isOk_iff.mp hprefix
  refine ⟨Mesh.textRelay packet
    (namePrefix ++ ((Mesh.decodedOf packet).field "text").toStr w.builtins) longname shortname
    meshnetName, fun room => mem_textRelay_room, ?_⟩
  rw [Mesh.relays_of_passGates hgates, Mesh.relayInteraction_of_none h.interactionRow_eq_none]
  simp only [h.text, if_true, Mesh.relayText]
  cases Mesh.relayTarget w packet with
  | error e => rfl
  | ok target =>
    rw [hnames]
    simp only [bind, Except.bind, hprefix, h.plugins]
    cases target with
    | none => rfl
    | some target => rfl

theorem relayTarget_of_ordinary (h : OrdinaryPacket w packet c) :
    Mesh.relayTarget w packet = (Mesh.iterableMatrixRooms w.matrixRooms).bind fun rooms =>
      (Mesh.channelMapped c rooms).map fun mapped => if mapped then some (c, rooms) else none := by
  have hchannel : Mesh.packetChannel packet = .ok (some c) := by
    simp [Mesh.packetChannel, h.channel, Py.toInt]
  unfold Mesh.relayTarget
  rw [h.action]
  simp only [hchannel]
  rfl

/-- An ordinary packet is relayed to the rooms on its channel, up to the first entry that raises. -/
theorem relayedTo_iff (h : OrdinaryPacket w packet c) : RelayedTo w packet R ↔
    ∃ room ∈ reached ((roomEntries w.matrixRooms).map Prod.snd),
      onChannel c room = true ∧ room.field "id" = .str R := by
  obtain ⟨relay, hrelay, hrelays⟩ := relays_of_ordinary (R := R) h
  unfold RelayedTo
  rw [hrelays, relayTarget_of_ordinary h]
  rcases iterableMatrixRooms_cases w.matrixRooms with hrooms | ⟨⟨e, herror⟩, hnil⟩
  · set rooms := (roomEntries w.matrixRooms).map Prod.snd
    rw [hrooms]
    by_cases hmapped : Mesh.channelMapped c rooms = .ok true
    · have hloop : ∀ r, r ∈ Mesh.relayLoop relay c rooms ↔
          ∃ room ∈ reached rooms, onChannel c room = true ∧ r ∈ relay room := by
        intro r
        rw [relayLoop_eq]
        simp [and_assoc]
      simp only [Except.bind, hmapped, Except.map, if_true, hloop]
      constructor
      · rintro ⟨r, ⟨room, hmem, hon, hr⟩, hroom⟩
        exact ⟨room, hmem, hon, (hrelay room).mp ⟨r, hr, hroom⟩⟩
      · rintro ⟨room, hmem, hon, hid⟩
        obtain ⟨r, hr, hroom⟩ := (hrelay room).mpr hid
        exact ⟨r, ⟨room, hmem, hon, hr⟩, hroom⟩
    · have hnone : ¬ ∃ room ∈ reached rooms, onChannel c room = true := fun hex =>
        hmapped ((channelMapped_eq_true c rooms).mpr hex)
      constructor
      · rintro ⟨r, hr, -⟩
        cases hm : Mesh.channelMapped c rooms with
        | error e => simp [Except.bind, hm, Except.map] at hr
        | ok mapped =>
          cases mapped with
          | true => exact absurd hm hmapped
          | false => simp [Except.bind, hm, Except.map] at hr
      · rintro ⟨room, hmem, hon, -⟩
        exact absurd ⟨room, hmem, hon⟩ hnone
  · rw [herror, hnil]
    simp [Except.bind, reached]

end Packet

/-! ## From Matrix to the radio -/

/-- An ordinary message of another user: no reaction, no reply and not from a mesh, while no plugin
is active, the radio is connected and broadcasts are enabled. -/
structure OrdinaryMessage (w : Matrix.World) (e : Matrix.Event) : Prop where
  fresh : Matrix.isStale w e = false
  other : some e.sender ≠ w.botUserId
  config : w.config.isNone = false
  kind : e.kind = .text ∨ e.kind = .notice
  body : e.body.isEmpty = false
  noRelation : e.field "m.relates_to" = .none
  notSuppressed : (e.field "mmrelay_suppress").truthy = false
  notRelayed : Matrix.isRelayed e = false
  notDetection : Matrix.isDetectionPacket e = false
  plugins : w.plugins = []
  connected : w.connects .message = true
  broadcast : Matrix.broadcastEnabled w = true

/-- The message is enqueued to the radio on the channel. -/
def EnqueuedOn (w : Matrix.World) (e : Matrix.Event) (c : ℤ) : Prop :=
  ∃ s ∈ Matrix.onRoomMessage w e, s.channel = c

section Message

variable {w : Matrix.World} {e : Matrix.Event} {c : ℤ} {room : Py}

theorem eqStr_iff {x : Py} {s : String} : x.eqStr s = true ↔ x = .str s := by
  cases x with
  | str t => simp [Py.eqStr]
  | none | bool | int | float | list | dict => simp [Py.eqStr]

theorem isDict_of_field {k : String} (h : room.field k ≠ .none) : room.isDict = true := by
  cases room with
  | dict kvs => rfl
  | none | bool | int | float | str | list => exact absurd rfl h

theorem truthy_of_field {k : String} (h : room.field k ≠ .none) : room.truthy = true := by
  cases room with
  | dict kvs =>
    cases kvs with
    | nil => exact absurd rfl h
    | cons kv kvs => rfl
  | none | bool | int | float | str | list => exact absurd rfl h

theorem OrdinaryMessage.readReaction_eq (h : OrdinaryMessage w e) :
    Matrix.readReaction e = .ok ⟨false, .none, .none⟩ := by
  rcases h.kind with hk | hk <;> simp [Matrix.readReaction, hk]

theorem OrdinaryMessage.readText_isOk (h : OrdinaryMessage w e) :
    ∃ text, Matrix.readText e false = .ok text := by
  unfold Matrix.readText
  cases Matrix.meshTextOverride e with
  | some text => exact ⟨_, rfl⟩
  | none => simp [Py.orElse, Py.truthy, h.body]

theorem OrdinaryMessage.readReplyTo_eq (h : OrdinaryMessage w e) :
    Matrix.readReplyTo e false = .ok .none := by
  simp [Matrix.readReplyTo, h.noRelation, Py.truthy, pure, Except.pure]

theorem readEvent_of_room (h : OrdinaryMessage w e) (hroom : Matrix.findRoomConfig w = .ok (some room))
    (htruthy : room.truthy = true) : ∃ text, Matrix.readEvent w e =
      .ok ⟨room, ⟨false, .none, .none⟩, text, .none⟩ := by
  obtain ⟨text, htext⟩ := h.readText_isOk
  refine ⟨text, ?_⟩
  simp [Matrix.readEvent, h.fresh, h.other, hroom, htruthy, h.config, h.readReaction_eq, htext,
    h.notSuppressed, h.readReplyTo_eq, require, liftErr, bind, Except.bind, pure, Except.pure]

theorem onRoomMessage_of_no_room (h : OrdinaryMessage w e)
    (hroom : ∀ room, Matrix.findRoomConfig w = .ok (some room) → room.truthy = false) :
    Matrix.onRoomMessage w e = [] := by
  have hread : ∃ halt, Matrix.readEvent w e = .error halt := by
    cases hfind : Matrix.findRoomConfig w with
    | error err => simp [Matrix.readEvent, h.fresh, h.other, hfind, require, liftErr, bind, Except.bind]
    | ok found =>
      have hfalsy : (found.getD .none).truthy = false := by
        cases found with
        | none => rfl
        | some room => exact hroom room hfind
      simp [Matrix.readEvent, h.fresh, h.other, hfind, hfalsy, require, liftErr, bind, Except.bind]
  obtain ⟨halt, hread⟩ := hread
  simp [Matrix.onRoomMessage, hread]

theorem onRoomMessage_of_room (h : OrdinaryMessage w e)
    (hroom : Matrix.findRoomConfig w = .ok (some room)) (htruthy : room.truthy = true) :
    ∃ context, context.roomConfig = room ∧ Matrix.onRoomMessage w e =
      Matrix.sendMessage w e context (Matrix.plainMessage w e context) := by
  obtain ⟨text, hread⟩ := readEvent_of_room h hroom htruthy
  refine ⟨⟨room, ⟨false, .none, .none⟩, text, .none⟩, rfl, ?_⟩
  simp only [Matrix.onRoomMessage, hread, Matrix.relayReaction, Matrix.relayMessage,
    Matrix.handleMatrixReply, Py.truthy, Bool.not_false, if_true, Bool.false_and,
    Matrix.relayOrdinary, Matrix.ordinaryMessage, h.notRelayed, h.plugins, Matrix.pluginHandles,
    List.any_nil, h.notDetection, List.isEmpty_nil, Bool.not_true, Bool.false_eq_true, if_false,
    List.nil_append]

theorem mem_sendMessage_channel (h : OrdinaryMessage w e) (hc : 0 ≤ c) {context : Matrix.Ctx}
    {message : Matrix.Ordinary} :
    (∃ s ∈ Matrix.sendMessage w e context message, s.channel = c) ↔
      context.roomConfig.field "meshtastic_channel" = .int c := by
  unfold Matrix.sendMessage Matrix.enqueueOn Matrix.interfaceAndChannel
  cases hch : context.roomConfig.field "meshtastic_channel" with
  | int n =>
    by_cases hn : 0 ≤ n
    · simp [hn, h.connected, h.broadcast]
    · have hne : n ≠ c := fun heq => hn (heq ▸ hc)
      simp [hn, hne]
  | none | bool | float | str | list | dict => simp

/-- An ordinary message is sent on the channel of its room's entry, if that is an integer. -/
theorem enqueuedOn_iff (h : OrdinaryMessage w e) (hc : 0 ≤ c) : EnqueuedOn w e c ↔
    ∃ room, Matrix.findRoomConfig w = .ok (some room) ∧
      room.field "meshtastic_channel" = .int c := by
  unfold EnqueuedOn
  by_cases hroom : ∃ room, Matrix.findRoomConfig w = .ok (some room) ∧ room.truthy = true
  · obtain ⟨room, hfind, htruthy⟩ := hroom
    obtain ⟨context, hcontext, hsends⟩ := onRoomMessage_of_room h hfind htruthy
    rw [hsends, mem_sendMessage_channel h hc, hcontext, hfind]
    constructor
    · exact fun hch => ⟨room, rfl, hch⟩
    · rintro ⟨room', heq, hch⟩
      cases heq
      exact hch
  · have hfalsy : ∀ room, Matrix.findRoomConfig w = .ok (some room) → room.truthy = false := by
      intro room hfind
      by_contra htruthy
      exact hroom ⟨room, hfind, by simpa using htruthy⟩
    rw [onRoomMessage_of_no_room h hfalsy]
    constructor
    · rintro ⟨s, hs, -⟩
      cases hs
    · rintro ⟨room, hfind, hch⟩
      have htruthy := truthy_of_field (k := "meshtastic_channel") (by rw [hch]; nofun)
      exact absurd ⟨room, hfind, htruthy⟩ hroom

/-! ## The entry of a room -/

theorem entry_unique {rooms : Py} (hid : RoomIdsOnce rooms) {a b : Option String × Py} {R : String}
    (ha : a ∈ roomEntries rooms) (hb : b ∈ roomEntries rooms) (haR : Names a R) (hbR : Names b R) :
    a = b := by
  by_contra hne
  have hsymm : Std.Symm fun a b : Option String × Py => ∀ R, Names a R → ¬ Names b R :=
    ⟨fun x y hxy R hy hx => hxy R hx hy⟩
  exact hid.forall ha hb hne R haR hbR

theorem findRoomEntry_eq (R : String) (kvs : List (String × Py)) :
    Matrix.findRoomEntry R kvs =
      (kvs.find? fun kv => decide (kv.1 = R) || (kv.2.isDict && (kv.2.field "id").eqStr R)).bind
        fun kv => if kv.2.isDict then some kv.2 else none := by
  induction kvs with
  | nil => rfl
  | cons kv rest ih =>
    obtain ⟨key, room⟩ := kv
    rw [Matrix.findRoomEntry]
    split_ifs with hnames hdict
    · rw [List.find?_cons_of_pos (by simpa using hnames)]
      simp [hdict]
    · rw [List.find?_cons_of_pos (by simpa using hnames)]
      simp [hdict]
    · rw [List.find?_cons_of_neg (by simpa using hnames), ih]

theorem find?_eq_some_of_unique {α : Type} {l : List α} {p : α → Bool} {a : α} (ha : a ∈ l)
    (hp : p a = true) (huniq : ∀ b ∈ l, p b = true → b = a) : l.find? p = some a := by
  cases hfind : l.find? p with
  | none => exact absurd hp (List.find?_eq_none.mp hfind a ha)
  | some b => rw [huniq b (List.mem_of_find?_eq_some hfind) (List.find?_some hfind)]

section Forms

variable {rooms : List Py} {kvs : List (String × Py)} {R : String}

theorem mem_roomEntries_list {key : Option String} :
    (key, room) ∈ roomEntries (.list rooms) ↔ key = none ∧ room ∈ rooms := by
  simp only [roomEntries, List.mem_map, Prod.mk.injEq]
  constructor
  · rintro ⟨room', hmem, rfl, rfl⟩
    exact ⟨rfl, hmem⟩
  · rintro ⟨rfl, hmem⟩
    exact ⟨room, hmem, rfl, rfl⟩

theorem mem_roomEntries_dict {key : Option String} :
    (key, room) ∈ roomEntries (.dict kvs) ↔ ∃ k, key = some k ∧ (k, room) ∈ kvs := by
  simp only [roomEntries, List.mem_map, Prod.mk.injEq]
  constructor
  · rintro ⟨⟨k, room'⟩, hmem, rfl, rfl⟩
    exact ⟨k, rfl, hmem⟩
  · rintro ⟨k, rfl, hmem⟩
    exact ⟨(k, room), hmem, rfl, rfl⟩

theorem find?_room_iff (hid : RoomIdsOnce (.list rooms)) :
    (rooms.find? fun room => room.isDict && (room.field "id").eqStr R) = some room ↔
      room ∈ rooms ∧ room.field "id" = .str R := by
  constructor
  · intro hfind
    have hp := List.find?_some hfind
    rw [Bool.and_eq_true, eqStr_iff] at hp
    exact ⟨List.mem_of_find?_eq_some hfind, hp.2⟩
  · rintro ⟨hmem, hroom⟩
    have hdict : room.isDict = true := isDict_of_field (k := "id") (by rw [hroom]; nofun)
    refine find?_eq_some_of_unique hmem (by simp [hdict, hroom, Py.eqStr]) fun other hother hp => ?_
    rw [Bool.and_eq_true, eqStr_iff] at hp
    have heq := entry_unique hid (mem_roomEntries_list.mpr ⟨rfl, hother⟩)
      (mem_roomEntries_list.mpr ⟨rfl, hmem⟩) (.inr hp.2) (.inr hroom)
    exact congrArg Prod.snd heq

theorem findRoomEntry_iff (hid : RoomIdsOnce (.dict kvs)) :
    Matrix.findRoomEntry R kvs = some room ↔
      ∃ k, (k, room) ∈ kvs ∧ Names (some k, room) R ∧ room.isDict = true := by
  have hnames (kv : String × Py) : (decide (kv.1 = R) ||
      (kv.2.isDict && (kv.2.field "id").eqStr R)) = true ↔ Names (some kv.1, kv.2) R := by
    rw [Bool.or_eq_true, decide_eq_true_eq, Bool.and_eq_true, eqStr_iff, Names, Option.some.injEq]
    refine or_congr Iff.rfl ⟨fun h => h.2, fun h => ⟨isDict_of_field (k := "id") ?_, h⟩⟩
    rw [h]
    nofun
  rw [findRoomEntry_eq, Option.bind_eq_some_iff]
  constructor
  · rintro ⟨⟨k, room'⟩, hfind, hroom⟩
    have hp := List.find?_some hfind
    rw [hnames] at hp
    split_ifs at hroom with hdict
    cases hroom
    exact ⟨k, List.mem_of_find?_eq_some hfind, hp, hdict⟩
  · rintro ⟨k, hmem, hname, hdict⟩
    refine ⟨(k, room), find?_eq_some_of_unique hmem ((hnames _).mpr hname) ?_, if_pos hdict⟩
    rintro ⟨k', room'⟩ hmem' hp
    rw [hnames] at hp
    have heq := entry_unique hid (mem_roomEntries_dict.mpr ⟨k', rfl, hmem'⟩)
      (mem_roomEntries_dict.mpr ⟨k, rfl, hmem⟩) hp hname
    cases heq
    rfl

end Forms

theorem findRoomConfig_iff (hid : RoomIdsOnce w.matrixRooms) :
    Matrix.findRoomConfig w = .ok (some room) ↔
      ∃ key, (key, room) ∈ roomEntries w.matrixRooms ∧ Names (key, room) w.roomId ∧
        room.isDict = true := by
  unfold Matrix.findRoomConfig
  cases hrooms : w.matrixRooms with
  | list rooms =>
    rw [hrooms] at hid
    simp only [Except.ok.injEq, find?_room_iff hid, mem_roomEntries_list]
    constructor
    · rintro ⟨hmem, hroom⟩
      exact ⟨none, ⟨rfl, hmem⟩, .inr hroom, isDict_of_field (k := "id") (by rw [hroom]; nofun)⟩
    · rintro ⟨key, ⟨rfl, hmem⟩, hkey | hroom, -⟩
      · cases hkey
      · exact ⟨hmem, hroom⟩
  | dict kvs =>
    rw [hrooms] at hid
    have hentry : (∃ key, (key, room) ∈ roomEntries (.dict kvs) ∧ Names (key, room) w.roomId ∧
        room.isDict = true) ↔ Matrix.findRoomEntry w.roomId kvs = some room := by
      rw [findRoomEntry_iff hid]
      simp only [mem_roomEntries_dict]
      constructor
      · rintro ⟨key, ⟨k, rfl, hmem⟩, hrest⟩
        exact ⟨k, hmem, hrest⟩
      · rintro ⟨k, hmem, hrest⟩
        exact ⟨some k, ⟨k, rfl, hmem⟩, hrest⟩
    rw [hentry]
    simp only
    split
    · rename_i d hlookup
      obtain ⟨l₁, l₂, hkvs, -⟩ := List.lookup_eq_some_iff.mp hlookup
      have hmem : (w.roomId, Py.dict d) ∈ kvs := by
        rw [hkvs]
        simp
      have hfind : Matrix.findRoomEntry w.roomId kvs = some (.dict d) :=
        (findRoomEntry_iff hid).mpr ⟨w.roomId, hmem, .inl rfl, rfl⟩
      rw [hfind, Except.ok.injEq]
    · rw [Except.ok.injEq]
  | none => simp [Py.truthy, roomEntries]
  | str => simp [roomEntries]
  | bool | int | float =>
    simp only [roomEntries]
    split_ifs <;> simp

end Message

/-! ## Agreement -/

/-- `int()` turns the channel of the entry into `c`, and it is not the integer `c`: a boolean, a
float or a string of digits. -/
def Coerced (c : ℤ) (room : Py) : Prop :=
  onChannel c room = true ∧ room.field "meshtastic_channel" ≠ .int c

theorem onChannel_of_int {c : ℤ} {room : Py} (h : room.field "meshtastic_channel" = .int c) :
    onChannel c room = true := by
  rw [onChannel_eq_true, Mesh.normalizeRoomChannel, h]
  rfl

/-- Only an infinite channel raises. -/
theorem raises_iff {room : Py} :
    raises room = true ↔ ∃ b, room.field "meshtastic_channel" = .float (.inf b) := by
  unfold raises Mesh.normalizeRoomChannel
  cases hch : room.field "meshtastic_channel" with
  | none => simp [Except.isOk, Except.toBool]
  | float x =>
    have hdict : room.isDict = true := isDict_of_field (k := "meshtastic_channel") (by simp [hch])
    cases x with
    | fin q => simp [Py.toInt, Except.isOk, Except.toBool]
    | inf b => simp [hdict, Py.toInt, Except.isOk, Except.toBool]
    | nan => simp [Py.toInt, Except.isOk, Except.toBool]
  | str s =>
    cases hs : intOfStr s with
    | none => simp [Py.toInt, hs, Except.isOk, Except.toBool]
    | some n => simp [Py.toInt, hs, Except.isOk, Except.toBool]
  | bool | int | list | dict => simp [Py.toInt, Except.isOk, Except.toBool]

theorem mem_of_mem_reached {room : Py} {rooms : List Py} (h : room ∈ reached rooms) : room ∈ rooms :=
  (List.takeWhile_sublist _).subset h

section Agreement

variable {w : Mesh.World} {packet : Py} {w' : Matrix.World} {e : Matrix.Event} {c : ℤ}

/-- The packet handler gets to the entry and addresses the room by its `id`. -/
def Addressed (rooms : Py) (R : String) (entry : Option String × Py) : Prop :=
  entry.2.field "id" = .str R ∧ entry.2 ∈ reached ((roomEntries rooms).map Prod.snd)

theorem directions_of_entry (hrooms : w'.matrixRooms = w.matrixRooms)
    (hid : RoomIdsOnce w.matrixRooms) (hp : OrdinaryPacket w packet c) (he : OrdinaryMessage w' e)
    (hc : 0 ≤ c) {entry : Option String × Py} (hmem : entry ∈ roomEntries w.matrixRooms)
    (hname : Names entry w'.roomId) :
    (RelayedTo w packet w'.roomId ↔
        Addressed w.matrixRooms w'.roomId entry ∧ onChannel c entry.2 = true) ∧
      (EnqueuedOn w' e c ↔ entry.2.field "meshtastic_channel" = .int c) := by
  rw [relayedTo_iff hp, enqueuedOn_iff he hc]
  refine ⟨⟨?_, ?_⟩, ⟨?_, ?_⟩⟩
  · rintro ⟨room, hroom, hon, hroomId⟩
    obtain ⟨other, hother, rfl⟩ := List.mem_map.mp (mem_of_mem_reached hroom)
    cases entry_unique hid hother hmem (.inr hroomId) hname
    exact ⟨⟨hroomId, hroom⟩, hon⟩
  · rintro ⟨⟨hroomId, hroom⟩, hon⟩
    exact ⟨entry.2, hroom, hon, hroomId⟩
  · rintro ⟨room, hfind, hch⟩
    rw [findRoomConfig_iff (hrooms ▸ hid), hrooms] at hfind
    obtain ⟨key, hother, hotherName, -⟩ := hfind
    rw [← entry_unique hid hother hmem hotherName hname]
    exact hch
  · intro hch
    refine ⟨entry.2, ?_, hch⟩
    rw [findRoomConfig_iff (hrooms ▸ hid), hrooms]
    exact ⟨entry.1, hmem, hname,
      isDict_of_field (k := "meshtastic_channel") (by rw [hch]; nofun)⟩

/-- **Agreement.** The two directions agree on a room and a channel exactly if the entry of the room
has no channel that only `int()` turns into `c` and, where the packet handler does not address the
room, not the channel `c` itself. -/
theorem agreement_iff (hrooms : w'.matrixRooms = w.matrixRooms) (hid : RoomIdsOnce w.matrixRooms)
    (hp : OrdinaryPacket w packet c) (he : OrdinaryMessage w' e) (hc : 0 ≤ c) :
    (RelayedTo w packet w'.roomId ↔ EnqueuedOn w' e c) ↔
      ∀ entry ∈ roomEntries w.matrixRooms, Names entry w'.roomId →
        (Addressed w.matrixRooms w'.roomId entry → ¬ Coerced c entry.2) ∧
          (¬ Addressed w.matrixRooms w'.roomId entry →
            entry.2.field "meshtastic_channel" ≠ .int c) := by
  constructor
  · intro hagree entry hmem hname
    obtain ⟨hrelayed, henqueued⟩ := directions_of_entry hrooms hid hp he hc hmem hname
    rw [hrelayed, henqueued] at hagree
    exact ⟨fun haddr hco => hco.2 (hagree.mp ⟨haddr, hco.1⟩),
      fun haddr hch => haddr (hagree.mpr hch).1⟩
  · intro hall
    constructor
    · intro hrel
      obtain ⟨room, hroom, -, hroomId⟩ := (relayedTo_iff hp).mp hrel
      obtain ⟨entry, hmem, rfl⟩ := List.mem_map.mp (mem_of_mem_reached hroom)
      have hname : Names entry w'.roomId := .inr hroomId
      obtain ⟨hrelayed, henqueued⟩ := directions_of_entry hrooms hid hp he hc hmem hname
      obtain ⟨haddr, hon⟩ := hrelayed.mp hrel
      by_contra hnot
      exact (hall entry hmem hname).1 haddr ⟨hon, fun hch => hnot (henqueued.mpr hch)⟩
    · intro henq
      obtain ⟨room, hfind, hch⟩ := (enqueuedOn_iff he hc).mp henq
      rw [findRoomConfig_iff (hrooms ▸ hid), hrooms] at hfind
      obtain ⟨key, hmem, hname, -⟩ := hfind
      obtain ⟨hrelayed, -⟩ := directions_of_entry hrooms hid hp he hc hmem hname
      by_cases haddr : Addressed w.matrixRooms w'.roomId (key, room)
      · exact hrelayed.mpr ⟨haddr, onChannel_of_int hch⟩
      · exact absurd hch ((hall (key, room) hmem hname).2 haddr)

/-- **Channels.** Where a key is repeated as the `id` of its entry and no channel is infinite, the two
directions agree on a room and a channel exactly if no entry of the room has a channel that only
`int()` turns into `c`. -/
theorem channels_agree_iff (w : Mesh.World) (packet : Py) (w' : Matrix.World) (e : Matrix.Event)
    (c : ℤ) (hrooms : w'.matrixRooms = w.matrixRooms) (hid : RoomIdsOnce w.matrixRooms)
    (hkey : ∀ room, (some w'.roomId, room) ∈ roomEntries w.matrixRooms → room.isDict = true →
      room.field "id" = .str w'.roomId)
    (hfinite : ∀ entry ∈ roomEntries w.matrixRooms, ∀ b,
      entry.2.field "meshtastic_channel" ≠ .float (.inf b))
    (hp : OrdinaryPacket w packet c) (he : OrdinaryMessage w' e) (hc : 0 ≤ c) :
    (RelayedTo w packet w'.roomId ↔ EnqueuedOn w' e c) ↔
      ∀ entry ∈ roomEntries w.matrixRooms, Names entry w'.roomId → ¬ Coerced c entry.2 := by
  have hreached : reached ((roomEntries w.matrixRooms).map Prod.snd) =
      (roomEntries w.matrixRooms).map Prod.snd := by
    apply List.takeWhile_eq_self_iff.mpr
    intro room hroom
    obtain ⟨entry, hmem, rfl⟩ := List.mem_map.mp hroom
    rw [Bool.not_eq_true']
    by_contra hraise
    obtain ⟨b, hb⟩ := raises_iff.mp (Bool.of_not_eq_false hraise)
    exact hfinite entry hmem b hb
  have haddr (entry : Option String × Py) (hmem : entry ∈ roomEntries w.matrixRooms)
      (hname : Names entry w'.roomId) (hdict : entry.2.isDict = true) :
      Addressed w.matrixRooms w'.roomId entry := by
    constructor
    · rcases hname with hk | hroomId
      · exact hkey entry.2 (hk ▸ hmem) hdict
      · exact hroomId
    · rw [hreached]
      exact List.mem_map_of_mem hmem
  rw [agreement_iff hrooms hid hp he hc]
  constructor
  · intro hall entry hmem hname hco
    have hdict : entry.2.isDict = true := by
      by_contra hnot
      have hnone := normalizeRoomChannel_of_not_isDict (Bool.of_not_eq_true hnot)
      have hon := onChannel_eq_true.mp hco.1
      rw [hnone] at hon
      cases hon
    exact (hall entry hmem hname).1 (haddr entry hmem hname hdict) hco
  · intro hall entry hmem hname
    refine ⟨fun _ => hall entry hmem hname, fun hnot hch => hnot (haddr entry hmem hname ?_)⟩
    exact isDict_of_field (k := "meshtastic_channel") (by rw [hch]; nofun)

/-- A relay with the rooms, which receives a broadcast on channel zero. -/
def meshWith (rooms : Py) : Mesh.World := { Mesh.demoWorld with matrixRooms := rooms }

/-- A relay with the rooms, which reads a message in the room `!a`. -/
def matrixWith (rooms : Py) : Matrix.World := { Matrix.demoWorld with matrixRooms := rooms }

def hello : Matrix.Event :=
  { kind := .text, sender := "@ann:x", eventId := "$n", serverTimestamp := 0, body := "hi"
    content := [("body", .str "hi")] }

theorem ordinaryPacket_meshWith (rooms : Py) :
    OrdinaryPacket (meshWith rooms) (Mesh.demoPacket Mesh.broadcastNum []) 0 where
  action := by rfl
  text := by rfl
  noReply := by rfl
  channel := by rfl
  plugins := rfl
  accepted := ⟨.str "mesh", .str "Ann", .str "A", [], by rfl, by rfl, by rfl⟩

theorem ordinaryMessage_matrixWith (rooms : Py) : OrdinaryMessage (matrixWith rooms) hello where
  fresh := by rfl
  other := show some "@ann:x" ≠ some "@bot:x" by decide
  config := rfl
  kind := .inl rfl
  body := by rfl
  noRelation := by rfl
  notSuppressed := by rfl
  notRelayed := by rfl
  notDetection := by rfl
  plugins := rfl
  connected := rfl
  broadcast := by rfl

/-- One room, `!a`, with the channel. -/
def oneRoom (channel : Py) : Py := .list [.dict [("id", .str "!a"), ("meshtastic_channel", channel)]]

theorem roomIdsOnce_oneRoom (channel : Py) : RoomIdsOnce (oneRoom channel) :=
  List.pairwise_singleton _ _

theorem entry_oneRoom {channel : Py} {entry : Option String × Py}
    (h : entry ∈ roomEntries (oneRoom channel)) :
    entry.1 = none ∧ entry.2.field "meshtastic_channel" = channel := by
  rw [List.mem_singleton.mp h]
  exact ⟨rfl, rfl⟩

/-- The directions agree on the integer zero. -/
theorem channels_agree_zero :
    RelayedTo (meshWith (oneRoom (.int 0))) (Mesh.demoPacket Mesh.broadcastNum []) "!a" ↔
      EnqueuedOn (matrixWith (oneRoom (.int 0))) hello 0 := by
  refine (channels_agree_iff (meshWith (oneRoom (.int 0))) (Mesh.demoPacket Mesh.broadcastNum [])
    (matrixWith (oneRoom (.int 0))) hello 0 rfl (roomIdsOnce_oneRoom _) ?_ ?_
    (ordinaryPacket_meshWith _) (ordinaryMessage_matrixWith _) le_rfl).mpr ?_
  · intro room hroom
    cases (entry_oneRoom hroom).1
  · intro entry hentry b
    rw [(entry_oneRoom hentry).2]
    nofun
  · intro entry hentry _ hco
    exact hco.2 (entry_oneRoom hentry).2

/-- The text `0` is relayed to Matrix, and not back. -/
theorem textChannel_one_way : RoomIdsOnce (oneRoom (.str "0")) ∧
    OrdinaryPacket (meshWith (oneRoom (.str "0"))) (Mesh.demoPacket Mesh.broadcastNum []) 0 ∧
    OrdinaryMessage (matrixWith (oneRoom (.str "0"))) hello ∧
    ¬ (RelayedTo (meshWith (oneRoom (.str "0"))) (Mesh.demoPacket Mesh.broadcastNum []) "!a" ↔
      EnqueuedOn (matrixWith (oneRoom (.str "0"))) hello 0) := by
  refine ⟨roomIdsOnce_oneRoom _, ordinaryPacket_meshWith _, ordinaryMessage_matrixWith _, ?_⟩
  intro hagree
  have hrelayed : RelayedTo (meshWith (oneRoom (.str "0"))) (Mesh.demoPacket Mesh.broadcastNum [])
      "!a" := by
    refine (relayedTo_iff (ordinaryPacket_meshWith _)).mpr ⟨_, List.mem_cons_self, ?_, rfl⟩
    decide +kernel
  obtain ⟨room, hfind, hch⟩ :=
    (enqueuedOn_iff (ordinaryMessage_matrixWith _) le_rfl).mp (hagree.mp hrelayed)
  rw [findRoomConfig_iff (roomIdsOnce_oneRoom _)] at hfind
  obtain ⟨key, hmem, -⟩ := hfind
  rw [(entry_oneRoom hmem).2] at hch
  cases hch

end Agreement

end MMRelay.Relay
