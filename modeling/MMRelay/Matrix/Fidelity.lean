import MMRelay.Matrix.Bound
import MMRelay.Mesh.Handler

/-!
# Text from one mesh to another

The content that `matrix_relay` (`matrix/relay.py`) sends for a message of its mesh, and what the
relay of another mesh makes of that event.

* `relayContent`, `relayEvent`: the sending side;
* `Receives`: the other relay takes the event up and can send;
* `KeepsText`: the text is the same without the prefix of its own mesh;
* **`payloads_iff_carries`**: when the text arrives whole.
-/

namespace MMRelay.Matrix

open MMRelay.Relay

/-! ## The sending side -/

/-- What `matrix_relay` reads besides its arguments. -/
structure RelaySide where
  builtins : Builtins
  config : Py
  botUserId : String
  /-- `formatted_body` of a message: `markdown` and `nh3`, or `html.escape`. -/
  formatBody : String → String
  /-- `html.escape`. -/
  escape : String → String
  /-- `get_message_map_by_matrix_event_id`. -/
  original : Py → Option MapRow

section Content

variable (s : RelaySide) (r : Mesh.Relay)

/-- `relay_meshnet_name`. -/
def relayMeshnetName : Py :=
  r.meshnetName.orElse (getMeshtasticConfigValue s.config "meshnet_name" (.str ""))

/-- `original_meshnet or "Mesh"`. -/
def meshnetLabel (row : MapRow) : String :=
  if (row.meshtasticMeshnet.getD "").isEmpty then "Mesh" else row.meshtasticMeshnet.getD ""

/-- `body` of a reply to a stored message. -/
def replyBody (row : MapRow) : String :=
  "> <" ++ s.botUserId ++ "> [" ++ meshnetLabel row ++ "]: " ++ row.meshtasticText.getD "" ++
    "\n\n" ++ r.message

/-- `formatted_body` of a reply to a stored message. -/
def replyFormattedBody (row : MapRow) : String :=
  let replyLink := "https://matrix.to/#/" ++ r.room.toStr s.builtins ++ "/" ++
    r.replyToEventId.toStr s.builtins
  let botLink := "https://matrix.to/#/" ++ s.botUserId
  "<mx-reply><blockquote><a href=\"" ++ replyLink ++ "\">In reply to</a> <a href=\"" ++ botLink ++
    "\">" ++ s.botUserId ++ "</a><br>[" ++ s.escape (meshnetLabel row) ++ "]: " ++
    s.escape (row.meshtasticText.getD "") ++ "</blockquote></mx-reply>" ++ s.formatBody r.message

/-- `body` and `formatted_body`. -/
def relayBodies : String × String :=
  match if r.replyToEventId.truthy then s.original r.replyToEventId else none with
  | some row => (replyBody s r row, replyFormattedBody s r row)
  | none => (r.message, s.formatBody r.message)

/-- `if value is not None: content[key] = value`. -/
def givenEntry (key : String) (value : Py) : List (String × Py) :=
  if value.isNone then [] else [(key, value)]

/-- `content`. -/
def relayContent : List (String × Py) :=
  [("msgtype", .str (if r.emote then "m.emote" else "m.text")), ("body", .str (relayBodies s r).1),
    ("meshtastic_longname", r.longname), ("meshtastic_shortname", r.shortname),
    ("meshtastic_meshnet", relayMeshnetName s r), ("meshtastic_portnum", r.portnum),
    ("format", .str "org.matrix.custom.html"), ("formatted_body", .str (relayBodies s r).2)] ++
  (givenEntry "meshtastic_id" r.meshtasticId ++
  (givenEntry "meshtastic_replyId" r.replyId ++
  (givenEntry "meshtastic_text" r.meshtasticText ++
  ((if r.emoji then [("meshtastic_emoji", .int 1)] else []) ++
  (if r.replyToEventId.truthy then
      [("m.relates_to", .dict [("m.in_reply_to", .dict [("event_id", r.replyToEventId)])])]
    else [])))))

/-- The event as it arrives at another relay. -/
def relayEvent (eventId : String) (serverTimestamp : ℤ) : Event where
  kind := if r.emote then .emote else .text
  sender := s.botUserId
  eventId := eventId
  serverTimestamp := serverTimestamp
  body := (relayBodies s r).1
  content := relayContent s r

end Content

/-- A message of the mesh: a text that is not blank, no reply and no reaction. -/
structure IsText (s : RelaySide) (r : Mesh.Relay) (text longname shortname meshnet : String) :
    Prop where
  text_eq : r.meshtasticText = .str text
  not_blank : strip text ≠ ""
  longname_eq : r.longname = .str longname
  shortname_eq : r.shortname = .str shortname
  meshnet_eq : relayMeshnetName s r = .str meshnet
  no_reply : r.replyId = .none
  no_replyTo : r.replyToEventId.truthy = false
  no_emote : r.emote = false
  no_emoji : r.emoji = false

/-! ## The receiving side -/

/-- The relay takes the event up, no plugin handles it, and its room has a channel and a
connection. -/
structure Receives (w : World) (e : Event) : Prop where
  fresh : isStale w e = false
  foreign : some e.sender ≠ w.botUserId
  room : ∃ roomConfig, findRoomConfig w = .ok (some roomConfig) ∧ roomConfig.truthy = true ∧
    ∀ purpose, (interfaceAndChannel w roomConfig purpose).isSome = true
  configured : w.config.isNone = false
  unhandled : pluginHandles w.plugins = false ∧ w.plugins.any matchesCommand = false
  broadcasts : broadcastEnabled w = true

/-- `get_matrix_prefix` of names that are strings. -/
def prefixText (rt : Builtins) (config : Py) (longname shortname meshnet : String) : String :=
  (getMatrixPrefix rt config (.str longname) (.str shortname) (.str meshnet)).toOption.getD ""

/-- The prefix that the receiving relay puts before a text. -/
def shortPrefix (w : World) (longname shortname meshnet : String) : String :=
  prefixText w.builtins w.config longname shortname
    (takeChars meshnet meshnetNameAbbreviationLength)

/-- A text without the prefix that it begins with, unless nothing is left. -/
def withoutPrefix (original text : String) : String :=
  let rest := if original.isEmpty then text else (dropPrefix? original text).getD text
  if rest.isEmpty then text else rest

/-- The text does not begin with the prefix, is nothing else, or is cut to the same. -/
def KeepsText (original text : String) : Prop :=
  ∀ rest, original ≠ "" → dropPrefix? original text = some rest → rest ≠ "" →
    truncateMessage rest defaultMessageTruncateBytes =
      truncateMessage text defaultMessageTruncateBytes

/-- The text arrives whole: a message with the names of a sender and a mesh keeps its text. An
event without one of the names is taken for a message of its Matrix user, and one of a detection
sensor is sent without a prefix. -/
def Carries (w : World) (e : Event) (text longname shortname meshnet : String) : Prop :=
  let cut := truncateMessage text defaultMessageTruncateBytes
  let short := shortPrefix w longname shortname meshnet
  let original := prefixText w.builtins w.config longname shortname meshnet
  if longname ≠ "" ∧ meshnet ≠ "" then
    if isDetectionPacket e then detectionEnabled w = true ∧
      truncateMessage (withoutPrefix original text) defaultMessageTruncateBytes = short ++ cut
    else KeepsText original text
  else if isDetectionPacket e then detectionEnabled w = true ∧ text = short ++ cut
  else
    truncateMessage (getMeshtasticPrefix w.builtins w.config w.displayName e.sender ++ text)
      defaultMessageTruncateBytes = short ++ cut

/-! ## What arrives -/

section Fields

variable {s : RelaySide} {r : Mesh.Relay} {t longname shortname meshnet : String} {i : String}
  {n : ℤ}

theorem lookup_givenEntry {key key' : String} (h : key ≠ key') (value : Py)
    (rest : List (String × Py)) :
    (givenEntry key' value ++ rest).lookup key = rest.lookup key := by
  unfold givenEntry
  split_ifs
  · rfl
  · have hne : (key == key') = false := by simpa using h
    simp [List.lookup, hne]

theorem relayContent_of_isText (h : IsText s r t longname shortname meshnet) :
    relayContent s r =
      [("msgtype", .str "m.text"), ("body", .str (relayBodies s r).1),
        ("meshtastic_longname", .str longname), ("meshtastic_shortname", .str shortname),
        ("meshtastic_meshnet", .str meshnet), ("meshtastic_portnum", r.portnum),
        ("format", .str "org.matrix.custom.html"), ("formatted_body", .str (relayBodies s r).2)] ++
      (givenEntry "meshtastic_id" r.meshtasticId ++ [("meshtastic_text", .str t)]) := by
  simp [relayContent, h.text_eq, h.longname_eq, h.shortname_eq, h.meshnet_eq, h.no_reply,
    h.no_replyTo, h.no_emote, h.no_emoji, givenEntry, Py.isNone]

theorem field_relayEvent (h : IsText s r t longname shortname meshnet) (key : String) :
    (relayEvent s r i n).field key =
      ((("msgtype", Py.str "m.text") :: ("body", .str (relayBodies s r).1) ::
        ("meshtastic_longname", .str longname) :: ("meshtastic_shortname", .str shortname) ::
        ("meshtastic_meshnet", .str meshnet) :: ("meshtastic_portnum", r.portnum) ::
        ("format", .str "org.matrix.custom.html") :: ("formatted_body", .str (relayBodies s r).2) ::
        (givenEntry "meshtastic_id" r.meshtasticId ++ [("meshtastic_text", .str t)])).lookup
          key).getD .none := by
  unfold Event.field Py.field Py.key? relayEvent
  rw [relayContent_of_isText h]
  rfl

theorem field_text (h : IsText s r t longname shortname meshnet) :
    (relayEvent s r i n).field "meshtastic_text" = .str t := by
  rw [field_relayEvent h]
  simp [List.lookup, lookup_givenEntry]

theorem field_absent (h : IsText s r t longname shortname meshnet) :
    (relayEvent s r i n).field "m.relates_to" = .none ∧
      (relayEvent s r i n).field "mmrelay_suppress" = .none := by
  constructor <;> rw [field_relayEvent h] <;> simp [List.lookup, lookup_givenEntry]

theorem field_names (h : IsText s r t longname shortname meshnet) :
    (relayEvent s r i n).field "meshtastic_longname" = .str longname ∧
      (relayEvent s r i n).field "meshtastic_shortname" = .str shortname ∧
      (relayEvent s r i n).field "meshtastic_meshnet" = .str meshnet := by
  refine ⟨?_, ?_, ?_⟩ <;> rw [field_relayEvent h] <;> simp [List.lookup]

theorem strip_strip (text : String) : strip (strip text) = strip text := by
  unfold strip
  rw [String.toList_ofList, stripChars_idem]

theorem meshTextOverride_relayEvent (h : IsText s r t longname shortname meshnet) :
    meshTextOverride (relayEvent s r i n) = some (strip t) := by
  have hne : (strip t).isEmpty = false := by
    rw [Bool.eq_false_iff, Ne, String.isEmpty_iff]
    exact h.not_blank
  unfold meshTextOverride
  rw [field_text h]
  simp [hne]

theorem readReaction_relayEvent (h : IsText s r t longname shortname meshnet) :
    readReaction (relayEvent s r i n) = .ok ⟨false, .none, .none⟩ := by
  simp [readReaction, relayEvent, h.no_emote]

/-- The relay reads the text without its surrounding blanks, no reaction and no reply. -/
theorem readEvent_relayEvent {w : World} (h : IsText s r t longname shortname meshnet)
    (hw : Receives w (relayEvent s r i n)) :
    ∃ roomConfig, readEvent w (relayEvent s r i n) =
        .ok ⟨roomConfig, ⟨false, .none, .none⟩, strip t, .none⟩ ∧
      ∀ purpose, (interfaceAndChannel w roomConfig purpose).isSome = true := by
  obtain ⟨roomConfig, hfind, htruthy, hchannel⟩ := hw.room
  refine ⟨roomConfig, ?_, hchannel⟩
  have htext : readText (relayEvent s r i n) false = .ok (strip t) := by
    rw [readText, meshTextOverride_relayEvent h]
    exact congrArg Except.ok (strip_strip t)
  have hreply : readReplyTo (relayEvent s r i n) false = .ok .none := by
    rw [readReplyTo, (field_absent h).1]
    rfl
  have hnone : Py.none.truthy = false := rfl
  rw [readEvent, hw.fresh, hfind, readReaction_relayEvent h, (field_absent h).2]
  simp [require, liftErr, hw.foreign, htruthy, hw.configured, htext, hreply, hnone, bind,
    Except.bind, pure, Except.pure]

theorem onRoomMessage_relayEvent {w : World} (h : IsText s r t longname shortname meshnet)
    (hw : Receives w (relayEvent s r i n)) :
    ∃ c : Ctx, c.text = strip t ∧
      (∀ purpose, (interfaceAndChannel w c.roomConfig purpose).isSome = true) ∧
      onRoomMessage w (relayEvent s r i n) =
        relayOrdinary w (relayEvent s r i n) c := by
  obtain ⟨roomConfig, hread, hchannel⟩ := readEvent_relayEvent h hw
  refine ⟨⟨roomConfig, ⟨false, .none, .none⟩, strip t, .none⟩, rfl, hchannel, ?_⟩
  rw [onRoomMessage, hread]
  rfl

end Fields

/-! ## The prefix -/

theorem mapM_ok {α β ε : Type} (f : α → Except ε β) (l : List α) (h : ∀ a ∈ l, ∃ b, f a = .ok b) :
    ∃ bs, l.mapM f = .ok bs := by
  induction l with
  | nil => exact ⟨[], rfl⟩
  | cons a l ih =>
    obtain ⟨b, hb⟩ := h a List.mem_cons_self
    obtain ⟨bs, hbs⟩ := ih fun a' ha' => h a' (List.mem_cons_of_mem _ ha')
    refine ⟨b :: bs, ?_⟩
    rw [List.mapM_cons, hb, hbs]
    rfl

theorem addTruncatedVars_str (name text : String) :
    ∃ vars, addTruncatedVars name (.str text) = .ok vars := by
  apply mapM_ok
  intro i _
  have hstr : ∃ t, (Py.str text).orElse (.str "") = .str t := by
    unfold Py.orElse
    split_ifs
    · exact ⟨text, rfl⟩
    · exact ⟨"", rfl⟩
  obtain ⟨t, ht⟩ := hstr
  exact ⟨(name ++ toString (i + 1), .str (takeChars t (i + 1))), by rw [ht]; rfl⟩

theorem getMatrixPrefix_str (rt : Builtins) (config : Py) (longname shortname meshnet : String) :
    getMatrixPrefix rt config (.str longname) (.str shortname) (.str meshnet) =
      .ok (prefixText rt config longname shortname meshnet) := by
  suffices h : ∃ p, getMatrixPrefix rt config (.str longname) (.str shortname) (.str meshnet) =
      .ok p by
    obtain ⟨p, hp⟩ := h
    rw [prefixText, hp]
    rfl
  obtain ⟨longVars, hlong⟩ := addTruncatedVars_str "long" longname
  obtain ⟨meshVars, hmesh⟩ := addTruncatedVars_str "mesh" meshnet
  cases config with
  | dict kvs =>
    simp only [getMatrixPrefix]
    split_ifs
    · exact ⟨"", rfl⟩
    · rw [hlong, hmesh]
      simp only [bind, Except.bind]
      generalize rt.format _ _ = result
      cases result with
      | none => exact ⟨_, rfl⟩
      | some p => exact ⟨p, rfl⟩
  | _ => exact ⟨"", rfl⟩

/-! ## The text -/

theorem truncateMessage_ne_empty {text : String} (h : text ≠ "") :
    truncateMessage text defaultMessageTruncateBytes ≠ "" := by
  have hne : text.toList ≠ [] := by simpa using h
  obtain ⟨c, cs, hcs⟩ := List.exists_cons_of_ne_nil hne
  have hfits : byteLen (String.ofList [c]) ≤ defaultMessageTruncateBytes := by
    rw [byteLen_ofList, width_cons, width_nil]
    exact c.utf8Size_le_four.trans (by decide)
  have hpart := (truncateMessage_longest text defaultMessageTruncateBytes).longest
    (String.ofList [c]) (by simp [hcs]) hfits
  intro hempty
  rw [hempty] at hpart
  simp at hpart

theorem withoutPrefix_ne_empty {original text : String} (h : text ≠ "") :
    withoutPrefix original text ≠ "" := by
  have hcases : ∀ rest : String, (if rest.isEmpty then text else rest) ≠ "" := by
    intro rest
    split_ifs with hrest
    · exact h
    · exact fun he => hrest (String.isEmpty_iff.mpr he)
  exact hcases _

theorem remoteText_eq {e : Event} {text : String} (h : meshTextOverride e = some text)
    (other original : String) :
    remoteText e other original =
      truncateMessage (withoutPrefix original text) defaultMessageTruncateBytes := by
  unfold remoteText withoutPrefix
  rw [h]
  rfl

theorem truncate_withoutPrefix_iff {original text : String} :
    truncateMessage (withoutPrefix original text) defaultMessageTruncateBytes =
        truncateMessage text defaultMessageTruncateBytes ↔ KeepsText original text := by
  have hcut : ∀ rest : String,
      truncateMessage (if rest.isEmpty then text else rest) defaultMessageTruncateBytes =
          truncateMessage text defaultMessageTruncateBytes ↔
        (rest ≠ "" → truncateMessage rest defaultMessageTruncateBytes =
          truncateMessage text defaultMessageTruncateBytes) := by
    intro rest
    by_cases hrest : rest = ""
    · simp [hrest]
    · simp [hrest]
  unfold withoutPrefix KeepsText
  rw [hcut]
  by_cases horiginal : original = ""
  · simp [horiginal]
  · cases hdrop : dropPrefix? original text with
    | none => simp [horiginal]
    | some rest => simp [horiginal]

/-! ## What is sent -/

section Sends

variable {w : World} {e : Event} {c : Ctx}

theorem payload_enqueueOn {purpose : Purpose} {function : SendFunction}
    {payload description : String} {mapping : Option MappingInfo}
    (h : canSend w c purpose = true) :
    (enqueueOn w c purpose function payload description mapping).map Send.payload = [payload] := by
  obtain ⟨channel, hc⟩ := enqueueOn_of_canSend h
  rw [hc]
  rfl

theorem payload_relayOrdinary {m : Ordinary} (hm : ordinaryMessage w e c = .ok m)
    (hplugins : pluginHandles w.plugins = false ∧ w.plugins.any matchesCommand = false)
    (hsend : ∀ purpose, canSend w c purpose = true) :
    (relayOrdinary w e c).map Send.payload =
      if isDetectionPacket e then if detectionEnabled w then [m.text] else [] else [m.message] := by
  unfold relayOrdinary
  rw [hm]
  simp only [hplugins.1, hplugins.2, Bool.false_eq_true, if_false]
  by_cases hd : isDetectionPacket e = true
  · rw [if_pos hd, if_pos hd, handleDetectionSensorPacket]
    cases detectionEnabled w with
    | false => rfl
    | true => exact payload_enqueueOn (hsend _)
  · rw [if_neg hd, if_neg hd]
    exact payload_enqueueOn (hsend _)

end Sends

section Ordinary

variable {w : World} {s : RelaySide} {r : Mesh.Relay} {t longname shortname meshnet : String}
  {i : String} {n : ℤ} {c : Ctx}

theorem isRelayed_relayEvent (h : IsText s r t longname shortname meshnet) :
    isRelayed (relayEvent s r i n) = true ↔ longname ≠ "" ∧ meshnet ≠ "" := by
  obtain ⟨hlong, -, hmesh⟩ := field_names (i := i) (n := n) h
  rw [isRelayed, hlong, hmesh]
  simp [Py.truthy]

/-- A relayed message is its text, cut, behind the prefix of the abbreviated mesh. -/
theorem ordinaryMessage_relayed (h : IsText s r t longname shortname meshnet)
    (hnames : longname ≠ "" ∧ meshnet ≠ "")
    (hother : (Py.str meshnet).eq (localMeshnetName w) = false) :
    ∃ m, ordinaryMessage w (relayEvent s r i n) c = .ok m ∧
      m.text = truncateMessage (withoutPrefix
        (prefixText w.builtins w.config longname shortname meshnet) (strip t))
          defaultMessageTruncateBytes ∧
      m.message = shortPrefix w longname shortname meshnet ++ m.text := by
  obtain ⟨hlong, hshort, hmesh⟩ := field_names (i := i) (n := n) h
  have hprefixes : remotePrefixes w (relayEvent s r i n) =
      .ok (prefixText w.builtins w.config longname shortname meshnet,
        shortPrefix w longname shortname meshnet) := by
    rw [remotePrefixes, hlong, hshort, hmesh]
    simp [Py.slice, Py.isNone, getMatrixPrefix_str, shortPrefix, bind, Except.bind, pure,
      Except.pure]
  have htext := remoteText_eq (meshTextOverride_relayEvent (i := i) (n := n) h)
    c.text (prefixText w.builtins w.config longname shortname meshnet)
  have hne : (remoteText (relayEvent s r i n) c.text
      (prefixText w.builtins w.config longname shortname meshnet)).isEmpty = false := by
    rw [htext, Bool.eq_false_iff, Ne, String.isEmpty_iff]
    exact truncateMessage_ne_empty (withoutPrefix_ne_empty h.not_blank)
  have hrelayed := (isRelayed_relayEvent (i := i) (n := n) h).mpr hnames
  rw [ordinaryMessage, if_pos hrelayed, hmesh, hother, Bool.not_false, if_pos rfl]
  exact ⟨_, remoteMessage_eq_ok.mpr ⟨_, _, hprefixes, hne, rfl⟩, htext, rfl⟩

/-- **Fidelity.** The relay of another mesh enqueues the text of a mesh message, cut, behind the
prefix of the abbreviated mesh, if and only if the text is carried whole. -/
theorem payloads_iff_carries (w : World) (s : RelaySide) (r : Mesh.Relay)
    (t longname shortname meshnet eventId : String) (ts : ℤ)
    (h : IsText s r t longname shortname meshnet)
    (hother : (Py.str meshnet).eq (localMeshnetName w) = false)
    (hw : Receives w (relayEvent s r eventId ts)) :
    (onRoomMessage w (relayEvent s r eventId ts)).map Send.payload =
        [shortPrefix w longname shortname meshnet ++
          truncateMessage (strip t) defaultMessageTruncateBytes] ↔
      Carries w (relayEvent s r eventId ts) (strip t) longname shortname meshnet := by
  obtain ⟨c, htext, hchannel, hrun⟩ := onRoomMessage_relayEvent h hw
  have hsend : ∀ purpose, canSend w c purpose = true := by
    intro purpose
    rw [canSend, hchannel purpose, hw.broadcasts]
    rfl
  have hrelayed := isRelayed_relayEvent (i := eventId) (n := ts) h
  rw [hrun]
  unfold Carries
  by_cases hnames : longname ≠ "" ∧ meshnet ≠ ""
  · obtain ⟨m, hm, hmtext, hmessage⟩ := ordinaryMessage_relayed (c := c) (i := eventId)
      (n := ts) h hnames hother
    rw [if_pos hnames, payload_relayOrdinary hm hw.unhandled hsend, hmessage, hmtext]
    by_cases hd : isDetectionPacket (relayEvent s r eventId ts) = true
    · rw [if_pos hd, if_pos hd]
      cases detectionEnabled w with
      | false => simp
      | true => simp
    · rw [if_neg hd, if_neg hd, ← truncate_withoutPrefix_iff]
      simp
  · have hm : ordinaryMessage w (relayEvent s r eventId ts) c =
        .ok (plainMessage w (relayEvent s r eventId ts) c) :=
      if_neg fun hr => hnames (hrelayed.mp hr)
    rw [if_neg hnames, payload_relayOrdinary hm hw.unhandled hsend, plainMessage, htext]
    by_cases hd : isDetectionPacket (relayEvent s r eventId ts) = true
    · rw [if_pos hd, if_pos hd]
      cases detectionEnabled w with
      | false => simp
      | true => simp
    · rw [if_neg hd, if_neg hd]
      simp

end Ordinary

/-! ## A text that begins like its prefix -/

/-- `str.format` of the default prefix. -/
def formatDefault (format : String) (vars : List (String × Py)) : Option String :=
  match vars.lookup "long", vars.lookup "mesh" with
  | some (.str longname), some (.str meshnet) =>
    if format = defaultMatrixPrefix then some ("[" ++ longname ++ "/" ++ meshnet ++ "]: ") else none
  | _, _ => none

/-- The relay of the mesh `mesh`, with the default prefix. -/
def nearWorld : World :=
  { demoWorld with builtins := { demoWorld.builtins with format := formatDefault } }

/-- The relay of the mesh `Far`. -/
def farSide : RelaySide where
  builtins := nearWorld.builtins
  config := .dict [("meshtastic", .dict [("meshnet_name", .str "Far")])]
  botUserId := "@far:x"
  formatBody message := "<p>" ++ message ++ "</p>"
  escape := id
  original _ := none

/-- A message of `Ann` on the mesh `Far`. -/
def farRelay (text : String) : Mesh.Relay where
  room := .str "!a"
  message := "[Ann/Far]: " ++ text
  longname := .str "Ann"
  shortname := .str "An"
  meshnetName := .str "Far"
  portnum := .str "TEXT_MESSAGE_APP"
  meshtasticId := .int 7
  replyId := .none
  meshtasticText := .str text
  emote := false
  emoji := false
  replyToEventId := .none

theorem isText_farRelay {text : String} (h : strip text ≠ "") :
    IsText farSide (farRelay text) text "Ann" "An" "Far" :=
  ⟨rfl, h, rfl, rfl, rfl, rfl, rfl, rfl, rfl⟩

theorem receives_nearWorld (text : String) :
    Receives nearWorld (relayEvent farSide (farRelay text) "$far" 0) where
  fresh := rfl
  foreign := by
    simp only [relayEvent, farSide, nearWorld, demoWorld]
    decide
  room := ⟨.dict [("id", .str "!a"), ("meshtastic_channel", .int 0)], rfl, rfl, fun _ => rfl⟩
  configured := rfl
  unhandled := ⟨rfl, rfl⟩
  broadcasts := rfl

/-- `payloads_iff_carries` at a greeting. -/
theorem payloads_greeting :
    (onRoomMessage nearWorld (relayEvent farSide (farRelay "hi") "$far" 0)).map Send.payload =
      [shortPrefix nearWorld "Ann" "An" "Far" ++
        truncateMessage (strip "hi") defaultMessageTruncateBytes] := by
  refine (payloads_iff_carries nearWorld farSide (farRelay "hi") "hi" "Ann" "An" "Far" "$far" 0
    (isText_farRelay (by decide +kernel)) (by decide +kernel) (receives_nearWorld "hi")).mpr ?_
  rw [Carries, if_pos ⟨by decide, by decide⟩, if_neg (by decide +kernel)]
  intro rest _ hrest
  have hnone : dropPrefix? (prefixText nearWorld.builtins nearWorld.config "Ann" "An" "Far")
      (strip "hi") = none := by decide +kernel
  rw [hnone] at hrest
  cases hrest

/-- A text that begins with the prefix of its own mesh loses it. -/
theorem payloads_prefixed :
    IsText farSide (farRelay "[Ann/Far]: hi") "[Ann/Far]: hi" "Ann" "An" "Far" ∧
      (Py.str "Far").eq (localMeshnetName nearWorld) = false ∧
      Receives nearWorld (relayEvent farSide (farRelay "[Ann/Far]: hi") "$far" 0) ∧
      (onRoomMessage nearWorld
          (relayEvent farSide (farRelay "[Ann/Far]: hi") "$far" 0)).map Send.payload =
        ["[Ann/Far]: hi"] ∧
      ["[Ann/Far]: hi"] ≠ [shortPrefix nearWorld "Ann" "An" "Far" ++
        truncateMessage (strip "[Ann/Far]: hi") defaultMessageTruncateBytes] := by
  refine ⟨isText_farRelay (by decide +kernel), by decide +kernel, receives_nearWorld _, ?_, ?_⟩
  · decide +kernel
  · decide +kernel

end MMRelay.Matrix
