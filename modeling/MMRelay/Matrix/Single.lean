import MMRelay.Relay.Agreement

/-!
# One radio message for each event

Reactions, replies, detection sensors and ordinary messages enqueue on their own, and a reply that
the queue refuses goes on as an ordinary message.

* `Calls`, `onRoomMessage_calls`: at most one call, or a refused reply and one more;
* **`single_send`**: at most one accepted call, on the channel of the room, and none where the
  event is barred.
-/

namespace MMRelay.Matrix

open MMRelay.Relay

variable {w : World} {e : Event} {c : Ctx}

/-- The calls that the queue accepts. -/
def accepted (w : World) (sends : List Send) : List Send :=
  (sends.zipIdx.filter fun s => w.queueAnswer s.2).map Prod.fst

/-- The event comes to the plugins. -/
def reachesPlugins (w : World) (e : Event) : Bool :=
  match readEvent w e with
  | .error _ => false
  | .ok c =>
    match relayReaction w e c, handleMatrixReply w e c with
    | .ok none, .ok sends =>
      !(!sends.isEmpty && w.queueAnswer 0) && (ordinaryMessage w e c).isOk
    | _, _ => false

/-- A plugin handles the event. -/
def handledByPlugin (w : World) (e : Event) : Bool :=
  reachesPlugins w e && pluginHandles w.plugins

/-- What keeps an event from the radio. -/
inductive Barred (w : World) (e : Event) : Prop
  | fromBot (h : w.botUserId = some e.sender)
  | unconfigured (h : ∀ entry ∈ roomEntries w.matrixRooms, ¬ Names entry w.roomId)
  | suppressed (h : (e.field "mmrelay_suppress").truthy = true)
  | broadcastDisabled (h : broadcastEnabled w = false)
  | handled (h : handledByPlugin w e = true)

/-! ## The gates -/

/-- An event that is read comes from another user, in a configured room, and is not suppressed. -/
theorem readEvent_eq_ok (h : readEvent w e = .ok c) :
    some e.sender ≠ w.botUserId ∧ findRoomConfig w = .ok (some c.roomConfig) ∧
      (e.field "mmrelay_suppress").truthy = false := by
  unfold readEvent at h
  simp only [except_bind_eq_ok, require_eq_ok, liftErr_eq_ok] at h
  obtain ⟨-, -, -, hsender, found, hfound, -, htruthy, -, -, reaction, -, text, -, -, hsuppress, -,
    -, replyTo, -, hc⟩ := h
  cases hc
  refine ⟨by simpa using hsender, ?_, by simpa using hsuppress⟩
  cases found with
  | none => cases htruthy
  | some room => exact hfound

theorem findRoomEntry_names {R : String} {kvs : List (String × Py)} {room : Py}
    (h : findRoomEntry R kvs = some room) : ∃ key, (key, room) ∈ kvs ∧
      (key = R ∨ room.field "id" = .str R) := by
  rw [findRoomEntry_eq, Option.bind_eq_some_iff] at h
  obtain ⟨⟨key, room'⟩, hfind, hroom⟩ := h
  split_ifs at hroom
  cases hroom
  refine ⟨key, List.mem_of_find?_eq_some hfind, ?_⟩
  have hnames := List.find?_some hfind
  rw [Bool.or_eq_true, decide_eq_true_eq, Bool.and_eq_true] at hnames
  exact hnames.imp_right fun hid => eqStr_iff.mp hid.2

/-- The configuration of the room is one of the entries that stand for it. -/
theorem findRoomConfig_names {room : Py} (h : findRoomConfig w = .ok (some room)) :
    ∃ entry ∈ roomEntries w.matrixRooms, Names entry w.roomId ∧ entry.2 = room := by
  unfold findRoomConfig at h
  cases hrooms : w.matrixRooms with
  | dict kvs =>
    rw [hrooms] at h
    simp only at h
    split at h
    · next d hlookup =>
      cases h
      obtain ⟨l₁, l₂, hkvs, -⟩ := List.lookup_eq_some_iff.mp hlookup
      refine ⟨(some w.roomId, .dict d), ?_, Or.inl rfl, rfl⟩
      simp [roomEntries, hkvs]
    · obtain ⟨key, hmem, hnames⟩ := findRoomEntry_names (Except.ok.inj h)
      refine ⟨(some key, room), List.mem_map.mpr ⟨(key, room), hmem, rfl⟩, ?_, rfl⟩
      exact hnames.imp_left fun heq => by rw [heq]
  | list rooms =>
    rw [hrooms] at h
    have hfind := Except.ok.inj h
    have hid := List.find?_some hfind
    rw [Bool.and_eq_true] at hid
    refine ⟨(none, room), List.mem_map.mpr ⟨room, List.mem_of_find?_eq_some hfind, rfl⟩, ?_, rfl⟩
    exact Or.inr (eqStr_iff.mp hid.2)
  | str s =>
    rw [hrooms] at h
    cases h
  | none | bool | int | float =>
    rw [hrooms] at h
    simp only at h
    split_ifs at h
    cases h

/-! ## Single calls -/

/-- Calls on the configured channel, while broadcasts are enabled. -/
def Sound (w : World) (c : Ctx) (sends : List Send) : Prop :=
  ∀ s ∈ sends, c.roomConfig.field "meshtastic_channel" = .int s.channel ∧ broadcastEnabled w = true

/-- At most one call, and a sound one. -/
def Once (w : World) (c : Ctx) (sends : List Send) : Prop := sends.length ≤ 1 ∧ Sound w c sends

theorem once_nil : Once w c [] := by
  refine ⟨Nat.zero_le _, fun s hs => ?_⟩
  cases hs

theorem once_enqueueOn {purpose : Purpose} {function : SendFunction} {payload description : String}
    {mapping : Option MappingInfo} :
    Once w c (enqueueOn w c purpose function payload description mapping) := by
  unfold enqueueOn interfaceAndChannel
  split
  · exact once_nil
  · next channel hchannel =>
    split_ifs with hb
    · refine ⟨le_rfl, fun s hs => ?_⟩
      rw [List.mem_singleton.mp hs]
      refine ⟨?_, hb⟩
      split at hchannel
      · next n hn =>
        split_ifs at hchannel
        cases hchannel
        exact hn
      · cases hchannel
    · exact once_nil

theorem once_relayRemoteReaction {sends : List Send} (h : relayRemoteReaction w e c = .ok sends) :
    Once w c sends := by
  unfold relayRemoteReaction at h
  obtain ⟨sender, -, h⟩ := except_bind_eq_ok.mp h
  obtain ⟨preview, -, h⟩ := except_bind_eq_ok.mp h
  cases h
  exact once_enqueueOn

theorem once_relayLocalReaction {row : MapRow} {sends : List Send}
    (h : relayLocalReaction w c row = .ok sends) : Once w c sends := by
  unfold relayLocalReaction at h
  obtain ⟨replyId, -, h⟩ := except_bind_eq_ok.mp h
  obtain ⟨preview, -, h⟩ := except_bind_eq_ok.mp h
  cases h
  cases replyId with
  | none => exact once_enqueueOn
  | some n => exact once_enqueueOn

theorem once_relayReaction {sends : List Send} (h : relayReaction w e c = .ok (some sends)) :
    Once w c sends := by
  unfold relayReaction at h
  split_ifs at h
  · cases h
  · obtain ⟨sends', hremote, hsends⟩ := except_map_eq_ok.mp h
    cases hsends
    exact once_relayRemoteReaction hremote
  · obtain ⟨row, -, h⟩ := except_bind_eq_ok.mp h
    cases row with
    | none =>
      cases h
      exact once_nil
    | some row =>
      obtain ⟨sends', hlocal, hsends⟩ := except_map_eq_ok.mp h
      cases hsends
      exact once_relayLocalReaction hlocal
  · cases h

theorem once_handleMatrixReply {sends : List Send} (h : handleMatrixReply w e c = .ok sends) :
    Once w c sends := by
  unfold handleMatrixReply at h
  split_ifs at h
  · obtain ⟨row, -, h⟩ := except_bind_eq_ok.mp h
    cases row with
    | none =>
      cases h
      exact once_nil
    | some row =>
      unfold replyTo at h
      obtain ⟨replyId, -, h⟩ := except_bind_eq_ok.mp h
      obtain ⟨reply, -, h⟩ := except_bind_eq_ok.mp h
      cases h
      unfold sendReplyToMeshtastic
      cases replyId with
      | none => exact once_enqueueOn
      | some n => exact once_enqueueOn
  · cases h
    exact once_nil

theorem once_relayOrdinary : Once w c (relayOrdinary w e c) := by
  unfold relayOrdinary
  split
  · exact once_nil
  · unfold handleDetectionSensorPacket sendMessage
    split_ifs
    · exact once_nil
    · exact once_nil
    · exact once_nil
    · exact once_enqueueOn
    · exact once_enqueueOn

/-! ## The handler -/

/-- At most one call, or a reply that the queue refuses and at most one more, which is none when a
plugin handles the event. -/
inductive Calls (w : World) (e : Event) (c : Ctx) : List Send → Prop
  | once {sends : List Send} (h : Once w c sends)
      (hhandled : handledByPlugin w e = true → sends = []) : Calls w e c sends
  | refused {first : Send} {sends : List Send} (hrefused : w.queueAnswer 0 = false)
      (hfirst : Once w c [first]) (h : Once w c sends)
      (hhandled : handledByPlugin w e = true → sends = []) : Calls w e c (first :: sends)

theorem relayOrdinary_of_handled (hplugin : pluginHandles w.plugins = true) :
    relayOrdinary w e c = [] := by
  unfold relayOrdinary
  split
  · rfl
  · exact if_pos hplugin

theorem calls_relayMessage (hread : readEvent w e = .ok c)
    (hreaction : relayReaction w e c = .ok none) :
    Calls w e c (relayMessage w e c) := by
  have hordinary : handledByPlugin w e = true → relayOrdinary w e c = [] := by
    intro h
    rw [handledByPlugin, Bool.and_eq_true] at h
    exact relayOrdinary_of_handled h.2
  unfold relayMessage
  cases hreply : handleMatrixReply w e c with
  | error err => exact .once once_nil fun _ => rfl
  | ok sends =>
    have honce := once_handleMatrixReply hreply
    match sends, honce with
    | [], _ => exact .once once_relayOrdinary hordinary
    | [first], honce =>
      cases hanswer : w.queueAnswer 0 with
      | true =>
        -- an accepted reply ends the handler, so that no plugin sees the event
        refine .once honce fun h => ?_
        simp [handledByPlugin, reachesPlugins, hread, hreaction, hreply, hanswer] at h
      | false => exact .refused hanswer honce once_relayOrdinary hordinary
    | _ :: _ :: _, honce =>
      have hle := honce.1
      simp at hle

theorem onRoomMessage_calls (hread : readEvent w e = .ok c) : Calls w e c (onRoomMessage w e) := by
  have hnot : ∀ result, relayReaction w e c = result → result ≠ .ok none →
      handledByPlugin w e = true → False := by
    intro result hresult hne h
    rw [handledByPlugin, Bool.and_eq_true, reachesPlugins, hread] at h
    simp only [hresult] at h
    split at h
    · exact hne rfl
    · exact Bool.false_ne_true h.1
  unfold onRoomMessage
  rw [hread]
  simp only
  cases hreaction : relayReaction w e c with
  | error err => exact .once once_nil fun _ => rfl
  | ok sends =>
    cases sends with
    | none => exact calls_relayMessage hread hreaction
    | some sends =>
      refine .once (once_relayReaction hreaction) fun h => ?_
      exact (hnot _ hreaction (by simp) h).elim

/-! ## What the queue accepts -/

theorem accepted_subset {sends : List Send} {s : Send} (h : s ∈ accepted w sends) : s ∈ sends := by
  obtain ⟨⟨s', i⟩, hmem, rfl⟩ := List.mem_map.mp h
  exact (List.mem_zipIdx (List.mem_of_mem_filter hmem)).2.2 ▸ List.getElem_mem _

theorem accepted_length_le (w : World) (sends : List Send) :
    (accepted w sends).length ≤ sends.length := by
  rw [accepted, List.length_map]
  exact (List.length_filter_le _ _).trans_eq (List.length_zipIdx)

theorem accepted_refused (hrefused : w.queueAnswer 0 = false) (first : Send) :
    accepted w [first] = [] := by
  simp [accepted, hrefused]

theorem accepted_refused_length_le (hrefused : w.queueAnswer 0 = false) (first : Send)
    {sends : List Send} (h : sends.length ≤ 1) : (accepted w (first :: sends)).length ≤ 1 := by
  match sends, h with
  | [], _ =>
    rw [accepted_refused hrefused]
    exact Nat.zero_le 1
  | [s], _ =>
    simp only [accepted, List.zipIdx_cons, List.zipIdx_nil, List.filter_cons, hrefused,
      Bool.false_eq_true, if_false]
    split <;> simp

theorem Calls.sound {sends : List Send} (h : Calls w e c sends) : Sound w c sends := by
  cases h with
  | once h => exact h.2
  | refused _ hfirst h =>
    intro s hs
    rcases List.mem_cons.mp hs with rfl | hs
    · exact hfirst.2 s (List.mem_singleton_self s)
    · exact h.2 s hs

theorem Calls.accepted_length_le {sends : List Send} (h : Calls w e c sends) :
    (accepted w sends).length ≤ 1 := by
  cases h with
  | once h => exact (Matrix.accepted_length_le w sends).trans h.1
  | refused hrefused _ h => exact accepted_refused_length_le hrefused _ h.1

theorem Calls.accepted_of_handled {sends : List Send} (h : Calls w e c sends)
    (hhandled : handledByPlugin w e = true) : accepted w sends = [] := by
  cases h with
  | once _ hnil =>
    rw [hnil hhandled]
    rfl
  | refused hrefused _ _ hnil =>
    rw [hnil hhandled]
    exact accepted_refused hrefused _

theorem accepted_of_barred (hbarred : Barred w e) : accepted w (onRoomMessage w e) = [] := by
  cases hread : readEvent w e with
  | error err =>
    rw [onRoomMessage, hread]
    rfl
  | ok c =>
    obtain ⟨hsender, hroom, hsuppress⟩ := readEvent_eq_ok hread
    cases hbarred with
    | fromBot h => exact absurd h.symm hsender
    | unconfigured h =>
      obtain ⟨entry, hentry, hnames, -⟩ := findRoomConfig_names hroom
      exact absurd hnames (h entry hentry)
    | suppressed h =>
      rw [hsuppress] at h
      cases h
    | broadcastDisabled h =>
      rw [List.eq_nil_iff_forall_not_mem]
      intro s hs
      have henabled := ((onRoomMessage_calls hread).sound s (accepted_subset hs)).2
      rw [h] at henabled
      cases henabled
    | handled h => exact (onRoomMessage_calls hread).accepted_of_handled h

/-- **One radio message for each event.** Whatever the queue answers, at most one call is accepted;
every call goes to the channel of the room; and an event of the bot, of a room that is not
configured, with the suppress key, without broadcasts or handled by a plugin has no accepted
call. -/
theorem single_send (w : World) (e : Event) :
    (accepted w (onRoomMessage w e)).length ≤ 1 ∧
    (∀ s ∈ onRoomMessage w e, ∃ entry ∈ roomEntries w.matrixRooms, Names entry w.roomId ∧
      findRoomConfig w = .ok (some entry.2) ∧
      entry.2.field "meshtastic_channel" = .int s.channel) ∧
    (Barred w e → accepted w (onRoomMessage w e) = []) := by
  refine ⟨?_, ?_, accepted_of_barred⟩
  · cases hread : readEvent w e with
    | error err => simp [onRoomMessage, hread, accepted]
    | ok c => exact (onRoomMessage_calls hread).accepted_length_le
  · intro s hs
    cases hread : readEvent w e with
    | error err =>
      rw [onRoomMessage, hread] at hs
      cases hs
    | ok c =>
      have hroom := (readEvent_eq_ok hread).2.1
      obtain ⟨entry, hentry, hnames, hconfig⟩ := findRoomConfig_names hroom
      rw [← hconfig] at hroom
      refine ⟨entry, hentry, hnames, hroom, ?_⟩
      rw [hconfig]
      exact ((onRoomMessage_calls hread).sound s hs).1

end MMRelay.Matrix
