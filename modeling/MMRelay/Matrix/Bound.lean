import MMRelay.Matrix.Handler

/-!
# The size of what is sent to the radio

Replies and plain messages are cut after everything was put together. Reactions are never cut, a
message from a remote mesh is cut before its prefix, and detection-sensor text is not cut at all.

* `Bounded`: every payload has at most `DEFAULT_MESSAGE_TRUNCATE_BYTES` bytes.
* `Fits`: the budget of each of the three paths that do not cut the whole payload.
* **`bounded_iff_fits`**: the payloads of an event are bounded if and only if it fits.
* `longReaction`: a reaction with a long key, which is sent uncut.
-/

namespace MMRelay.Matrix

open MMRelay.Relay

variable {w : World} {e : Event} {c : Ctx}

/-- Every payload fits the radio. -/
def Bounded (sends : List Send) : Prop :=
  ∀ s ∈ sends, byteLen s.payload ≤ defaultMessageTruncateBytes

theorem bounded_nil : Bounded [] := fun s hs => by cases hs

theorem bounded_append {xs ys : List Send} : Bounded (xs ++ ys) ↔ Bounded xs ∧ Bounded ys := by
  unfold Bounded
  simp only [List.mem_append]
  exact ⟨fun h => ⟨fun s hs => h s (Or.inl hs), fun s hs => h s (Or.inr hs)⟩,
    fun h s hs => hs.elim (h.1 s) (h.2 s)⟩

theorem bounded_enqueueOn {purpose : Purpose} {function : SendFunction}
    {payload description : String} {mapping : Option MappingInfo} :
    Bounded (enqueueOn w c purpose function payload description mapping) ↔
      (canSend w c purpose = true → byteLen payload ≤ defaultMessageTruncateBytes) := by
  cases hs : canSend w c purpose with
  | false =>
    rw [enqueueOn_of_not_canSend hs]
    simp [bounded_nil]
  | true =>
    obtain ⟨channel, hc⟩ := enqueueOn_of_canSend hs
    rw [hc]
    simp [Bounded]

/-! ## Budgets -/

/-- The bytes of a reaction message beside the sender, the emoji and the preview. -/
def reactionOverhead : ℕ := 14

theorem byteLen_reactionMessage (sender emoji preview : String) :
    byteLen (reactionMessage sender emoji preview) =
      byteLen sender + byteLen emoji + byteLen preview + reactionOverhead := by
  unfold reactionMessage
  rw [byteLen_append, byteLen_append, byteLen_append, byteLen_append, byteLen_append]
  rw [show byteLen "reacted " = 8 by decide, show byteLen " to \"" = 5 by decide,
    show byteLen "\"" = 1 by decide, reactionOverhead]
  omega

/-- The budget of a reaction. -/
def ReactionFits (sender emoji preview : String) : Prop :=
  byteLen sender + byteLen emoji + byteLen preview + reactionOverhead ≤ defaultMessageTruncateBytes

/-- A reaction from a remote mesh that is sent keeps the budget. -/
def RemoteReactionFits (w : World) (e : Event) (c : Ctx) : Prop :=
  ∀ sender preview, remoteReactionSender w e = .ok sender → remoteReactionText e = .ok preview →
    canSend w c .reaction = true →
    ReactionFits sender (c.reaction.emoji.toStr w.builtins) preview

/-- A reaction to a stored message that is sent keeps the budget. -/
def LocalReactionFits (w : World) (c : Ctx) : Prop :=
  ∀ row replyId text, storedOriginal w c.reaction.originalEventId = .ok (some row) →
    numericId row = .ok replyId → row.meshtasticText = some text →
    canSend w c .reaction = true →
    ReactionFits (getMeshtasticPrefix w.builtins w.config w.displayName "")
      (c.reaction.emoji.toStr w.builtins) (previewText text)

/-- The text of a Matrix user that is sent as detection-sensor data is short enough. -/
def DetectionFits (w : World) (e : Event) (c : Ctx) : Prop :=
  isRelayed e = false → detectionEnabled w = true → canSend w c .detection = true →
    byteLen c.text ≤ defaultMessageTruncateBytes

/-- The prefix and the cut text of a message from a remote mesh that is sent fit together. -/
def RemoteTextFits (w : World) (e : Event) (c : Ctx) : Prop :=
  isRelayed e = true → (e.field "meshtastic_meshnet").eq (localMeshnetName w) = false →
    canSend w c .message = true → ∀ original short, remotePrefixes w e = .ok (original, short) →
    (remoteText e c.text original).isEmpty = false →
    byteLen short + byteLen (remoteText e c.text original) ≤ defaultMessageTruncateBytes

/-- The branch for replies ends the handler. -/
def replyEnds (w : World) (e : Event) (c : Ctx) : Bool :=
  match handleMatrixReply w e c with
  | .error _ => true
  | .ok sends => !sends.isEmpty && w.queueAnswer 0

/-- The budget of an ordinary message that no reply, plugin or command takes. -/
def OrdinaryFits (w : World) (e : Event) (c : Ctx) : Prop :=
  replyEnds w e c = false → pluginHandles w.plugins = false →
    w.plugins.any matchesCommand = false →
    if isDetectionPacket e then DetectionFits w e c else RemoteTextFits w e c

/-- The event keeps the budget of the path it takes. -/
def Fits (w : World) (e : Event) : Prop :=
  ∀ c, readEvent w e = .ok c →
    if c.reaction.isReaction && isRemoteReaction w e then RemoteReactionFits w e c
    else if c.reaction.isReaction && c.reaction.originalEventId.truthy then LocalReactionFits w c
    else OrdinaryFits w e c

/-! ## Path by path -/

theorem bounded_relayRemoteReaction :
    (∀ sends, relayRemoteReaction w e c = .ok sends → Bounded sends) ↔
      RemoteReactionFits w e c := by
  unfold RemoteReactionFits
  simp only [relayRemoteReaction, except_bind_eq_ok]
  constructor
  · intro h sender preview hs hp hcan
    have hb := h _ ⟨sender, hs, preview, hp, rfl⟩
    rw [bounded_enqueueOn] at hb
    rw [ReactionFits, ← byteLen_reactionMessage]
    exact hb hcan
  · rintro h sends ⟨sender, hs, preview, hp, hok⟩
    cases hok
    rw [bounded_enqueueOn, byteLen_reactionMessage]
    exact h sender preview hs hp

theorem storedPreview_eq_ok {row : MapRow} {preview : String} :
    storedPreview row = .ok preview ↔
      ∃ text, row.meshtasticText = some text ∧ previewText text = preview := by
  unfold storedPreview
  cases row.meshtasticText with
  | none => simp
  | some s => simp

theorem bounded_relayLocalReaction :
    (∀ row sends, storedOriginal w c.reaction.originalEventId = .ok (some row) →
      relayLocalReaction w c row = .ok sends → Bounded sends) ↔ LocalReactionFits w c := by
  unfold LocalReactionFits
  simp only [relayLocalReaction, except_bind_eq_ok, storedPreview_eq_ok]
  constructor
  · intro h row replyId text horig hid htext hcan
    have hb := h row _ horig ⟨replyId, hid, previewText text, ⟨text, htext, rfl⟩, rfl⟩
    rw [ReactionFits, ← byteLen_reactionMessage]
    cases replyId with
    | none => exact bounded_enqueueOn.mp hb hcan
    | some n => exact bounded_enqueueOn.mp hb hcan
  · rintro h row sends horig ⟨replyId, hid, preview, ⟨text, htext, rfl⟩, hok⟩
    cases hok
    have hfits := h row replyId text horig hid htext
    rw [ReactionFits, ← byteLen_reactionMessage] at hfits
    cases replyId with
    | none => exact bounded_enqueueOn.mpr hfits
    | some n => exact bounded_enqueueOn.mpr hfits

theorem bounded_replyTo {row : MapRow} {sends : List Send} (h : replyTo w e c row = .ok sends) :
    Bounded sends := by
  simp only [replyTo, except_bind_eq_ok] at h
  obtain ⟨replyId, -, reply, hreply, hok⟩ := h
  cases hok
  unfold sendReplyToMeshtastic
  cases replyId with
  | none => exact bounded_enqueueOn.mpr fun _ => byteLen_formatReplyMessage_le hreply
  | some n => exact bounded_enqueueOn.mpr fun _ => byteLen_formatReplyMessage_le hreply

/-- Replies are cut last. -/
theorem bounded_handleMatrixReply {sends : List Send} (h : handleMatrixReply w e c = .ok sends) :
    Bounded sends := by
  unfold handleMatrixReply at h
  split_ifs at h
  · rw [except_bind_eq_ok] at h
    obtain ⟨orig, -, h⟩ := h
    cases orig with
    | none =>
      cases h
      exact bounded_nil
    | some row => exact bounded_replyTo h
  · cases h
    exact bounded_nil

theorem remoteMessage_eq_ok {m : Ordinary} :
    remoteMessage w e c = .ok m ↔ ∃ original short, remotePrefixes w e = .ok (original, short) ∧
      (remoteText e c.text original).isEmpty = false ∧
      m = ⟨(e.field "meshtastic_longname").toStr w.builtins ++ "/" ++
        (e.field "meshtastic_meshnet").toStr w.builtins, remoteText e c.text original,
        short ++ remoteText e c.text original⟩ := by
  simp only [remoteMessage, except_bind_eq_ok, liftErr_eq_ok, require_eq_ok]
  constructor
  · rintro ⟨⟨original, short⟩, hp, u, hne, hok⟩
    cases hok
    exact ⟨original, short, hp, by simpa using hne, rfl⟩
  · rintro ⟨original, short, hp, hne, rfl⟩
    exact ⟨(original, short), hp, (), by simpa using hne, rfl⟩

theorem byteLen_remoteText_le (e : Event) (text original : String) :
    byteLen (remoteText e text original) ≤ defaultMessageTruncateBytes := by
  unfold remoteText
  exact byteLen_truncateMessage_le _ _

theorem bounded_detection :
    (∀ m, ordinaryMessage w e c = .ok m → Bounded (handleDetectionSensorPacket w c m)) ↔
      DetectionFits w e c := by
  have hsend : ∀ m : Ordinary, Bounded (handleDetectionSensorPacket w c m) ↔
      (detectionEnabled w = true → canSend w c .detection = true →
        byteLen m.text ≤ defaultMessageTruncateBytes) := by
    intro m
    unfold handleDetectionSensorPacket
    cases hd : detectionEnabled w with
    | false => simp [bounded_nil]
    | true => simp [bounded_enqueueOn]
  unfold DetectionFits ordinaryMessage
  simp only [hsend]
  cases hr : isRelayed e with
  | false =>
    constructor
    · exact fun h _ => h _ rfl
    · rintro h m hm
      cases hm
      exact h rfl
  | true =>
    simp only [if_true, Bool.true_eq_false, false_implies, iff_true]
    intro m hm _ _
    split_ifs at hm
    obtain ⟨original, short, -, -, rfl⟩ := remoteMessage_eq_ok.mp hm
    exact byteLen_remoteText_le e c.text original

theorem bounded_sendMessage :
    (∀ m, ordinaryMessage w e c = .ok m → Bounded (sendMessage w e c m)) ↔
      RemoteTextFits w e c := by
  have hsend : ∀ m : Ordinary, Bounded (sendMessage w e c m) ↔
      (canSend w c .message = true → byteLen m.message ≤ defaultMessageTruncateBytes) :=
    fun m => bounded_enqueueOn
  unfold RemoteTextFits ordinaryMessage
  simp only [hsend]
  cases hr : isRelayed e with
  | false =>
    -- a plain message is cut with its prefix
    simp only [Bool.false_eq_true, if_false, false_implies, iff_true]
    rintro m hm -
    cases hm
    exact byteLen_truncateMessage_le _ _
  | true =>
    simp only [if_true, true_implies]
    cases hm : (e.field "meshtastic_meshnet").eq (localMeshnetName w) with
    | true => simp
    | false =>
      simp only [Bool.not_false, if_true, true_implies, remoteMessage_eq_ok]
      constructor
      · intro h hcan original short hp hne
        have := h _ ⟨original, short, hp, hne, rfl⟩ hcan
        rwa [byteLen_append] at this
      · rintro h m ⟨original, short, hp, hne, rfl⟩ hcan
        rw [byteLen_append]
        exact h hcan original short hp hne

theorem bounded_relayOrdinary :
    Bounded (relayOrdinary w e c) ↔ (pluginHandles w.plugins = false →
      w.plugins.any matchesCommand = false →
      if isDetectionPacket e then DetectionFits w e c else RemoteTextFits w e c) := by
  have hcases : Bounded (relayOrdinary w e c) ↔ ∀ m, ordinaryMessage w e c = .ok m →
      pluginHandles w.plugins = false → w.plugins.any matchesCommand = false →
      if isDetectionPacket e then Bounded (handleDetectionSensorPacket w c m)
      else Bounded (sendMessage w e c m) := by
    unfold relayOrdinary
    cases ordinaryMessage w e c with
    | error err => simp [bounded_nil]
    | ok m =>
      cases pluginHandles w.plugins with
      | true => simp [bounded_nil]
      | false =>
        cases w.plugins.any matchesCommand with
        | true => simp [bounded_nil]
        | false => cases isDetectionPacket e <;> simp
  rw [hcases, ← bounded_detection, ← bounded_sendMessage]
  cases isDetectionPacket e with
  | true => exact ⟨fun h hp hc m hm => h m hm hp hc, fun h m hm hp hc => h hp hc m hm⟩
  | false => exact ⟨fun h hp hc m hm => h m hm hp hc, fun h m hm hp hc => h hp hc m hm⟩

theorem bounded_relayMessage : Bounded (relayMessage w e c) ↔ OrdinaryFits w e c := by
  unfold relayMessage OrdinaryFits replyEnds
  cases hr : handleMatrixReply w e c with
  | error err => simp [bounded_nil]
  | ok sends =>
    have hb := bounded_handleMatrixReply hr
    simp only
    cases hend : (!sends.isEmpty && w.queueAnswer 0) with
    | true => simp [hb]
    | false =>
      rw [if_neg Bool.false_ne_true, bounded_append, bounded_relayOrdinary]
      simp only [hb, true_and, true_implies]

/-! ## The handler -/

/-- **The bound.** Every payload that the handler enqueues has at most
`DEFAULT_MESSAGE_TRUNCATE_BYTES` bytes if and only if the event keeps the budget of its path. -/
theorem bounded_iff_fits (w : World) (e : Event) : Bounded (onRoomMessage w e) ↔ Fits w e := by
  unfold onRoomMessage Fits
  cases hread : readEvent w e with
  | error err => simp [bounded_nil]
  | ok c =>
    simp only [Except.ok.injEq, forall_eq']
    unfold relayReaction
    cases hreact : c.reaction.isReaction with
    | false =>
      simp only [Bool.not_false, if_true, Bool.false_and, Bool.false_eq_true, if_false]
      exact bounded_relayMessage
    | true =>
      simp only [Bool.not_true, Bool.false_eq_true, if_false, Bool.true_and]
      split_ifs with hremote horig
      · rw [← bounded_relayRemoteReaction]
        cases relayRemoteReaction w e c with
        | error err => simp [Except.map, bounded_nil]
        | ok sends => simp [Except.map]
      · rw [← bounded_relayLocalReaction]
        cases storedOriginal w c.reaction.originalEventId with
        | error err => simp [bind, Except.bind, bounded_nil]
        | ok row =>
          cases row with
          | none => simp [bind, Except.bind, pure, Except.pure, bounded_nil]
          | some row =>
            simp only [bind, Except.bind, Except.ok.injEq, Option.some.injEq]
            cases hrow : relayLocalReaction w c row with
            | error err =>
              refine ⟨fun _ row' sends heq hok => ?_, fun _ => bounded_nil⟩
              rw [← heq, hrow] at hok
              cases hok
            | ok sends =>
              refine ⟨fun hb row' sends' heq hok => ?_, fun h => h row sends rfl hrow⟩
              rw [← heq, hrow] at hok
              cases hok
              exact hb
      · exact bounded_relayMessage

/-- A reaction with a key of three hundred characters to the stored message. -/
def longReaction : Event :=
  { kind := .reaction, sender := "@ann:x", eventId := "$r", serverTimestamp := 0, body := ""
    content := [("m.relates_to", .dict
      [("event_id", .str "$e"), ("key", .str (String.ofList (List.replicate 300 'a')))])] }

theorem payload_longReaction : (onRoomMessage demoWorld longReaction).map Send.payload =
    [reactionMessage "" (String.ofList (List.replicate 300 'a')) "hello"] := rfl

/-- The long reaction is enqueued uncut. -/
theorem longReaction_unbounded :
    (onRoomMessage demoWorld longReaction).map (fun s => byteLen s.payload) = [319] ∧
    ¬ Bounded (onRoomMessage demoWorld longReaction) := by
  have hkey : byteLen (String.ofList (List.replicate 300 'a')) = 300 := by
    rw [byteLen_ofList, width, List.map_replicate, List.sum_replicate]
    decide
  have hlen : (onRoomMessage demoWorld longReaction).map (fun s => byteLen s.payload) = [319] := by
    rw [← Function.comp_def byteLen, ← List.map_map, payload_longReaction, List.map_singleton,
      byteLen_reactionMessage, hkey]
    decide
  refine ⟨hlen, fun hb => ?_⟩
  have hmem : 319 ∈ (onRoomMessage demoWorld longReaction).map (fun s => byteLen s.payload) := by
    rw [hlen]
    exact List.mem_singleton_self 319
  obtain ⟨s, hs, hbytes⟩ := List.mem_map.mp hmem
  have := hb s hs
  rw [hbytes] at this
  exact absurd this (by decide)

end MMRelay.Matrix
