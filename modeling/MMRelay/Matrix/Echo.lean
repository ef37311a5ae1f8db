import MMRelay.Matrix.Handler

/-!
# Messages of the own mesh

A relay marks what it publishes with the long name of the sender and the name of its mesh. The
test that drops such a message when it names the local mesh stands after the branches for
reactions and replies, and it does not hold for an empty name.

* `ReactionEchoes`, `ReplyEchoes`, `PlainEchoes`: the three ways around the test.
* **`echo_iff`**: an event of the own mesh enqueues nothing if and only if it takes none of them.
* `ownReply_echoes`: a reply that a relay published for its own mesh is sent back to it.
-/

namespace MMRelay.Matrix

open MMRelay.Relay

variable {w : World} {e : Event} {c : Ctx}

/-- An enabled reaction to a stored message that can be sent. -/
def ReactionEchoes (w : World) (c : Ctx) : Prop :=
  c.reaction.isReaction = true ∧ c.reaction.originalEventId.truthy = true ∧
    ∃ row, storedOriginal w c.reaction.originalEventId = .ok (some row) ∧
      (numericId row).isOk = true ∧ row.meshtasticText.isSome = true ∧
      canSend w c .reaction = true

/-- The event does not end in the reaction block. -/
def passesReactions (c : Ctx) : Bool :=
  !(c.reaction.isReaction && c.reaction.originalEventId.truthy)

/-- The event is a reply of an enabled kind. -/
def isReply (w : World) (c : Ctx) : Bool :=
  c.replyTo.truthy && (getInteractionSettings w.config).replies

/-- An enabled reply to a stored message that can be sent. -/
def ReplyEchoes (w : World) (c : Ctx) : Prop :=
  passesReactions c = true ∧ isReply w c = true ∧
    ∃ row, storedOriginal w c.replyTo = .ok (some row) ∧ (numericId row).isOk = true ∧
      canSend w c .reply = true

/-- Looking up the message that a reply refers to, and reading its id, does not raise. -/
def replyReadable (w : World) (c : Ctx) : Bool :=
  !isReply w c ||
    match storedOriginal w c.replyTo with
    | .error _ => false
    | .ok none => true
    | .ok (some row) => (numericId row).isOk

/-- The local mesh has no name and the event, which no plugin takes, can be sent. -/
def PlainEchoes (w : World) (e : Event) (c : Ctx) : Prop :=
  passesReactions c = true ∧ replyReadable w c = true ∧
    (e.field "meshtastic_meshnet").truthy = false ∧
    pluginHandles w.plugins = false ∧ w.plugins.any matchesCommand = false ∧
    if isDetectionPacket e then detectionEnabled w = true ∧ canSend w c .detection = true
    else canSend w c .message = true

/-- The event takes one of the ways around the test for the own mesh. -/
def Echoes (w : World) (e : Event) : Prop :=
  ∃ c, readEvent w e = .ok c ∧ (ReactionEchoes w c ∨ ReplyEchoes w c ∨ PlainEchoes w e c)

/-! ## Path by path -/

theorem relayLocalReaction_cases (w : World) (c : Ctx) (row : MapRow) :
    match relayLocalReaction w c row with
    | .error _ => (numericId row).isOk = false ∨ row.meshtasticText.isSome = false
    | .ok sends => (numericId row).isOk = true ∧ row.meshtasticText.isSome = true ∧
        (sends = [] ↔ canSend w c .reaction = false) := by
  unfold relayLocalReaction storedPreview
  cases numericId row with
  | error err => exact Or.inl rfl
  | ok replyId =>
    cases row.meshtasticText with
    | none => exact Or.inr rfl
    | some text =>
      refine ⟨rfl, rfl, ?_⟩
      cases replyId with
      | none => exact enqueueOn_eq_nil_iff
      | some n => exact enqueueOn_eq_nil_iff

theorem formatReplyMessage_local {rt : Builtins} {config : Py}
    {fullDisplayName text userId : String} {longname shortname meshnet localMeshnet : Py}
    {override : Option String} (h : meshnet.eq localMeshnet = true) :
    ∃ reply, formatReplyMessage rt config fullDisplayName text longname shortname meshnet
      localMeshnet override userId = .ok reply := by
  unfold formatReplyMessage
  rw [h]
  simp only [Bool.not_true, Bool.and_false, Bool.false_eq_true, if_false]
  exact ⟨_, rfl⟩

theorem sendReplyToMeshtastic_eq_nil_iff {reply : String} {replyId : Option ℤ} :
    sendReplyToMeshtastic w e c reply replyId = [] ↔ canSend w c .reply = false := by
  unfold sendReplyToMeshtastic
  cases replyId with
  | none => exact enqueueOn_eq_nil_iff
  | some n => exact enqueueOn_eq_nil_iff

theorem replyTo_cases (hmesh : (e.field "meshtastic_meshnet").eq (localMeshnetName w) = true)
    (row : MapRow) :
    match replyTo w e c row with
    | .error _ => (numericId row).isOk = false
    | .ok sends => (numericId row).isOk = true ∧ (sends = [] ↔ canSend w c .reply = false) := by
  unfold replyTo
  cases numericId row with
  | error err => exact rfl
  | ok replyId =>
    obtain ⟨reply, hreply⟩ := formatReplyMessage_local hmesh
    simp only [bind, Except.bind]
    rw [hreply]
    exact ⟨rfl, sendReplyToMeshtastic_eq_nil_iff⟩

theorem handleMatrixReply_cases
    (hmesh : (e.field "meshtastic_meshnet").eq (localMeshnetName w) = true)
    (hpass : passesReactions c = true) :
    match handleMatrixReply w e c with
    | .error _ => replyReadable w c = false ∧ ¬ ReplyEchoes w c
    | .ok sends => replyReadable w c = true ∧ (sends = [] ↔ ¬ ReplyEchoes w c) := by
  unfold handleMatrixReply ReplyEchoes replyReadable
  change match (if isReply w c then _ else _ : Except PyErr (List Send)) with
    | .error _ => _
    | .ok sends => _
  cases hreply : isReply w c with
  | false => simp
  | true =>
    simp only [if_true, Bool.not_true, Bool.false_or, hpass, true_and]
    cases storedOriginal w c.replyTo with
    | error err => simp [bind, Except.bind]
    | ok orig =>
      cases orig with
      | none => simp [bind, Except.bind, pure, Except.pure]
      | some row =>
        have hrow := replyTo_cases (c := c) hmesh row
        simp only [bind, Except.bind]
        cases hto : replyTo w e c row with
        | error err =>
          rw [hto] at hrow
          simp [hrow]
        | ok sends =>
          rw [hto] at hrow
          simp [hrow.1, hrow.2]

theorem relayOrdinary_eq_nil_iff (hname : (e.field "meshtastic_longname").truthy = true)
    (hmesh : (e.field "meshtastic_meshnet").eq (localMeshnetName w) = true)
    (hpass : passesReactions c = true) (hread : replyReadable w c = true) :
    relayOrdinary w e c = [] ↔ ¬ PlainEchoes w e c := by
  have hdet : ∀ m, handleDetectionSensorPacket w c m = [] ↔
      ¬ (detectionEnabled w = true ∧ canSend w c .detection = true) := by
    intro m
    unfold handleDetectionSensorPacket
    cases detectionEnabled w with
    | false => simp
    | true => simp [enqueueOn_eq_nil_iff]
  have hsend : ∀ m, sendMessage w e c m = [] ↔ ¬ canSend w c .message = true := by
    intro m
    rw [sendMessage, enqueueOn_eq_nil_iff, Bool.not_eq_true]
  unfold relayOrdinary ordinaryMessage PlainEchoes isRelayed
  rw [hname, hmesh]
  cases htruthy : (e.field "meshtastic_meshnet").truthy with
  | true => simp
  | false =>
    cases pluginHandles w.plugins with
    | true => simp
    | false =>
      cases w.plugins.any matchesCommand with
      | true => simp
      | false =>
        cases isDetectionPacket e with
        | true => simp [hdet, hpass, hread]
        | false => simp [hsend, hpass, hread]

theorem relayMessage_eq_nil_iff (hname : (e.field "meshtastic_longname").truthy = true)
    (hmesh : (e.field "meshtastic_meshnet").eq (localMeshnetName w) = true)
    (hpass : passesReactions c = true) :
    relayMessage w e c = [] ↔ ¬ (ReplyEchoes w c ∨ PlainEchoes w e c) := by
  have hcases := handleMatrixReply_cases hmesh hpass
  unfold relayMessage
  cases hreply : handleMatrixReply w e c with
  | error err =>
    rw [hreply] at hcases
    have hplain : ¬ PlainEchoes w e c := by
      rintro ⟨-, hread, -⟩
      rw [hcases.1] at hread
      cases hread
    simp [hcases.2, hplain]
  | ok sends =>
    rw [hreply] at hcases
    have hord := relayOrdinary_eq_nil_iff hname hmesh hpass hcases.1
    rw [not_or, ← hcases.2, ← hord]
    simp only
    cases sends with
    | nil => simp
    | cons s rest =>
      split_ifs <;> simp

theorem relayReaction_of_passes (hremote : isRemoteReaction w e = false)
    (hpass : passesReactions c = true) : relayReaction w e c = .ok none := by
  unfold relayReaction
  unfold passesReactions at hpass
  cases hr : c.reaction.isReaction with
  | false => simp
  | true =>
    rw [hr, Bool.true_and, Bool.not_eq_true'] at hpass
    simp [hremote, hpass]

/-- The local kind of reaction ends in the reaction block. -/
theorem relayReaction_of_ends (hremote : isRemoteReaction w e = false)
    (hpass : passesReactions c = false) :
    match relayReaction w e c with
    | .error _ => ¬ ReactionEchoes w c
    | .ok none => False
    | .ok (some sends) => sends = [] ↔ ¬ ReactionEchoes w c := by
  unfold passesReactions at hpass
  rw [Bool.not_eq_false', Bool.and_eq_true] at hpass
  unfold relayReaction ReactionEchoes
  simp only [hpass.1, hpass.2, hremote, Bool.not_true, Bool.false_eq_true, if_false, if_true,
    true_and]
  cases storedOriginal w c.reaction.originalEventId with
  | error err => simp [bind, Except.bind]
  | ok orig =>
    cases orig with
    | none => simp [bind, Except.bind, pure, Except.pure]
    | some row =>
      have hrow := relayLocalReaction_cases w c row
      simp only [bind, Except.bind]
      cases hlocal : relayLocalReaction w c row with
      | error err =>
        rw [hlocal] at hrow
        rcases hrow with h | h
        · simp [Except.map, h]
        · simp [Except.map, h]
      | ok sends =>
        rw [hlocal] at hrow
        simp [Except.map, hrow.1, hrow.2.1, hrow.2.2]

/-! ## The handler -/

/-- **The own mesh.** An event that names a sender and the local mesh enqueues nothing if and only
if it is no sendable reaction or reply to a stored message, and no sendable message of a mesh
without a name. -/
theorem echo_iff (w : World) (e : Event)
    (hname : (e.field "meshtastic_longname").truthy = true)
    (hmesh : (e.field "meshtastic_meshnet").eq (localMeshnetName w) = true) :
    onRoomMessage w e = [] ↔ ¬ Echoes w e := by
  have hremote : isRemoteReaction w e = false := by
    simp [isRemoteReaction, hmesh]
  unfold onRoomMessage Echoes
  cases hread : readEvent w e with
  | error err => simp
  | ok c =>
    simp only [Except.ok.injEq, exists_eq_left']
    cases hpass : passesReactions c with
    | true =>
      have hreaction : ¬ ReactionEchoes w c := by
        rintro ⟨hr, horig, -⟩
        rw [passesReactions, hr, horig] at hpass
        cases hpass
      rw [relayReaction_of_passes hremote hpass]
      simp only [hreaction, false_or]
      exact relayMessage_eq_nil_iff hname hmesh hpass
    | false =>
      have hreply : ¬ ReplyEchoes w c := by
        rintro ⟨h, -⟩
        rw [hpass] at h
        cases h
      have hplain : ¬ PlainEchoes w e c := by
        rintro ⟨h, -⟩
        rw [hpass] at h
        cases h
      have hends := relayReaction_of_ends hremote hpass
      simp only [hreply, hplain, or_false]
      cases hrel : relayReaction w e c with
      | error err =>
        rw [hrel] at hends
        simp [hends]
      | ok o =>
        rw [hrel] at hends
        cases o with
        | none => exact absurd hends id
        | some sends => exact hends

/-- An event of the own mesh with the further fields `extra`. -/
def ownMessage (extra : List (String × Py)) : Event :=
  { kind := .text, sender := "@relay:x", eventId := "$n", serverTimestamp := 0, body := "hi"
    content := [("meshtastic_longname", .str "Ann"), ("meshtastic_meshnet", .str "mesh")] ++ extra }

/-- A plain message of the own mesh is dropped. -/
theorem echo_iff_plain : onRoomMessage demoWorld (ownMessage []) = [] ∧
    ¬ Echoes demoWorld (ownMessage []) := by
  have hnil : onRoomMessage demoWorld (ownMessage []) = [] := by
    rw [← List.length_eq_zero_iff]
    decide +kernel
  exact ⟨hnil, (echo_iff demoWorld (ownMessage []) (by decide) (by decide +kernel)).mp hnil⟩

/-- A reply that a relay published for the own mesh is sent back to it. -/
theorem ownReply_echoes :
    ((ownMessage [("m.relates_to", .dict [("m.in_reply_to", .dict [("event_id", .str "$e")])])]).field
      "meshtastic_longname").truthy = true ∧
    ((ownMessage [("m.relates_to", .dict [("m.in_reply_to", .dict [("event_id", .str "$e")])])]).field
      "meshtastic_meshnet").eq (localMeshnetName demoWorld) = true ∧
    (onRoomMessage demoWorld (ownMessage
      [("m.relates_to", .dict [("m.in_reply_to", .dict [("event_id", .str "$e")])])])).map
      (fun s => (s.function, s.payload, s.channel)) = [(.sendTextReply 42, "hi", 0)] :=
  ⟨by decide, by decide +kernel, by decide +kernel⟩

end MMRelay.Matrix
