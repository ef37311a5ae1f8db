import MMRelay.Matrix.Single
import MMRelay.Matrix.Echo

/-!
# Events that a plugin claims

The command tests of the plugins stand before the ordinary message, and after the branches for
reactions and replies.

* `ReactionRelays`, `ReplyRelays`: the two branches that send before any plugin is asked;
* **`claimed_iff`**: a claimed event enqueues nothing if and only if neither of them is taken;
* `commandReply_relayed`: a command that replies to a stored message is sent to the radio.
-/

namespace MMRelay.Matrix

open MMRelay.Relay

variable {w : World} {e : Event} {c : Ctx}

/-- Some plugin claims the event. -/
def Claimed (w : World) : Prop := ∃ p ∈ w.plugins, p.test = .matches (some true)

/-- A reaction that can be sent: of a remote mesh, or to a stored message. -/
def ReactionRelays (w : World) (e : Event) (c : Ctx) : Prop :=
  c.reaction.isReaction = true ∧ canSend w c .reaction = true ∧
    if isRemoteReaction w e then
      (remoteReactionSender w e).isOk = true ∧ (remoteReactionText e).isOk = true
    else
      c.reaction.originalEventId.truthy = true ∧
        ∃ row, storedOriginal w c.reaction.originalEventId = .ok (some row) ∧
          (numericId row).isOk = true ∧ row.meshtasticText.isSome = true

/-- The reply to a stored message, as it is sent. -/
def formattedReply (w : World) (e : Event) (c : Ctx) : Except PyErr String :=
  formatReplyMessage w.builtins w.config w.displayName c.text (e.field "meshtastic_longname")
    (e.field "meshtastic_shortname") (e.field "meshtastic_meshnet") (localMeshnetName w)
    (meshTextOverride e) e.sender

/-- An enabled reply to a stored message that can be formatted and sent. -/
def ReplyRelays (w : World) (e : Event) (c : Ctx) : Prop :=
  c.reaction.isReaction = false ∧ isReply w c = true ∧ canSend w c .reply = true ∧
    ∃ row, storedOriginal w c.replyTo = .ok (some row) ∧ (numericId row).isOk = true ∧
      (formattedReply w e c).isOk = true

/-- The event is sent before any plugin is asked. -/
def RelaysEarly (w : World) (e : Event) : Prop :=
  ∃ c, readEvent w e = .ok c ∧ (ReactionRelays w e c ∨ ReplyRelays w e c)

/-! ## Path by path -/

theorem relayOrdinary_of_claimed (h : Claimed w) : relayOrdinary w e c = [] := by
  obtain ⟨p, hp, htest⟩ := h
  have hany : w.plugins.any matchesCommand = true := by
    rw [List.any_eq_true]
    refine ⟨p, hp, ?_⟩
    rw [matchesCommand, htest]
    rfl
  unfold relayOrdinary
  split
  · rfl
  · rw [hany]
    exact ite_self _

theorem replyTo_of_reaction (hread : readEvent w e = .ok c) (h : c.reaction.isReaction = true) :
    c.replyTo = .none := by
  unfold readEvent at hread
  simp only [except_bind_eq_ok, require_eq_ok, liftErr_eq_ok] at hread
  obtain ⟨-, -, -, -, room, -, -, -, -, -, reaction, -, text, -, -, -, -, -, target, htarget, hc⟩ :=
    hread
  cases hc
  change reaction.isReaction = true at h
  unfold readReplyTo at htarget
  simp only [h, Bool.true_or, if_true] at htarget
  cases htarget
  rfl

theorem relayRemoteReaction_cases (w : World) (e : Event) (c : Ctx) :
    match relayRemoteReaction w e c with
    | .error _ => ¬ ((remoteReactionSender w e).isOk = true ∧ (remoteReactionText e).isOk = true)
    | .ok sends => ((remoteReactionSender w e).isOk = true ∧ (remoteReactionText e).isOk = true) ∧
        (sends = [] ↔ canSend w c .reaction = false) := by
  unfold relayRemoteReaction
  cases remoteReactionSender w e with
  | error err => exact fun h => Bool.false_ne_true h.1
  | ok sender =>
    cases remoteReactionText e with
    | error err => exact fun h => Bool.false_ne_true h.2
    | ok preview => exact ⟨⟨rfl, rfl⟩, enqueueOn_eq_nil_iff⟩

theorem replyTo_eq (row : MapRow) :
    match replyTo w e c row with
    | .error _ => ¬ ((numericId row).isOk = true ∧ (formattedReply w e c).isOk = true)
    | .ok sends => ((numericId row).isOk = true ∧ (formattedReply w e c).isOk = true) ∧
        (sends = [] ↔ canSend w c .reply = false) := by
  unfold replyTo
  cases numericId row with
  | error err => exact fun h => Bool.false_ne_true h.1
  | ok replyId =>
    change match (formattedReply w e c).bind fun reply =>
        .ok (sendReplyToMeshtastic w e c reply replyId) with
      | .error _ => _
      | .ok sends => _
    cases formattedReply w e c with
    | error err => exact fun h => Bool.false_ne_true h.2
    | ok reply => exact ⟨⟨rfl, rfl⟩, sendReplyToMeshtastic_eq_nil_iff⟩

/-- Reactions end in their block with a call if and only if they relay. -/
theorem relayReaction_relays (hreaction : c.reaction.isReaction = true) :
    match relayReaction w e c with
    | .error _ => ¬ ReactionRelays w e c
    | .ok none => ¬ ReactionRelays w e c
    | .ok (some sends) => sends = [] ↔ ¬ ReactionRelays w e c := by
  unfold relayReaction ReactionRelays
  rw [hreaction]
  cases hremote : isRemoteReaction w e with
  | true =>
    have hcases := relayRemoteReaction_cases w e c
    simp only [Bool.not_true, Bool.false_eq_true, if_false, if_true, true_and]
    cases hsends : relayRemoteReaction w e c with
    | error err =>
      rw [hsends] at hcases
      exact fun h => hcases h.2
    | ok sends =>
      rw [hsends] at hcases
      simp [Except.map, hcases.1, hcases.2]
  | false =>
    simp only [Bool.not_true, Bool.false_eq_true, if_false, true_and]
    cases c.reaction.originalEventId.truthy with
    | false => simp
    | true =>
      cases storedOriginal w c.reaction.originalEventId with
      | error err => simp [bind, Except.bind]
      | ok found =>
        cases found with
        | none => simp [bind, Except.bind, pure, Except.pure]
        | some row =>
          have hcases := relayLocalReaction_cases w c row
          simp only [bind, Except.bind, if_true]
          cases hsends : relayLocalReaction w c row with
          | error err =>
            rw [hsends] at hcases
            rcases hcases with h | h
            · simp [Except.map, h]
            · simp [Except.map, h]
          | ok sends =>
            rw [hsends] at hcases
            simp [Except.map, hcases.1, hcases.2.1, hcases.2.2]

theorem handleMatrixReply_relays (hreaction : c.reaction.isReaction = false) :
    match handleMatrixReply w e c with
    | .error _ => ¬ ReplyRelays w e c
    | .ok sends => sends = [] ↔ ¬ ReplyRelays w e c := by
  unfold handleMatrixReply ReplyRelays
  rw [hreaction]
  change match (if isReply w c then _ else _ : Except PyErr (List Send)) with
    | .error _ => _
    | .ok sends => _
  cases isReply w c with
  | false => simp
  | true =>
    simp only [if_true, true_and]
    cases storedOriginal w c.replyTo with
    | error err => simp [bind, Except.bind]
    | ok found =>
      cases found with
      | none => simp [bind, Except.bind, pure, Except.pure]
      | some row =>
        have hcases := replyTo_eq (w := w) (e := e) (c := c) row
        simp only [bind, Except.bind]
        cases hsends : replyTo w e c row with
        | error err =>
          rw [hsends] at hcases
          rintro ⟨-, row', hrow, h⟩
          cases hrow
          exact hcases h
        | ok sends =>
          rw [hsends] at hcases
          simp [hcases.1, hcases.2]

/-! ## The handler -/

/-- With a claim, what follows the reaction block sends only replies. -/
theorem relayMessage_of_claimed (h : Claimed w) (hreaction : c.reaction.isReaction = false) :
    relayMessage w e c = [] ↔ ¬ ReplyRelays w e c := by
  have hcases := handleMatrixReply_relays (w := w) (e := e) hreaction
  unfold relayMessage
  cases hsends : handleMatrixReply w e c with
  | error err =>
    rw [hsends] at hcases
    simp [hcases]
  | ok sends =>
    rw [hsends] at hcases
    simp only [relayOrdinary_of_claimed h, List.append_nil, ite_self]
    exact hcases

/-- **Claimed events.** An event that some plugin claims enqueues nothing if and only if it is no
reaction and no reply that is sent before the plugins are asked. -/
theorem claimed_iff (w : World) (e : Event) (h : Claimed w) :
    onRoomMessage w e = [] ↔ ¬ RelaysEarly w e := by
  unfold onRoomMessage RelaysEarly
  cases hread : readEvent w e with
  | error err => simp
  | ok c =>
    simp only [Except.ok.injEq, exists_eq_left']
    cases hreaction : c.reaction.isReaction with
    | false =>
      have hno : ¬ ReactionRelays w e c := by
        rintro ⟨hr, -⟩
        rw [hreaction] at hr
        cases hr
      have hnone : relayReaction w e c = .ok none := by
        rw [relayReaction, hreaction]
        rfl
      rw [hnone]
      simp only [hno, false_or]
      exact relayMessage_of_claimed h hreaction
    | true =>
      have hno : ¬ ReplyRelays w e c := by
        rintro ⟨hr, -⟩
        rw [hreaction] at hr
        cases hr
      have hcases := relayReaction_relays (w := w) (e := e) hreaction
      simp only [hno, or_false]
      cases hrelay : relayReaction w e c with
      | error err =>
        rw [hrelay] at hcases
        simp [hcases]
      | ok sends =>
        rw [hrelay] at hcases
        cases sends with
        | some sends => exact hcases
        | none =>
          have hmessage : relayMessage w e c = [] := by
            have hreply : handleMatrixReply w e c = .ok [] := by
              rw [handleMatrixReply, replyTo_of_reaction hread hreaction]
              rfl
            rw [relayMessage, hreply]
            simp [relayOrdinary_of_claimed h]
          simp only [hmessage, true_iff]
          exact hcases

/-- The demo relay with a plugin that claims the event. -/
def claimWorld : World :=
  { demoWorld with plugins := [⟨some false, .matches (some true)⟩] }

/-- A command with the further fields `extra`. -/
def helpCommand (extra : List (String × Py)) : Event :=
  { kind := .text, sender := "@ann:x", eventId := "$n", serverTimestamp := 0, body := "!help"
    content := extra }

/-- A command that is no reply stays off the radio. -/
theorem claimed_iff_command :
    onRoomMessage claimWorld (helpCommand []) = [] ∧ ¬ RelaysEarly claimWorld (helpCommand []) := by
  have hnil : onRoomMessage claimWorld (helpCommand []) = [] := by
    rw [← List.length_eq_zero_iff]
    decide +kernel
  exact ⟨hnil, (claimed_iff claimWorld (helpCommand [])
    ⟨_, List.mem_singleton_self _, rfl⟩).mp hnil⟩

/-- A command that replies to a stored message is sent to the radio. -/
theorem commandReply_relayed :
    Claimed claimWorld ∧
    (onRoomMessage claimWorld (helpCommand
      [("m.relates_to", .dict [("m.in_reply_to", .dict [("event_id", .str "$e")])])])).map
      (fun s => (s.function, s.payload, s.channel)) = [(.sendTextReply 42, "!help", 0)] :=
  ⟨⟨_, List.mem_singleton_self _, rfl⟩, by decide +kernel⟩

end MMRelay.Matrix
