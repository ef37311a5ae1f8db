import MMRelay.Lib.PyValue
import MMRelay.Lib.Retransmit

/-!
# Sending with retries

`_send_matrix_message_with_retry` (`matrix/relay.py`): any number of calls at once, and a homeserver
that carries out a transaction id once. Requests may get lost, and may arrive after their call has
given up on them.

* `Call`, `attemptSend`, `afterSend`: one turn of the loop, cut at `room_send`;
* `State`, `Act`, `step`: the calls and the network, an instance of `Retransmit`;
* `net_run`: a run of the calls is one of the network;
* `Lockstep`, `lockstep_run`: how far a call is and how often it has sent;
* **`sends_once`**: what a call leaves in its room.
-/

namespace MMRelay.Matrix.Sending

open Retransmit (Net Entry Client carried)

abbrev Content := List (String × Py)

/-- How `room_send` ends within its time limit, if it does. -/
inductive Outcome
  | timeout
  /-- One of `NIO_COMM_EXCEPTIONS`. -/
  | commError
  | sendError
  | event (eventId : String)
  /-- An exception of another kind, which leaves the function. -/
  | raised
  deriving DecidableEq

inductive Phase
  /-- Before `room_send`, or asleep before the next turn. -/
  | ready
  /-- In `room_send`. -/
  | waiting
  | returned (eventId : Option String)
  | raised
  deriving DecidableEq

/-- A call of `_send_matrix_message_with_retry`. -/
structure Call where
  roomId : String
  content : Content
  /-- `stable_transaction_id`. -/
  transactionId : String
  maxRetries : ℕ
  attempt : ℕ := 0
  phase : Phase := .ready

/-- What the client knows: whether a room is encrypted, for rooms that it knows. -/
structure ClientView where
  encrypted : String → Option Bool
  e2eeEnabled : Bool

/-- The room is encrypted, and the client cannot encrypt. -/
def ClientView.blocks (v : ClientView) (roomId : String) : Bool :=
  v.encrypted roomId == some true && !v.e2eeEnabled

/-- A turn of the loop up to `room_send`. -/
def attemptSend (v : ClientView) (c : Call) : Call :=
  if v.blocks c.roomId then { c with phase := .returned none } else { c with phase := .waiting }

/-- The rest of the turn: a message that is not sent is tried again, up to `max_retries` times. -/
def afterSend (c : Call) : Outcome → Call
  | .event eventId => { c with phase := .returned (some eventId) }
  | .raised => { c with phase := .raised }
  | _ =>
    if c.attempt < c.maxRetries then { c with attempt := c.attempt + 1, phase := .ready }
    else { c with phase := .returned none }

/-- The key under which the homeserver keeps a request. -/
def Call.key (c : Call) : String × String := (c.roomId, c.transactionId)

/-- The calls, and the network with one client for each. -/
structure State where
  calls : List Call
  net : Net (String × String) Content String

def State.init : State := ⟨[], Net.init⟩

/-- `transaction_id or f"mmrelay-{secrets.token_hex(16)}"`. -/
def stableTransactionId (transactionId : Option String) (token : String) : String :=
  match transactionId.filter (· ≠ "") with
  | some given => given
  | none => "mmrelay-" ++ token

inductive Act
  /-- A call begins, with a transaction id of its caller or else one with the random token. -/
  | call (roomId : String) (content : Content) (transactionId : Option String) (token : String)
      (maxRetries : ℕ)
  | attempt (i : ℕ) (view : ClientView)
  /-- A copy of a request reaches the homeserver; a new one becomes an event with this id. -/
  | arrive (i : ℕ) (eventId : String)
  | finish (i : ℕ) (outcome : Outcome)

/-- What the network does in a step, if anything. -/
def netAct (s : State) : Act → Option (Retransmit.Act (String × String) Content String)
  | .call roomId content transactionId token _ =>
    some (.join (roomId, stableTransactionId transactionId token) content)
  | .attempt i v =>
    match s.calls[i]? with
    | some c => if v.blocks c.roomId then none else some (.transmit i)
    | none => none
  | .arrive i eventId => some (.arrive i eventId)
  | .finish i (.event eventId) => some (.receive i eventId)
  | .finish _ _ => none

/-- What the calls do in a step. -/
def callsAfter (s : State) : Act → Option (List Call)
  | .call roomId content transactionId token maxRetries =>
    some (s.calls ++ [{ roomId := roomId, content := content
                        transactionId := stableTransactionId transactionId token
                        maxRetries := maxRetries }])
  | .attempt i v =>
    match s.calls[i]? with
    | some c => if c.phase = .ready then some (s.calls.set i (attemptSend v c)) else none
    | none => none
  | .arrive _ _ => some s.calls
  | .finish i outcome =>
    match s.calls[i]? with
    | some c => if c.phase = .waiting then some (s.calls.set i (afterSend c outcome)) else none
    | none => none

def netAfter (s : State) (a : Act) : Option (Net (String × String) Content String) :=
  match netAct s a with
  | some act => Retransmit.step s.net act
  | none => some s.net

def step (s : State) (a : Act) : Option State := do
  let calls ← callsAfter s a
  let net ← netAfter s a
  pure ⟨calls, net⟩

theorem step_eq_some {s s' : State} {a : Act} :
    step s a = some s' ↔ callsAfter s a = some s'.calls ∧ netAfter s a = some s'.net := by
  obtain ⟨calls, net⟩ := s'
  unfold step
  simp only [Option.bind_eq_bind, Option.bind_eq_some_iff, Option.pure_def, Option.some.injEq,
    State.mk.injEq]
  constructor
  · rintro ⟨calls', hcalls, net', hnet, rfl, rfl⟩
    exact ⟨hcalls, hnet⟩
  · rintro ⟨hcalls, hnet⟩
    exact ⟨calls, hcalls, net, hnet, rfl, rfl⟩

/-! ## The network -/

theorem net_step {s s' : State} {a : Act} (hs : Retransmit.Sound s.net)
    (h : step s a = some s') : Retransmit.Sound s'.net := by
  have hnet := (step_eq_some.mp h).2
  unfold netAfter at hnet
  split at hnet
  · exact Retransmit.sound_step hs hnet
  · rw [← Option.some.inj hnet]
    exact hs

theorem net_run {as : List Act} {s : State} (h : runActs step State.init as = some s) :
    Retransmit.Sound s.net :=
  runActs_keeps (P := fun s => Retransmit.Sound s.net) (fun _ _ _ hs hstep => net_step hs hstep)
    Retransmit.sound_init h

/-! ## What a step leaves alone -/

theorem callsAfter_set {s : State} {i : ℕ} {phase : Phase} {f : Call → Call} {calls : List Call}
    (h : (match s.calls[i]? with
      | some c => if c.phase = phase then some (s.calls.set i (f c)) else none
      | none => none) = some calls) :
    ∃ c, s.calls[i]? = some c ∧ c.phase = phase ∧ calls = s.calls.set i (f c) := by
  cases hc : s.calls[i]? with
  | none => simp [hc] at h
  | some c =>
    simp only [hc] at h
    split_ifs at h with hphase
    exact ⟨c, rfl, hphase, (Option.some.inj h).symm⟩

/-- The same request, at whatever point. -/
structure SameRequest (c c' : Call) : Prop where
  key : c'.key = c.key
  content : c'.content = c.content

theorem sameRequest_attemptSend (v : ClientView) (c : Call) : SameRequest c (attemptSend v c) := by
  unfold attemptSend
  split_ifs <;> exact ⟨rfl, rfl⟩

theorem sameRequest_afterSend (c : Call) (outcome : Outcome) :
    SameRequest c (afterSend c outcome) := by
  cases outcome <;> simp only [afterSend] <;> (try split_ifs) <;> exact ⟨rfl, rfl⟩

theorem sameRequest_set {calls : List Call} {i : ℕ} {c c' : Call} (hc : calls[i]? = some c)
    (h : SameRequest c c') {j : ℕ} {d : Call} (hd : calls[j]? = some d) :
    ∃ d', (calls.set i c')[j]? = some d' ∧ SameRequest d d' := by
  rw [List.getElem?_set]
  by_cases hij : i = j
  · subst hij
    rw [hc] at hd
    cases hd
    rw [if_pos rfl, if_pos (List.getElem?_eq_some_iff.mp hc).1]
    exact ⟨c', rfl, h⟩
  · rw [if_neg hij]
    exact ⟨d, hd, rfl, rfl⟩

theorem calls_step {s s' : State} {a : Act} (h : step s a = some s') {j : ℕ} {d : Call}
    (hd : s.calls[j]? = some d) : ∃ d', s'.calls[j]? = some d' ∧ SameRequest d d' := by
  have hcalls := (step_eq_some.mp h).1
  cases a with
  | call roomId content transactionId token maxRetries =>
    rw [← Option.some.inj hcalls]
    refine ⟨d, ?_, rfl, rfl⟩
    rw [List.getElem?_append_left (List.getElem?_eq_some_iff.mp hd).1, hd]
  | attempt i v =>
    obtain ⟨c, hc, -, hcalls'⟩ := callsAfter_set hcalls
    rw [hcalls']
    exact sameRequest_set hc (sameRequest_attemptSend v c) hd
  | arrive i eventId =>
    rw [← Option.some.inj hcalls]
    exact ⟨d, hd, rfl, rfl⟩
  | finish i outcome =>
    obtain ⟨c, hc, -, hcalls'⟩ := callsAfter_set hcalls
    rw [hcalls']
    exact sameRequest_set hc (sameRequest_afterSend c outcome) hd

theorem length_step {s s' : State} {a : Act} (h : step s a = some s')
    (ha : ∀ r x t k m, a ≠ .call r x t k m) : s'.calls.length = s.calls.length := by
  have hcalls := (step_eq_some.mp h).1
  cases a with
  | call r x t k m => exact absurd rfl (ha r x t k m)
  | attempt i v =>
    obtain ⟨c, -, -, hcalls'⟩ := callsAfter_set hcalls
    rw [hcalls', List.length_set]
  | arrive i eventId => rw [← Option.some.inj hcalls]
  | finish i outcome =>
    obtain ⟨c, -, -, hcalls'⟩ := callsAfter_set hcalls
    rw [hcalls', List.length_set]

theorem keys_step {s s' : State} {a : Act} (h : step s a = some s')
    (ha : ∀ r x t k m, a ≠ .call r x t k m) : s'.calls.map Call.key = s.calls.map Call.key := by
  have hlength := length_step h ha
  apply List.ext_getElem?
  intro j
  rw [List.getElem?_map, List.getElem?_map]
  cases hd : s.calls[j]? with
  | none =>
    rw [List.getElem?_eq_none_iff] at hd
    rw [List.getElem?_eq_none_iff.mpr (hlength.trans_le hd)]
  | some d =>
    obtain ⟨d', hd', hsame⟩ := calls_step h hd
    rw [hd', Option.map_some, Option.map_some, hsame.key]

theorem ledger_step {s s' : State} {a : Act} (h : step s a = some s') :
    s.net.ledger ⊆ s'.net.ledger := by
  have hnet := (step_eq_some.mp h).2
  unfold netAfter at hnet
  split at hnet
  · exact Retransmit.ledger_step hnet
  · rw [← Option.some.inj hnet]
    exact List.Subset.refl _

/-! ## How far the calls are -/

/-- A call and its client: the request is that of the call, and has been sent at most once in each
turn. -/
structure Agrees (c : Call) (d : Client (String × String) Content String) : Prop where
  key : d.key = c.key
  payload : d.payload = c.content
  turns : c.attempt ≤ c.maxRetries
  sent : d.sent ≤ c.attempt + 1
  unsent : c.phase = .ready → d.sent ≤ c.attempt
  answered : ∀ eventId, c.phase = .returned (some eventId) → d.answer = some eventId

/-- Every call has a client that it agrees with. -/
structure Lockstep (s : State) : Prop where
  length : s.calls.length = s.net.clients.length
  agrees : ∀ (i : ℕ) c d, s.calls[i]? = some c → s.net.clients[i]? = some d → Agrees c d

namespace Lockstep

variable {s s' : State} {i : ℕ} {c c' : Call} {d d' : Client (String × String) Content String}

theorem client (h : Lockstep s) (hc : s.calls[i]? = some c) :
    ∃ d, s.net.clients[i]? = some d ∧ Agrees c d := by
  have hlt : i < s.net.clients.length := by
    rw [← h.length]
    exact (List.getElem?_eq_some_iff.mp hc).1
  exact ⟨_, List.getElem?_eq_getElem hlt, h.agrees i c _ hc (List.getElem?_eq_getElem hlt)⟩

theorem set (h : Lockstep s) (hcd : Agrees c' d') (hcalls : s'.calls = s.calls.set i c')
    (hclients : s'.net.clients = s.net.clients.set i d') : Lockstep s' := by
  refine ⟨by rw [hcalls, hclients, List.length_set, List.length_set, h.length], ?_⟩
  intro j c₁ d₁ hc₁ hd₁
  rw [hcalls, List.getElem?_set] at hc₁
  rw [hclients, List.getElem?_set] at hd₁
  by_cases hij : i = j
  · rw [if_pos hij] at hc₁ hd₁
    split_ifs at hc₁ hd₁
    cases hc₁
    cases hd₁
    exact hcd
  · rw [if_neg hij] at hc₁ hd₁
    exact h.agrees j c₁ d₁ hc₁ hd₁

theorem setCall (h : Lockstep s) (hd : s.net.clients[i]? = some d) (hcd : Agrees c' d)
    (hcalls : s'.calls = s.calls.set i c') (hclients : s'.net.clients = s.net.clients) :
    Lockstep s' := by
  refine h.set hcd hcalls ?_
  rw [hclients]
  obtain ⟨hlt, rfl⟩ := List.getElem?_eq_some_iff.mp hd
  exact (List.set_getElem_self hlt).symm

end Lockstep

theorem agrees_afterSend {c : Call} {d : Client (String × String) Content String}
    (h : Agrees c d) {outcome : Outcome} (hno : ∀ eventId, outcome ≠ .event eventId) :
    Agrees (afterSend c outcome) d := by
  have hagain : Agrees (if c.attempt < c.maxRetries then
      { c with attempt := c.attempt + 1, phase := .ready } else
      { c with phase := .returned none }) d := by
    split_ifs with hlt
    · refine ⟨h.key, h.payload, hlt, ?_, fun _ => h.sent, fun _ hbad => ?_⟩
      · exact Nat.le_succ_of_le h.sent
      · cases hbad
    · refine ⟨h.key, h.payload, h.turns, h.sent, fun hbad => ?_, fun _ hbad => ?_⟩ <;> cases hbad
  cases outcome with
  | event eventId => exact absurd rfl (hno eventId)
  | raised =>
    refine ⟨h.key, h.payload, h.turns, h.sent, fun hbad => ?_, fun _ hbad => ?_⟩ <;> cases hbad
  | timeout => exact hagain
  | commError => exact hagain
  | sendError => exact hagain

/-- **One step** keeps the calls and their clients in step. -/
theorem lockstep_step {s s' : State} {a : Act} (h : Lockstep s) (hs : step s a = some s') :
    Lockstep s' := by
  obtain ⟨hcalls, hnet⟩ := step_eq_some.mp hs
  cases a with
  | call roomId content transactionId token maxRetries =>
    have hcalls' := Option.some.inj hcalls
    have hnet' := Retransmit.step_join hnet
    refine ⟨by rw [← hcalls', hnet', List.length_append, List.length_append, h.length]; rfl, ?_⟩
    intro j c d hc hd
    rw [← hcalls'] at hc
    rw [hnet'] at hd
    rcases Nat.lt_or_ge j s.calls.length with hlt | hge
    · rw [List.getElem?_append_left hlt] at hc
      rw [List.getElem?_append_left (by rwa [← h.length])] at hd
      exact h.agrees j c d hc hd
    · rw [List.getElem?_append_right hge, List.getElem?_singleton] at hc
      rw [List.getElem?_append_right (by rwa [← h.length]), List.getElem?_singleton] at hd
      split_ifs at hc hd
      cases hc
      cases hd
      refine ⟨rfl, rfl, Nat.zero_le _, Nat.zero_le _, fun _ => Nat.zero_le _, fun _ hbad => ?_⟩
      cases hbad
  | attempt i v =>
    obtain ⟨c, hc, hphase, hcalls'⟩ := callsAfter_set hcalls
    obtain ⟨d, hd, hcd⟩ := h.client hc
    by_cases hblocks : v.blocks c.roomId = true
    · simp only [netAfter, netAct, hc, if_pos hblocks] at hnet
      refine h.setCall hd ?_ hcalls' (by rw [← Option.some.inj hnet])
      unfold attemptSend
      rw [if_pos hblocks]
      refine ⟨hcd.key, hcd.payload, hcd.turns, hcd.sent, fun hbad => ?_, fun _ hbad => ?_⟩ <;>
        cases hbad
    · simp only [netAfter, netAct, hc, if_neg hblocks] at hnet
      obtain ⟨d', hd', hnet'⟩ := Retransmit.step_transmit hnet
      rw [hd] at hd'
      cases hd'
      refine h.set ?_ hcalls' (by rw [hnet'])
      unfold attemptSend
      rw [if_neg hblocks]
      refine ⟨hcd.key, hcd.payload, hcd.turns, ?_, fun hbad => ?_, fun _ hbad => ?_⟩
      · exact Nat.succ_le_succ (hcd.unsent hphase)
      · cases hbad
      · cases hbad
  | arrive i eventId =>
    have hcalls' := Option.some.inj hcalls
    have hclients : s'.net.clients = s.net.clients := by
      obtain ⟨d, -, -, ⟨-, hnet'⟩ | ⟨-, -, hnet'⟩⟩ := Retransmit.step_arrive hnet
      · rw [hnet']
      · rw [hnet']
    refine ⟨by rw [← hcalls', hclients, h.length], ?_⟩
    rw [← hcalls', hclients]
    exact h.agrees
  | finish i outcome =>
    obtain ⟨c, hc, hphase, hcalls'⟩ := callsAfter_set hcalls
    obtain ⟨d, hd, hcd⟩ := h.client hc
    by_cases hevent : ∃ eventId, outcome = .event eventId
    · obtain ⟨eventId, rfl⟩ := hevent
      obtain ⟨d', hd', -, hnet'⟩ := Retransmit.step_receive hnet
      rw [hd] at hd'
      cases hd'
      have hafter : Agrees (afterSend c (.event eventId)) { d with answer := some eventId } := by
        refine ⟨hcd.key, hcd.payload, hcd.turns, hcd.sent, fun hbad => ?_, fun x hx => ?_⟩
        · cases hbad
        · cases hx
          rfl
      exact h.set hafter hcalls' (by rw [hnet'])
    · have hno : ∀ eventId, outcome ≠ .event eventId := fun eventId heq => hevent ⟨eventId, heq⟩
      refine h.setCall hd (agrees_afterSend hcd hno) hcalls' ?_
      cases outcome with
      | event eventId => exact absurd rfl (hno eventId)
      | _ => rw [← Option.some.inj hnet]

theorem lockstep_init : Lockstep State.init := by
  refine ⟨rfl, ?_⟩
  intro i c d hc
  cases hc

/-- **Every run** keeps them in step. -/
theorem lockstep_run {as : List Act} {s : State} (h : runActs step State.init as = some s) :
    Lockstep s :=
  runActs_keeps (fun _ _ _ hs hstep => lockstep_step hs hstep) lockstep_init h

/-! ## What a call leaves in its room -/

/-- The events that the homeserver has made for a call. -/
def eventsOf (s : State) (c : Call) : List (Entry (String × String) Content String) :=
  s.net.ledger.filter fun e => decide (e.key = c.key)

theorem eventsOf_step {s s' : State} {a : Act} (h : step s a = some s') {c c' : Call}
    (hc : SameRequest c c') : eventsOf s c ⊆ eventsOf s' c' := by
  intro e he
  obtain ⟨hmem, hkey⟩ := List.mem_filter.mp he
  refine List.mem_filter.mpr ⟨ledger_step h hmem, ?_⟩
  rw [hc.key]
  exact hkey

/-- How often a call has sent its request. -/
def requestsOf (s : State) (i : ℕ) : ℕ := ((s.net.clients[i]?).map Client.sent).getD 0

/-- No other call has the room and the transaction id of this one. -/
def Alone (s : State) (i : ℕ) (c : Call) : Prop :=
  ∀ (j : ℕ) d, s.calls[j]? = some d → d.key = c.key → j = i

/-- Calls under one transaction id leave at most one event in a room, however often they are sent,
and it is that of one of them; a call that is alone leaves its own content, and nothing if its
request was never sent; what a call returns is that event. -/
structure SentOnce (s : State) (i : ℕ) (c : Call) : Prop where
  once : (eventsOf s c).length ≤ 1
  owned : ∀ e ∈ eventsOf s c, e.key = c.key ∧ ∃ (j : ℕ) (d : Call), s.calls[j]? = some d ∧
    d.key = c.key ∧ e.payload = d.content ∧ 0 < requestsOf s j
  content : Alone s i c → ∀ e ∈ eventsOf s c, e.payload = c.content
  silent : Alone s i c → requestsOf s i = 0 → eventsOf s c = []
  returned : ∀ eventId, c.phase = .returned (some eventId) →
    (eventsOf s c).map Entry.answer = [eventId]
  requests : requestsOf s i ≤ c.maxRetries + 1

theorem alone_of_nodup {s : State} (h : (s.calls.map Call.key).Nodup) {i : ℕ} {c : Call}
    (hc : s.calls[i]? = some c) : Alone s i c := by
  intro j d hd hkey
  have hlt : j < (s.calls.map Call.key).length := by
    rw [List.length_map]
    exact (List.getElem?_eq_some_iff.mp hd).1
  refine (List.getElem?_inj hlt h).mp ?_
  rw [List.getElem?_map, List.getElem?_map, hd, hc, Option.map_some, Option.map_some, hkey]

section Calls

variable {s : State} (hsound : Retransmit.Sound s.net) (hlock : Lockstep s) {i : ℕ} {c : Call}

theorem requestsOf_eq {client : Client (String × String) Content String}
    (h : s.net.clients[i]? = some client) : requestsOf s i = client.sent := by
  unfold requestsOf
  rw [h]
  rfl

include hlock

theorem exists_call {client : Client (String × String) Content String}
    (h : client ∈ s.net.clients) : ∃ (j : ℕ) (d : Call), s.calls[j]? = some d ∧ Agrees d client ∧
      requestsOf s j = client.sent := by
  obtain ⟨j, hj⟩ := List.mem_iff_getElem?.mp h
  have hlt : j < s.calls.length := by
    rw [hlock.length]
    exact (List.getElem?_eq_some_iff.mp hj).1
  have hd := List.getElem?_eq_getElem hlt
  exact ⟨j, _, hd, hlock.agrees j _ client hd hj, requestsOf_eq hj⟩

include hsound

theorem exists_call_of_event {e : Entry (String × String) Content String}
    (he : e ∈ s.net.ledger) : ∃ (j : ℕ) (d : Call), s.calls[j]? = some d ∧ d.key = e.key ∧
      e.payload = d.content ∧ 0 < requestsOf s j := by
  obtain ⟨client, hmem, hkey, hpayload, hsent⟩ := hsound.owned e he
  obtain ⟨j, d, hd, hagrees, hrequests⟩ := exists_call hlock hmem
  refine ⟨j, d, hd, hagrees.key.symm.trans hkey, hpayload.symm.trans hagrees.payload, ?_⟩
  rw [hrequests]
  exact hsent

theorem sentOnce_of (hc : s.calls[i]? = some c) : SentOnce s i c := by
  obtain ⟨client, hclient, hagrees⟩ := hlock.client hc
  have hevents : eventsOf s c = carried s.net client := by
    unfold eventsOf carried
    rw [hagrees.key]
  have howned : ∀ e ∈ eventsOf s c, e.key = c.key ∧ ∃ (j : ℕ) (d : Call),
      s.calls[j]? = some d ∧ d.key = c.key ∧ e.payload = d.content ∧ 0 < requestsOf s j := by
    intro e he
    obtain ⟨hmem, hkey⟩ := List.mem_filter.mp he
    obtain ⟨j, d, hd, hdkey, hrest⟩ := exists_call_of_event hsound hlock hmem
    exact ⟨of_decide_eq_true hkey, j, d, hd, hdkey.trans (of_decide_eq_true hkey), hrest⟩
  refine ⟨?_, howned, fun halone e he => ?_, fun halone hzero => ?_, fun eventId hphase => ?_, ?_⟩
  · rw [hevents]
    exact hsound.carried_le_one client
  · obtain ⟨-, j, d, hd, hkey, hpayload, -⟩ := howned e he
    obtain rfl := halone j d hd hkey
    obtain rfl := Option.some.inj (hd.symm.trans hc)
    exact hpayload
  · rw [List.eq_nil_iff_forall_not_mem]
    intro e he
    obtain ⟨-, j, d, hd, hkey, -, hpos⟩ := howned e he
    obtain rfl := halone j d hd hkey
    exact hpos.ne' hzero
  · obtain ⟨b, hb⟩ := hsound.carried_of_answer (List.mem_of_getElem? hclient)
      (hagrees.answered eventId hphase)
    rw [hevents, hb]
    rfl
  · rw [requestsOf_eq hclient]
    exact hagrees.sent.trans (Nat.succ_le_succ hagrees.turns)

/-- Two calls return the same event if and only if they have the same room and transaction id. -/
theorem returned_eq_iff {j : ℕ} {d : Call} {x y : String} (hc : s.calls[i]? = some c)
    (hd : s.calls[j]? = some d) (hx : c.phase = .returned (some x))
    (hy : d.phase = .returned (some y)) : x = y ↔ c.key = d.key := by
  constructor
  · rintro rfl
    obtain ⟨client, hclient, hagrees⟩ := hlock.client hc
    obtain ⟨client', hclient', hagrees'⟩ := hlock.client hd
    have hkey := hsound.key_of_answer (List.mem_of_getElem? hclient)
      (List.mem_of_getElem? hclient') (hagrees.answered x hx) (hagrees'.answered x hy)
    exact hagrees.key.symm.trans (hkey.trans hagrees'.key)
  · intro hkey
    have hxs := (sentOnce_of hsound hlock hc).returned x hx
    have hys := (sentOnce_of hsound hlock hd).returned y hy
    have hevents : eventsOf s c = eventsOf s d := by
      unfold eventsOf
      rw [hkey]
    rw [hevents, hys] at hxs
    exact (List.singleton_inj.mp hxs).symm

end Calls

/-- **Sent once.** In every state of a run, with whatever losses, delays and other calls, each call
leaves what it should, every event belongs to a call that has sent it, and two calls return the
same event if and only if they have the same room and transaction id. -/
theorem sends_once (as : List Act) (s : State) (hrun : runActs step State.init as = some s) :
    (∀ (i : ℕ) c, s.calls[i]? = some c → SentOnce s i c) ∧
    (∀ e ∈ s.net.ledger, ∃ c ∈ s.calls, e ∈ eventsOf s c ∧ e.payload = c.content) ∧
    (∀ (i j : ℕ) c d x y, s.calls[i]? = some c → s.calls[j]? = some d →
      c.phase = .returned (some x) → d.phase = .returned (some y) → (x = y ↔ c.key = d.key)) := by
  have hsound := net_run hrun
  have hlock := lockstep_run hrun
  refine ⟨fun i c hc => sentOnce_of hsound hlock hc, fun e he => ?_,
    fun i j c d x y hc hd hx hy => returned_eq_iff hsound hlock hc hd hx hy⟩
  obtain ⟨j, d, hd, hkey, hpayload, -⟩ := exists_call_of_event hsound hlock he
  exact ⟨d, List.mem_of_getElem? hd, List.mem_filter.mpr ⟨he, decide_eq_true hkey.symm⟩, hpayload⟩

/-- The first attempt times out before its request arrives. -/
def lateRun : List Act :=
  [.call "!r" [("body", .str "hi")] none "t" 3, .attempt 0 ⟨fun _ => none, false⟩, .finish 0 .timeout,
    .arrive 0 "$a", .attempt 0 ⟨fun _ => none, false⟩, .arrive 0 "$b", .finish 0 (.event "$a")]

theorem sends_once_late : ∃ s c, runActs step State.init lateRun = some s ∧
    s.calls[0]? = some c ∧ c.phase = .returned (some "$a") ∧ SentOnce s 0 c :=
  ⟨_, _, rfl, rfl, rfl, (sends_once lateRun _ rfl).1 0 _ rfl⟩

end MMRelay.Matrix.Sending
