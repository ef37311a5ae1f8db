import MMRelay.Lib.Run
import MMRelay.Lib.PyValue
import Mathlib.Data.List.Count
import Mathlib.Data.List.Nodup

/-!
# Dropped messages

`plugins/drop_plugin.py` with `store_node_data` and `set_node_data` (`plugins/base_plugin.py`): a
packet picks up the drops near its sender and may leave a drop. JSON carries the list of drops
unchanged; the distance is a parameter.

* `deliver`: the loop over the stored drops; `newDrop`: the `!drop` command;
* `handle`: `handle_meshtastic_message`, from `State` to `State`;
* `Conserved`: every drop is stored, or was accepted by the queue, exactly once, and those that are
  stored keep their order;
* **`conserved_iff`**: all states of a run are of that kind if and only if no send is refused;
* `refusedDrop_lost`: a drop whose send is refused is lost.
-/

namespace MMRelay.Plugins.Drop

/-! ## Packets and drops -/

/-- Latitude and longitude. -/
structure Location where
  latitude : Py
  longitude : Py

/-- A stored drop. `serial` numbers the drops; the code does not store it. -/
structure Message where
  serial : ℕ
  location : Location
  text : String
  originator : String

/-- The keys of a position; a node may miss them. -/
structure Position where
  latitude : Option Py
  longitude : Option Py

/-- An entry of `nodes`; without a user it has no id. -/
structure NodeInfo where
  userId : Option String
  position : Option Position

/-- The radio client: its own id and its nodes. -/
structure Client where
  myId : String
  nodes : List NodeInfo

/-- A packet, the client that is found when it is handled, and the answers of `send_message` in the
order of its calls. -/
structure Packet where
  client : Option Client
  fromId : Option String
  decoded : Option Py
  answer : ℕ → Bool

/-- The plugin's configuration and `haversine`, which may raise. A radius that is no number raises
when it is compared. -/
structure Config where
  haversine : Location → Location → Option ℚ
  radiusKm : Option ℚ

/-- `DEFAULT_DISTANCE_KM_FALLBACK`. -/
def defaultDistanceKmFallback : ℚ := 1000

/-- `DEFAULT_MAX_DATA_ROWS_PER_NODE_BASE`. -/
def maxDataRowsPerNode : ℕ := 100

/-- An accepted send: the drop, the node, and where the node was. -/
structure Delivery where
  message : Message
  node : String
  location : Location

/-- The stored drops; `ever` and `accepted` record which drops were stored and which sends the queue
accepted. -/
structure State where
  stored : List Message := []
  ever : List Message := []
  accepted : List Delivery := []

/-- `get_position`. -/
def getPosition : List NodeInfo → String → Except PyErr (Option Position)
  | [], _ => .ok none
  | info :: rest, nodeId =>
    match info.userId with
    | none => .error .keyError
    | some userId => if userId = nodeId then .ok info.position else getPosition rest nodeId

/-- The location of a position that has both keys. -/
def Position.location (position : Option Position) : Option Location :=
  match position with
  | some ⟨some latitude, some longitude⟩ => some ⟨latitude, longitude⟩
  | _ => none

/-- `distance_km`. -/
def distanceKm (cfg : Config) (a b : Location) : ℚ :=
  (cfg.haversine a b).getD defaultDistanceKmFallback

/-- The node is near enough to pick up the drop. -/
def within (cfg : Config) (radius : ℚ) (location : Location) (message : Message) : Bool :=
  decide (distanceKm cfg location message.location ≤ radius)

/-! ## Picking up -/

/-- The loop over the stored drops, with the number of sends before: the drops that stay and the
sends that are accepted. -/
def deliver (cfg : Config) (answer : ℕ → Bool) (fromId : String) (location : Location) :
    List Message → ℕ → Except PyErr (List Message × List Delivery)
  | [], _ => .ok ([], [])
  | message :: rest, sends =>
    if message.originator = fromId then do
      let (unsent, accepted) ← deliver cfg answer fromId location rest sends
      pure (message :: unsent, accepted)
    else
      match cfg.radiusKm with
      | none => .error .typeError
      | some radius =>
        if within cfg radius location message then do
          let (unsent, accepted) ← deliver cfg answer fromId location rest (sends + 1)
          pure (unsent,
            if answer sends then ⟨message, fromId, location⟩ :: accepted else accepted)
        else do
          let (unsent, accepted) ← deliver cfg answer fromId location rest sends
          pure (message :: unsent, accepted)

/-- `data[-max_data_rows_per_node:]`. -/
def trim (data : List Message) : List Message := data.drop (data.length - maxDataRowsPerNode)

/-- Where the sender of the packet is, unless it is the relay or its position is not known. -/
def senderLocation (client : Client) (packet : Packet) :
    Except PyErr (Option (String × Location)) :=
  match packet.fromId with
  | none => .ok none
  | some fromId =>
    if fromId = client.myId then .ok none
    else do
      let position ← getPosition client.nodes fromId
      pure ((Position.location position).map fun location => (fromId, location))

/-- The packet picks up drops. -/
def pickUp (cfg : Config) (client : Client) (packet : Packet) (s : State) : Except PyErr State := do
  match ← senderLocation client packet with
  | none => pure s
  | some (fromId, location) =>
    let (unsent, accepted) ← deliver cfg packet.answer fromId location s.stored 0
    pure { s with stored := trim unsent, accepted := s.accepted ++ accepted }

/-! ## Dropping -/

/-- What follows `!drop` in the text, up to the end: the arguments. -/
def dropArgs (rest : List Char) : Option String :=
  match rest with
  | [] => some ""
  | c :: _ =>
    if isSpace c then
      let args := rest.dropWhile isSpace
      let line := args.takeWhile (· ≠ '\n')
      -- the expression ends at the end of the text, or before a final newline
      if args.length ≤ line.length + 1 then some (strip (String.ofList line)) else none
    else none

/-- `parse_mesh_bang_command(text, ("drop",), allow_anywhere=True)`: the arguments of the first
command, which stands at the start or after white space. -/
def parseDrop : (atStart : Bool) → List Char → Option String
  | _, [] => none
  | atStart, c :: rest =>
    let here :=
      if atStart && c == '!' && (rest.take 4).map Char.toLower == "drop".toList then
        dropArgs (rest.drop 4)
      else none
    match here with
    | some args => some args
    | none => parseDrop (isSpace c) rest

/-- The text of a text message. -/
def messageText (decoded : Py) : Except PyErr (Option Py) := do
  if ← decoded.contains "portnum" then
    if (← decoded.getItem "portnum").eqStr "TEXT_MESSAGE_APP" then
      pure (some ((← decoded.get "text" .none).orElse (.str "")))
    else pure none
  else pure none

/-- The arguments of a drop command in the packet. -/
def dropMessage (packet : Packet) : Except PyErr (Option String) := do
  match packet.decoded with
  | none => pure none
  | some decoded =>
    match ← messageText decoded with
    | some (.str text) => pure ((parseDrop true text.toList).filter fun args => !args.isEmpty)
    | _ => pure none

/-- The drop that the packet leaves. -/
def newDrop (client : Client) (packet : Packet) (serial : ℕ) : Except PyErr (Option Message) := do
  match ← dropMessage packet, packet.fromId with
  | some text, some fromId =>
    if fromId.isEmpty then pure none
    else
      let position ← getPosition client.nodes fromId
      pure ((Position.location position).map fun location => ⟨serial, location, text, fromId⟩)
  | _, _ => pure none

/-- `store_node_data`. -/
def State.store (s : State) (message : Message) : State :=
  { s with stored := trim (s.stored ++ [message]), ever := s.ever ++ [message] }

/-- `handle_meshtastic_message`; an exception leaves what was stored before. -/
def handle (cfg : Config) (s : State) (packet : Packet) : State :=
  match packet.client with
  | none => s
  | some client =>
    match pickUp cfg client packet s with
    | .error _ => s
    | .ok s' =>
      match newDrop client packet s.ever.length with
      | .ok (some message) => s'.store message
      | _ => s'

def step (cfg : Config) (s : State) (packet : Packet) : Option State := some (handle cfg s packet)

/-! ## What the loop delivers -/

variable {cfg : Config} {s s' : State} {packet : Packet}

/-- The node picks up the drop: it is not its own and near enough. -/
def isDue (cfg : Config) (fromId : String) (location : Location) (message : Message) : Bool :=
  !decide (message.originator = fromId) &&
    (cfg.radiusKm.any fun radius => within cfg radius location message)

/-- The sends that are accepted, `answer` read from the number `n` on. -/
def acceptedFrom (answer : ℕ → Bool) (fromId : String) (location : Location) :
    List Message → ℕ → List Delivery
  | [], _ => []
  | message :: rest, n =>
    if answer n then ⟨message, fromId, location⟩ :: acceptedFrom answer fromId location rest (n + 1)
    else acceptedFrom answer fromId location rest (n + 1)

/-- The drops that are due are sent in their order, the others stay. -/
theorem deliver_eq_ok {answer : ℕ → Bool} {fromId : String} {location : Location}
    {messages unsent : List Message} {n : ℕ} {accepted : List Delivery}
    (h : deliver cfg answer fromId location messages n = .ok (unsent, accepted)) :
    unsent = messages.filter (fun m => !isDue cfg fromId location m) ∧
      accepted = acceptedFrom answer fromId location
        (messages.filter (isDue cfg fromId location)) n := by
  induction messages generalizing n unsent accepted with
  | nil =>
    cases h
    exact ⟨rfl, rfl⟩
  | cons message rest ih =>
    unfold deliver at h
    split at h
    · next hown =>
      obtain ⟨⟨unsent', accepted'⟩, hrest, h⟩ := except_bind_eq_ok.mp h
      cases h
      obtain ⟨rfl, rfl⟩ := ih hrest
      have hdue : isDue cfg fromId location message = false := by
        simp [isDue, hown]
      simp [hdue]
    · next hother =>
      split at h
      · cases h
      · next radius hradius =>
        split at h
        · next hwithin =>
          obtain ⟨⟨unsent', accepted'⟩, hrest, h⟩ := except_bind_eq_ok.mp h
          cases h
          obtain ⟨rfl, rfl⟩ := ih hrest
          have hdue : isDue cfg fromId location message = true := by
            simp [isDue, hother, hradius, hwithin]
          simp [hdue, acceptedFrom]
        · next hwithin =>
          obtain ⟨⟨unsent', accepted'⟩, hrest, h⟩ := except_bind_eq_ok.mp h
          cases h
          obtain ⟨rfl, rfl⟩ := ih hrest
          have hdue : isDue cfg fromId location message = false := by
            simp [isDue, hradius, hwithin]
          simp [hdue]

section AcceptedFrom

variable {answer : ℕ → Bool} {fromId : String} {location : Location}

theorem acceptedFrom_sublist (due : List Message) (n : ℕ) :
    ((acceptedFrom answer fromId location due n).map Delivery.message).Sublist due := by
  induction due generalizing n with
  | nil => exact List.Sublist.refl _
  | cons message rest ih =>
    unfold acceptedFrom
    split_ifs
    · exact (ih (n + 1)).cons_cons message
    · exact (ih (n + 1)).cons message

theorem mem_acceptedFrom {due : List Message} {n : ℕ} {x : Delivery}
    (h : x ∈ acceptedFrom answer fromId location due n) :
    x.message ∈ due ∧ x.node = fromId ∧ x.location = location := by
  induction due generalizing n with
  | nil => cases h
  | cons message rest ih =>
    have hrest : x ∈ acceptedFrom answer fromId location rest (n + 1) →
        x.message ∈ message :: rest ∧ x.node = fromId ∧ x.location = location := fun hx =>
      ⟨List.mem_cons_of_mem _ (ih hx).1, (ih hx).2⟩
    unfold acceptedFrom at h
    split_ifs at h
    · rcases List.mem_cons.mp h with rfl | h
      · exact ⟨List.mem_cons_self, rfl, rfl⟩
      · exact hrest h
    · exact hrest h

theorem length_acceptedFrom_le (due : List Message) (n : ℕ) :
    (acceptedFrom answer fromId location due n).length ≤ due.length := by
  rw [← List.length_map Delivery.message]
  exact (acceptedFrom_sublist due n).length_le

/-- As many are accepted as are sent if and only if every answer is yes. -/
theorem length_acceptedFrom_iff (due : List Message) (n : ℕ) :
    (acceptedFrom answer fromId location due n).length = due.length ↔
      ∀ i < due.length, answer (n + i) = true := by
  induction due generalizing n with
  | nil => simp [acceptedFrom]
  | cons message rest ih =>
    unfold acceptedFrom
    cases hanswer : answer n with
    | false =>
      have hrest : (acceptedFrom answer fromId location rest (n + 1)).length ≤ rest.length :=
        length_acceptedFrom_le rest (n + 1)
      simp only [Bool.false_eq_true, if_false, List.length_cons]
      constructor
      · intro hlen
        omega
      · intro hall
        have hzero := hall 0 (Nat.succ_pos _)
        rw [Nat.add_zero, hanswer] at hzero
        cases hzero
    | true =>
      simp only [if_true, List.length_cons, Nat.add_right_cancel_iff]
      refine (ih (n + 1)).trans ⟨fun hall i hi => ?_, fun hall i hi => ?_⟩
      · cases i with
        | zero => exact hanswer
        | succ i =>
          rw [show n + (i + 1) = n + 1 + i by omega]
          exact hall i (by omega)
      · rw [show n + 1 + i = n + (i + 1) by omega]
        exact hall (i + 1) (by omega)

end AcceptedFrom

/-! ## Conservation -/

/-- The drops that are sent while the packet is handled. -/
def due (cfg : Config) (s : State) (packet : Packet) : List Message :=
  match packet.client with
  | none => []
  | some client =>
    match senderLocation client packet with
    | .ok (some (fromId, location)) =>
      match deliver cfg packet.answer fromId location s.stored 0 with
      | .ok _ => s.stored.filter (isDue cfg fromId location)
      | .error _ => []
    | _ => []

/-- No send is refused. -/
def NoRefusal (cfg : Config) (s : State) (packet : Packet) : Prop :=
  ∀ i < (due cfg s packet).length, packet.answer i = true

/-- There is room for a new drop: at most `max_data_rows_per_node` drops are pending. -/
def Room (cfg : Config) (s : State) (packet : Packet) : Prop :=
  ∀ client s' message, packet.client = some client → pickUp cfg client packet s = .ok s' →
    newDrop client packet s.ever.length = .ok (some message) →
    s'.stored.length < maxDataRowsPerNode

/-- How often the drop is stored and was accepted. -/
def State.copies (s : State) (serial : ℕ) : ℕ :=
  (s.stored.map Message.serial).count serial +
    (s.accepted.map fun x => x.message.serial).count serial

/-- Every drop is stored or was accepted, exactly once; what was accepted went to another node
within the radius; and the drops that are stored keep their order. -/
structure Conserved (cfg : Config) (s : State) : Prop where
  once : ∀ message ∈ s.ever, s.copies message.serial = 1
  addressed : ∀ x ∈ s.accepted, x.message ∈ s.ever ∧ x.node ≠ x.message.originator ∧
    ∃ radius, cfg.radiusKm = some radius ∧ within cfg radius x.location x.message = true
  ordered : s.stored.Sublist s.ever

/-! ## Steps -/

/-- What holds in every reachable state: serials are the positions in `ever`. -/
structure Inv (cfg : Config) (s : State) : Prop where
  serials : s.ever.map Message.serial = List.range s.ever.length
  addressed : ∀ x ∈ s.accepted, x.message ∈ s.ever ∧ x.node ≠ x.message.originator ∧
    ∃ radius, cfg.radiusKm = some radius ∧ within cfg radius x.location x.message = true
  ordered : s.stored.Sublist s.ever
  bounded : s.stored.length ≤ maxDataRowsPerNode

theorem trim_of_length_le {data : List Message} (h : data.length ≤ maxDataRowsPerNode) :
    trim data = data := by
  rw [trim, Nat.sub_eq_zero_of_le h, List.drop_zero]

theorem trim_sublist (data : List Message) : (trim data).Sublist data := List.drop_sublist _ _

theorem length_trim_le (data : List Message) : (trim data).length ≤ maxDataRowsPerNode := by
  rw [trim, List.length_drop]
  omega

/-- The state after the drops near the node were picked up. -/
def State.picked (cfg : Config) (s : State) (answer : ℕ → Bool) (fromId : String)
    (location : Location) : State :=
  { s with
    stored := trim (s.stored.filter fun m => !isDue cfg fromId location m)
    accepted := s.accepted ++
      acceptedFrom answer fromId location (s.stored.filter (isDue cfg fromId location)) 0 }

theorem pickUp_cases (cfg : Config) (s : State) {client : Client}
    (hclient : packet.client = some client) :
    match pickUp cfg client packet s with
    | .error _ => due cfg s packet = []
    | .ok s' => (s' = s ∧ due cfg s packet = []) ∨ ∃ fromId location,
        s' = s.picked cfg packet.answer fromId location ∧
          due cfg s packet = s.stored.filter (isDue cfg fromId location) := by
  unfold pickUp due
  rw [hclient]
  simp only
  cases senderLocation client packet with
  | error err => rfl
  | ok sender =>
    cases sender with
    | none => exact Or.inl ⟨rfl, rfl⟩
    | some sender =>
      obtain ⟨fromId, location⟩ := sender
      simp only [bind, Except.bind]
      cases hdeliver : deliver cfg packet.answer fromId location s.stored 0 with
      | error err => rfl
      | ok result =>
        obtain ⟨unsent, accepted⟩ := result
        obtain ⟨rfl, rfl⟩ := deliver_eq_ok hdeliver
        exact Or.inr ⟨fromId, location, rfl, rfl⟩

theorem isDue_eq_true {fromId : String} {location : Location} {message : Message} :
    isDue cfg fromId location message = true ↔ message.originator ≠ fromId ∧
      ∃ radius, cfg.radiusKm = some radius ∧ within cfg radius location message = true := by
  simp [isDue, Option.any_eq_true]

theorem inv_picked (h : Inv cfg s) (answer : ℕ → Bool) (fromId : String) (location : Location) :
    Inv cfg (s.picked cfg answer fromId location) := by
  refine ⟨h.serials, ?_, ?_, length_trim_le _⟩
  · intro x hx
    rcases List.mem_append.mp hx with hx | hx
    · exact h.addressed x hx
    · obtain ⟨hmem, hnode, hlocation⟩ := mem_acceptedFrom hx
      obtain ⟨hstored, hdue⟩ := List.mem_filter.mp hmem
      obtain ⟨hother, hwithin⟩ := isDue_eq_true.mp hdue
      rw [hnode, hlocation]
      exact ⟨h.ordered.subset hstored, Ne.symm hother, hwithin⟩
  · exact ((trim_sublist _).trans List.filter_sublist).trans h.ordered

theorem inv_store (h : Inv cfg s) {message : Message} (hserial : message.serial = s.ever.length) :
    Inv cfg (s.store message) := by
  refine ⟨?_, ?_, ?_, length_trim_le _⟩
  · show (s.ever ++ [message]).map Message.serial = List.range (s.ever ++ [message]).length
    rw [List.map_append, h.serials, List.length_append, List.length_singleton, List.range_succ,
      List.map_singleton, hserial]
  · intro x hx
    obtain ⟨hmem, hrest⟩ := h.addressed x hx
    exact ⟨List.mem_append_left _ hmem, hrest⟩
  · exact (trim_sublist _).trans (h.ordered.append (List.Sublist.refl _))

theorem newDrop_serial {client : Client} {serial : ℕ} {message : Message}
    (h : newDrop client packet serial = .ok (some message)) : message.serial = serial := by
  unfold newDrop at h
  obtain ⟨text, -, h⟩ := except_bind_eq_ok.mp h
  split at h
  · split_ifs at h
    · cases h
    · obtain ⟨position, -, h⟩ := except_bind_eq_ok.mp h
      obtain ⟨location, -, rfl⟩ := Option.map_eq_some_iff.mp (Except.ok.inj h)
      rfl
  · cases h

theorem inv_handle (h : Inv cfg s) (packet : Packet) : Inv cfg (handle cfg s packet) := by
  unfold handle
  split
  · exact h
  · next client hclient =>
    have hcases := pickUp_cases cfg s hclient
    split
    · exact h
    · next s' hpick =>
      rw [hpick] at hcases
      have hpicked : Inv cfg s' ∧ s'.ever = s.ever := by
        rcases hcases with ⟨rfl, -⟩ | ⟨fromId, location, rfl, -⟩
        · exact ⟨h, rfl⟩
        · exact ⟨inv_picked h packet.answer fromId location, rfl⟩
      split
      · next message hnew =>
        refine inv_store hpicked.1 ?_
        rw [hpicked.2]
        exact newDrop_serial hnew
      · exact hpicked.1

/-! ## Copies -/

theorem count_map_filter_add (p : Message → Bool) (l : List Message) (k : ℕ) :
    ((l.filter p).map Message.serial).count k +
      ((l.filter fun m => !p m).map Message.serial).count k = (l.map Message.serial).count k := by
  induction l with
  | nil => rfl
  | cons m l ih =>
    rw [List.map_cons, List.count_cons]
    cases hp : p m with
    | true =>
      simp only [List.filter_cons, hp, if_true, Bool.not_true, Bool.false_eq_true, if_false,
        List.map_cons, List.count_cons]
      omega
    | false =>
      simp only [List.filter_cons, hp, if_true, Bool.not_false, Bool.false_eq_true, if_false,
        List.map_cons, List.count_cons]
      omega

theorem copies_picked (h : Inv cfg s) (answer : ℕ → Bool) (fromId : String) (location : Location)
    (k : ℕ) :
    (s.picked cfg answer fromId location).copies k +
        ((s.stored.filter (isDue cfg fromId location)).map Message.serial).count k =
      s.copies k + ((acceptedFrom answer fromId location
        (s.stored.filter (isDue cfg fromId location)) 0).map fun x => x.message.serial).count k := by
  have hlen : (s.stored.filter fun m => !isDue cfg fromId location m).length ≤
      maxDataRowsPerNode := Nat.le_trans (List.length_filter_le _ _) h.bounded
  have hsplit := count_map_filter_add (isDue cfg fromId location) s.stored k
  unfold State.copies State.picked
  simp only [trim_of_length_le hlen, List.map_append, List.count_append]
  omega

/-- After a pick-up there is one copy of every drop if and only if all sends were accepted. -/
theorem conserved_picked (h : Inv cfg s) (hs : Conserved cfg s) (answer : ℕ → Bool)
    (fromId : String) (location : Location) :
    (∀ message ∈ s.ever, (s.picked cfg answer fromId location).copies message.serial = 1) ↔
      ∀ i < (s.stored.filter (isDue cfg fromId location)).length, answer i = true := by
  have hcopies := copies_picked h answer fromId location
  have hsub : ((acceptedFrom answer fromId location
      (s.stored.filter (isDue cfg fromId location)) 0).map Delivery.message).Sublist
        (s.stored.filter (isDue cfg fromId location)) := acceptedFrom_sublist _ 0
  have hlen : (acceptedFrom answer fromId location
      (s.stored.filter (isDue cfg fromId location)) 0).length =
        (s.stored.filter (isDue cfg fromId location)).length ↔ _ := length_acceptedFrom_iff _ 0
  have hstored : s.stored.filter (isDue cfg fromId location) ⊆ s.ever := fun m hm =>
    h.ordered.subset (List.mem_of_mem_filter hm)
  generalize acceptedFrom answer fromId location
    (s.stored.filter (isDue cfg fromId location)) 0 = accepted at hcopies hsub hlen
  generalize s.stored.filter (isDue cfg fromId location) = due at hcopies hsub hlen hstored ⊢
  simp only [Nat.zero_add] at hlen
  rw [← hlen]
  have hserials : (accepted.map fun x => x.message.serial) =
      (accepted.map Delivery.message).map Message.serial := by
    rw [List.map_map]
    rfl
  rw [hserials] at hcopies
  constructor
  · intro hone
    have hcount : ∀ k, ((accepted.map Delivery.message).map Message.serial).count k =
        (due.map Message.serial).count k := by
      intro k
      by_cases hk : k ∈ due.map Message.serial
      · obtain ⟨message, hmem, rfl⟩ := List.mem_map.mp hk
        have hold := hs.once message (hstored hmem)
        have hnew := hone message (hstored hmem)
        have hboth := hcopies message.serial
        omega
      · rw [List.count_eq_zero_of_not_mem hk]
        exact List.count_eq_zero_of_not_mem fun hk' => hk ((hsub.map _).subset hk')
    have hperm := (List.perm_iff_count.mpr hcount).length_eq
    simpa only [List.length_map] using hperm
  · intro heq message hmem
    have hall : accepted.map Delivery.message = due :=
      hsub.eq_of_length (by rw [List.length_map, heq])
    have hold := hs.once message hmem
    have hboth := hcopies message.serial
    rw [hall] at hboth
    omega

theorem conserved_store (h : Inv cfg s) {message : Message}
    (hserial : message.serial = s.ever.length) (hroom : s.stored.length < maxDataRowsPerNode) :
    (∀ m ∈ (s.store message).ever, (s.store message).copies m.serial = 1) ↔
      ∀ m ∈ s.ever, s.copies m.serial = 1 := by
  have hlen : (s.stored ++ [message]).length ≤ maxDataRowsPerNode := by
    rw [List.length_append, List.length_singleton]
    omega
  have hcopies : ∀ k, (s.store message).copies k =
      s.copies k + if message.serial = k then 1 else 0 := by
    intro k
    unfold State.copies State.store
    simp only [trim_of_length_le hlen, List.map_append, List.map_singleton, List.count_append,
      List.count_singleton, beq_iff_eq]
    omega
  have hlt : ∀ m ∈ s.ever, m.serial < s.ever.length := by
    intro m hm
    have hmem := List.mem_map_of_mem (f := Message.serial) hm
    rw [h.serials] at hmem
    exact List.mem_range.mp hmem
  have hfresh : s.copies message.serial = 0 := by
    rw [State.copies, hserial, List.count_eq_zero_of_not_mem, List.count_eq_zero_of_not_mem]
    · rintro hmem
      obtain ⟨x, hx, heq⟩ := List.mem_map.mp hmem
      have hx' := hlt _ (h.addressed x hx).1
      omega
    · rintro hmem
      obtain ⟨m, hm, heq⟩ := List.mem_map.mp hmem
      have hm' := hlt m (h.ordered.subset hm)
      omega
  constructor
  · intro hall m hm
    have hm' := hall m (List.mem_append_left _ hm)
    have hne : message.serial ≠ m.serial := by
      have := hlt m hm
      omega
    rwa [hcopies, if_neg hne, Nat.add_zero] at hm'
  · intro hall m hm
    rw [hcopies]
    rcases List.mem_append.mp hm with hm | hm
    · have hne : message.serial ≠ m.serial := by
        have := hlt m hm
        omega
      rw [if_neg hne, Nat.add_zero]
      exact hall m hm
    · rw [List.mem_singleton.mp hm, if_pos rfl, hfresh]

/-- From a state in which every drop is conserved, a packet with room conserves every drop if and
only if no send is refused. -/
theorem conserved_handle (h : Inv cfg s) (hs : Conserved cfg s) (hroom : Room cfg s packet) :
    Conserved cfg (handle cfg s packet) ↔ NoRefusal cfg s packet := by
  have hinv := inv_handle h packet
  have honce : Conserved cfg (handle cfg s packet) ↔
      ∀ m ∈ (handle cfg s packet).ever, (handle cfg s packet).copies m.serial = 1 :=
    ⟨fun hc => hc.once, fun hc => ⟨hc, hinv.addressed, hinv.ordered⟩⟩
  have hnone : due cfg s packet = [] → (NoRefusal cfg s packet ↔ True) := by
    intro hdue
    rw [NoRefusal, hdue]
    simp
  rw [honce]
  unfold handle
  split
  · next hclient =>
    rw [hnone (by rw [due, hclient]), iff_true]
    exact hs.once
  · next client hclient =>
    have hcases := pickUp_cases cfg s hclient
    split
    · next hpick =>
      rw [hpick] at hcases
      rw [hnone hcases, iff_true]
      exact hs.once
    · next s' hpick =>
      rw [hpick] at hcases
      have hpicked : Inv cfg s' ∧ s'.ever = s.ever ∧
          ((∀ m ∈ s'.ever, s'.copies m.serial = 1) ↔ NoRefusal cfg s packet) := by
        rcases hcases with ⟨rfl, hdue⟩ | ⟨fromId, location, rfl, hdue⟩
        · rw [hnone hdue, iff_true]
          exact ⟨h, rfl, hs.once⟩
        · rw [NoRefusal, hdue]
          exact ⟨inv_picked h packet.answer fromId location, rfl,
            conserved_picked h hs packet.answer fromId location⟩
      split
      · next message hnew =>
        have hserial : message.serial = s'.ever.length := by
          rw [hpicked.2.1]
          exact newDrop_serial hnew
        rw [conserved_store hpicked.1 hserial (hroom client s' message hclient hpick hnew)]
        exact hpicked.2.2
      · exact hpicked.2.2

/-- A packet adds at most one drop. -/
theorem length_handle_le (cfg : Config) (s : State) (packet : Packet) :
    (handle cfg s packet).stored.length ≤ s.stored.length + 1 := by
  have hstore : ∀ (s' : State) message, (s'.store message).stored.length ≤ s'.stored.length + 1 := by
    intro s' message
    have hle := (trim_sublist (s'.stored ++ [message])).length_le
    rwa [List.length_append, List.length_singleton] at hle
  unfold handle
  split
  · exact Nat.le_succ _
  · next client hclient =>
    have hcases := pickUp_cases cfg s hclient
    split
    · exact Nat.le_succ _
    · next s' hpick =>
      rw [hpick] at hcases
      have hle : s'.stored.length ≤ s.stored.length := by
        rcases hcases with ⟨rfl, -⟩ | ⟨fromId, location, rfl, -⟩
        · exact Nat.le_refl _
        · exact ((trim_sublist _).trans List.filter_sublist).length_le
      split
      · next message _ =>
        have := hstore s' message
        omega
      · omega

/-- A run of no more packets than there are rows has room. -/
theorem room_of_short (cfg : Config) {packets : List Packet}
    (h : s.stored.length + packets.length ≤ maxDataRowsPerNode) :
    AllSteps (step cfg) (Room cfg) s packets := by
  induction packets generalizing s with
  | nil => trivial
  | cons packet packets ih =>
    rw [List.length_cons] at h
    intro s' hs'
    cases hs'
    refine ⟨fun client s' message hclient hpick _ => ?_, ih ?_⟩
    · have hcases := pickUp_cases cfg s hclient
      rw [hpick] at hcases
      rcases hcases with ⟨rfl, -⟩ | ⟨fromId, location, rfl, -⟩
      · omega
      · have hle := ((trim_sublist (s.stored.filter fun m => !isDue cfg fromId location m)).trans
          List.filter_sublist).length_le
        change (trim _).length < _
        omega
    · have := length_handle_le cfg s packet
      omega

theorem inv_init : Inv cfg {} where
  serials := rfl
  addressed _ h := by cases h
  ordered := List.Sublist.refl _
  bounded := Nat.zero_le _

theorem conserved_init : Conserved cfg {} where
  once _ h := by cases h
  addressed _ h := by cases h
  ordered := List.Sublist.refl _

/-- **Dropped messages.** In a run that never has more drops than there are rows, every state
conserves every drop if and only if the queue refuses no send. -/
theorem conserved_iff (cfg : Config) (packets : List Packet)
    (hroom : AllSteps (step cfg) (Room cfg) {} packets) :
    Visited (step cfg) (Conserved cfg) {} packets ↔
      AllSteps (step cfg) (NoRefusal cfg) {} packets := by
  refine visited_iff_allSteps_of_guarded (J := Inv cfg) ?_ ?_ inv_init conserved_init hroom
  · intro s packet s' h hstep
    cases hstep
    exact inv_handle h packet
  · intro s packet s' h hs hroom hstep
    cases hstep
    exact conserved_handle h hs hroom

/-! ## A drop that is lost -/

/-- Two nodes at one place. -/
def placeClient : Client where
  myId := "!r"
  nodes := [⟨some "!a", some ⟨some (.int 0), some (.int 0)⟩⟩,
    ⟨some "!b", some ⟨some (.int 0), some (.int 0)⟩⟩]

/-- The distance of a place to itself, and the default radius. -/
def placeConfig : Config where
  haversine _ _ := some 0
  radiusKm := some 5

/-- The first node drops a message. -/
def dropPacket : Packet where
  client := some placeClient
  fromId := some "!a"
  decoded := some (.dict [("portnum", .str "TEXT_MESSAGE_APP"), ("text", .str "!drop hi")])
  answer _ := true

/-- A packet of the second node, with the answers of the queue. -/
def passingPacket (accepts : Bool) : Packet where
  client := some placeClient
  fromId := some "!b"
  decoded := none
  answer _ := accepts

theorem conserved_iff_two :
    Visited (step placeConfig) (Conserved placeConfig) {} [dropPacket, passingPacket true] ↔
      AllSteps (step placeConfig) (NoRefusal placeConfig) {} [dropPacket, passingPacket true] :=
  conserved_iff placeConfig [dropPacket, passingPacket true]
    (room_of_short placeConfig (by decide))

/-- The state after the queue refused the send. -/
def refusedState : State :=
  handle placeConfig (handle placeConfig {} dropPacket) (passingPacket false)

/-- A drop whose send is refused is neither stored nor accepted. -/
theorem refusedDrop_lost :
    AllSteps (step placeConfig) (Room placeConfig) {} [dropPacket, passingPacket false] ∧
    runActs (step placeConfig) {} [dropPacket, passingPacket false] = some refusedState ∧
    refusedState.ever.map Message.text = ["hi"] ∧ refusedState.copies 0 = 0 ∧
    ¬ Conserved placeConfig refusedState := by
  have hcopies : refusedState.copies 0 = 0 := by decide +kernel
  refine ⟨room_of_short placeConfig (by decide), rfl, by decide +kernel, hcopies, fun h => ?_⟩
  have hserials : refusedState.ever.map Message.serial = [0] := by decide +kernel
  have hmem : 0 ∈ refusedState.ever.map Message.serial := by
    rw [hserials]
    exact List.mem_singleton_self 0
  obtain ⟨message, hmessage, hserial⟩ := List.mem_map.mp hmem
  have hone := h.once message hmessage
  rw [hserial, hcopies] at hone
  cases hone

end MMRelay.Plugins.Drop
