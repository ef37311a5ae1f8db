import MMRelay.Lib.Dict
import MMRelay.Lib.PyValue
import MMRelay.Lib.Run
import Mathlib.Data.List.Forall2
import Mathlib.Logic.Relation

/-!
# Which rooms the bot joins

The configured rooms while their aliases are resolved: `_iter_room_alias_entries`,
`_resolve_aliases_in_mapping`, `_update_room_id_in_mapping`, `_is_room_mapped`
(`matrix/room_mapping.py`), `join_matrix_room` (`matrix/sync_bootstrap.py`) and `on_invite`
(`matrix/events.py`). A caller of `join_matrix_room` reads a room id from the mapping at one time and
joins at another.

* `entryId`, `setEntryId`, `resolveAliasesInMapping`, `updateRoomIdInMapping`, `isRoomMapped`;
* `State`, `Act`, `step`: resolutions, joins and invites in any order;
* `Leads`: what the server's answers make of an alias;
* **`rooms_sound`**: an entry changes in nothing but its alias, and every room that is asked for was
  configured, is what a configured alias leads to, or the bot was invited to it under such a name;
* **`settled_run`**: an entry that has a room id keeps it.
-/

namespace MMRelay.Matrix.Rooms

/-! ## The mapping -/

/-- `_is_room_alias`. -/
def isRoomAlias : Py → Bool
  | .str s => s.toList.head? == some '#'
  | _ => false

/-- The id of an entry, or the entry itself. -/
def entryId : Py → Py
  | .dict kvs => (kvs.lookup "id").getD (.str "")
  | entry => entry

/-- The setter of an entry. -/
def setEntryId (newId : String) : Py → Py
  | .dict kvs => .dict (dictSet kvs "id" (.str newId))
  | _ => .str newId

/-- The entries of a mapping, in the order of `_iter_room_alias_entries`. -/
def entries : Py → List Py
  | .list xs => xs
  | .dict kvs => kvs.map Prod.snd
  | _ => []

/-- The mapping with its entries set. -/
def withEntries : Py → List Py → Py
  | .list _, es => .list es
  | .dict kvs, es => .dict ((kvs.map Prod.fst).zip es)
  | mapping, _ => mapping

/-- The body of the loop of `_resolve_aliases_in_mapping`. -/
def resolveEntry (resolver : String → Option String) (entry : Py) : Py :=
  match entryId entry with
  | .str name =>
    if isRoomAlias (.str name) then
      match resolver name with
      | some id => if id = "" then entry else setEntryId id entry
      | none => entry
    else entry
  | _ => entry

/-- `_resolve_aliases_in_mapping`; the server is asked again for every entry. -/
def resolveAliasesInMapping (resolver : ℕ → String → Option String) (mapping : Py) : Py :=
  withEntries mapping ((entries mapping).mapIdx fun i entry => resolveEntry (resolver i) entry)

/-- The loop of `_update_room_id_in_mapping`. -/
def updateEntries (name resolvedId : String) : List Py → List Py × Bool
  | [] => ([], false)
  | entry :: rest =>
    if (entryId entry).eqStr name then (setEntryId resolvedId entry :: rest, true)
    else (entry :: (updateEntries name resolvedId rest).1, (updateEntries name resolvedId rest).2)

/-- `_update_room_id_in_mapping`. -/
def updateRoomIdInMapping (mapping : Py) (name resolvedId : String) : Py × Bool :=
  let r := updateEntries name resolvedId (entries mapping)
  (withEntries mapping r.1, r.2)

/-- `_is_room_mapped`. -/
def isRoomMapped (mapping : Py) (roomIdOrAlias : String) : Bool :=
  (entries mapping).any fun entry => (entryId entry).eqStr roomIdOrAlias

/-! ## Joining -/

/-- An invitation; the room's aliases are what its state says. -/
structure Invite where
  stateKey : String
  membership : String
  roomId : String
  canonicalAlias : Option String
  aliases : List String
  deriving DecidableEq

/-- `candidates` of `on_invite`. -/
def Invite.candidates (e : Invite) : List String :=
  e.roomId :: ((e.canonicalAlias.filter (· ≠ "")).toList ++ e.aliases)

/-- `client.join` was called, for a room of the mapping or for an invitation. -/
inductive Join
  | asked (roomId : String)
  | invited (e : Invite)
  deriving DecidableEq

/-- The mapping, the bot, the callers of `join_matrix_room` that have read an id from the mapping,
what the server has answered to aliases, and the rooms that were to be joined. -/
structure State where
  mapping : Py
  botUserId : String
  pending : List Py := []
  answered : List (String × String) := []
  joins : List Join := []

inductive Act
  /-- `_post_sync_setup` resolves the aliases. -/
  | resolve (resolver : ℕ → String → Option String)
  | take (i : ℕ)
  /-- `join_matrix_room`; `rooms` are the rooms that the bot is in, and `answer` is the room id that
  the server gives for an alias. -/
  | join (k : ℕ) (answer : Option String) (rooms : String → Bool)
  /-- `on_invite`. -/
  | invite (e : Invite) (rooms : String → Bool)

/-- The answers of the server that `_resolve_aliases_in_mapping` uses. -/
def answersOf (resolver : ℕ → String → Option String) (mapping : Py) : List (String × String) :=
  ((entries mapping).mapIdx fun i entry =>
    match entryId entry with
    | .str name =>
      if isRoomAlias (.str name) then (resolver i name).map fun id => (name, id) else none
    | _ => none).filterMap id

namespace State

/-- The bot asks to join, unless it is in the room. -/
def ask (s : State) (rooms : String → Bool) (roomId : String) (j : Join) : State :=
  if rooms roomId then s else { s with joins := s.joins ++ [j] }

/-- The server's answer goes into the mapping. -/
def learn (s : State) (name id : String) : State :=
  let s' := { s with answered := s.answered ++ [(name, id)] }
  if s.mapping.truthy then { s' with mapping := (updateRoomIdInMapping s.mapping name id).1 }
  else s'

/-- `join_matrix_room`. -/
def joinMatrixRoom (s : State) (room : Py) (answer : Option String) (rooms : String → Bool) :
    State :=
  match room with
  | .str name =>
    if isRoomAlias (.str name) then
      match answer with
      | none => s
      | some id =>
        if id = "" then s else (s.learn name id).ask rooms id (.asked id)
    else s.ask rooms name (.asked name)
  | _ => s

/-- `on_invite`. -/
def onInvite (s : State) (e : Invite) (rooms : String → Bool) : State :=
  if s.botUserId = "" then s
  else if e.stateKey ≠ s.botUserId then s
  else if e.membership ≠ "invite" then s
  else if e.candidates.any (isRoomMapped s.mapping) then s.ask rooms e.roomId (.invited e)
  else s

end State

def step (s : State) : Act → Option State
  | .resolve resolver =>
    some { s with
      mapping := resolveAliasesInMapping resolver s.mapping
      answered := s.answered ++ answersOf resolver s.mapping }
  | .take i =>
    match (entries s.mapping)[i]? with
    | some entry => some { s with pending := s.pending ++ [entryId entry] }
    | none => none
  | .join k answer rooms =>
    match s.pending[k]? with
    | some room =>
      some (({ s with pending := s.pending.eraseIdx k } : State).joinMatrixRoom room answer rooms)
    | none => none
  | .invite e rooms => some (s.onInvite e rooms)

def initial (mapping : Py) (botUserId : String) : State :=
  { mapping := mapping, botUserId := botUserId }

/-! ## What the answers make of a name -/

/-- The server was asked for an alias and gave the other name. -/
def Answered (answered : List (String × String)) (a b : String) : Prop :=
  isRoomAlias (.str a) = true ∧ (a, b) ∈ answered

/-- A name leads to itself and to what the server made of the aliases on the way. -/
def Leads (answered : List (String × String)) : String → String → Prop :=
  Relation.ReflTransGen (Answered answered)

/-- An entry is as it was, or its alias was resolved. -/
def Resolved (answered : List (String × String)) (first entry : Py) : Prop :=
  entry = first ∨ ∃ a b, entryId first = .str a ∧ Relation.TransGen (Answered answered) a b ∧
    entry = setEntryId b first

/-- The name was configured, or a configured alias leads to it. -/
def Configured (answered : List (String × String)) (first : Py) (name : String) : Prop :=
  ∃ entry ∈ entries first, ∃ a, entryId entry = .str a ∧ Leads answered a name

/-- A join that the configuration allows; an invitation is the bot's own. -/
def Granted (answered : List (String × String)) (first : Py) (bot : String) : Join → Prop
  | .asked roomId => Configured answered first roomId
  | .invited e => bot ≠ "" ∧ e.stateKey = bot ∧ e.membership = "invite" ∧
      ∃ name ∈ e.candidates, Configured answered first name

/-- The mapping has the entries that it had, up to their aliases, and every join is allowed. -/
structure Sound (first : Py) (bot : String) (s : State) : Prop where
  user : s.botUserId = bot
  shape : s.mapping = withEntries first (entries s.mapping)
  length : (entries s.mapping).length = (entries first).length
  resolved : ∀ (i : ℕ) (e e' : Py), (entries first)[i]? = some e →
    (entries s.mapping)[i]? = some e' → Resolved s.answered e e'
  granted : ∀ j ∈ s.joins, Granted s.answered first bot j

/-- Entries that have no alias are the same in the later state. -/
def Settled (s t : State) : Prop :=
  ∀ (i : ℕ) (e : Py), (entries s.mapping)[i]? = some e → isRoomAlias (entryId e) = false →
    (entries t.mapping)[i]? = some e

section Answers

variable {answered answered' : List (String × String)} {first entry : Py} {a b name : String}
  {bot : String}

theorem Answered.mono (hsub : answered ⊆ answered') (h : Answered answered a b) :
    Answered answered' a b :=
  ⟨h.1, hsub h.2⟩

theorem Leads.mono (hsub : answered ⊆ answered') (h : Leads answered a b) : Leads answered' a b :=
  Relation.ReflTransGen.mono (fun _ _ => Answered.mono hsub) _ _ h

theorem Resolved.mono (hsub : answered ⊆ answered') (h : Resolved answered first entry) :
    Resolved answered' first entry := by
  obtain rfl | ⟨a, b, ha, hab, rfl⟩ := h
  · exact Or.inl rfl
  · exact Or.inr ⟨a, b, ha, Relation.TransGen.mono (fun _ _ => Answered.mono hsub) _ _ hab, rfl⟩

theorem Configured.mono (hsub : answered ⊆ answered') (h : Configured answered first name) :
    Configured answered' first name := by
  obtain ⟨entry, hentry, a, ha, hleads⟩ := h
  exact ⟨entry, hentry, a, ha, hleads.mono hsub⟩

theorem Granted.mono (hsub : answered ⊆ answered') {j : Join} (h : Granted answered first bot j) :
    Granted answered' first bot j := by
  cases j with
  | asked roomId => exact Configured.mono hsub h
  | invited e =>
    obtain ⟨hbot, hkey, hinvite, name, hname, hconf⟩ := h
    exact ⟨hbot, hkey, hinvite, name, hname, hconf.mono hsub⟩

theorem Configured.step (h : Configured answered first a) (hab : Answered answered a b) :
    Configured answered first b := by
  obtain ⟨entry, hentry, c, hc, hleads⟩ := h
  exact ⟨entry, hentry, c, hc, hleads.tail hab⟩

theorem dictSet_dictSet {α : Type} (d : List (String × α)) (k : String) (v w : α) :
    dictSet (dictSet d k v) k w = dictSet d k w := by
  induction d with
  | nil => simp [dictSet]
  | cons item items ih =>
    by_cases hk : item.1 = k
    · simp [dictSet, hk]
    · simp [dictSet, hk, ih]

theorem entryId_setEntryId (id : String) (entry : Py) : entryId (setEntryId id entry) = .str id := by
  cases entry with
  | dict kvs =>
    change ((dictSet kvs "id" (.str id)).lookup "id").getD (.str "") = .str id
    rw [lookup_dictSet, if_pos rfl]
    rfl
  | _ => rfl

theorem setEntryId_setEntryId (id id' : String) (entry : Py) :
    setEntryId id' (setEntryId id entry) = setEntryId id' entry := by
  cases entry with
  | dict kvs => exact congrArg Py.dict (dictSet_dictSet kvs "id" (.str id) (.str id'))
  | _ => rfl

theorem Resolved.set (h : Resolved answered first entry) (hid : entryId entry = .str a)
    (hab : Answered answered a b) : Resolved answered first (setEntryId b entry) := by
  obtain rfl | ⟨c, d, hc, hcd, rfl⟩ := h
  · exact Or.inr ⟨a, b, hid, Relation.TransGen.single hab, rfl⟩
  · rw [entryId_setEntryId] at hid
    obtain rfl : d = a := Py.str.inj hid
    exact Or.inr ⟨c, b, hc, hcd.tail hab, setEntryId_setEntryId d b first⟩

theorem Resolved.configured {mapping : Py} (h : Resolved answered first entry)
    (hfirst : first ∈ entries mapping) (hid : entryId entry = .str name) :
    Configured answered mapping name := by
  obtain rfl | ⟨c, d, hc, hcd, rfl⟩ := h
  · exact ⟨entry, hfirst, name, hid, Relation.ReflTransGen.refl⟩
  · rw [entryId_setEntryId] at hid
    obtain rfl : d = name := Py.str.inj hid
    exact ⟨first, hfirst, c, hc, hcd.to_reflTransGen⟩

theorem eq_str_of_eqStr {x : Py} (h : x.eqStr name = true) : x = .str name := by
  cases x with
  | str s => rw [of_decide_eq_true h]
  | _ => cases h

end Answers

/-! ## Setting the entries -/

theorem entries_withEntries {mapping : Py} {es : List Py}
    (h : es.length = (entries mapping).length) : entries (withEntries mapping es) = es := by
  cases mapping with
  | list xs => rfl
  | dict kvs =>
    change ((kvs.map Prod.fst).zip es).map Prod.snd = es
    apply List.map_snd_zip
    rw [List.length_map, h]
    exact (List.length_map ..).le
  | _ => exact (List.eq_nil_of_length_eq_zero h).symm

theorem withEntries_withEntries {mapping : Py} {es : List Py}
    (h : es.length = (entries mapping).length) (es' : List Py) :
    withEntries (withEntries mapping es) es' = withEntries mapping es' := by
  cases mapping with
  | list xs => rfl
  | dict kvs =>
    change Py.dict ((((kvs.map Prod.fst).zip es).map Prod.fst).zip es') = _
    rw [List.map_fst_zip]
    · rfl
    · rw [h]
      exact (List.length_map ..).le.trans (List.length_map ..).ge
  | _ => rfl

theorem withEntries_entries (mapping : Py) : withEntries mapping (entries mapping) = mapping := by
  cases mapping with
  | list xs => rfl
  | dict kvs =>
    change Py.dict ((kvs.map Prod.fst).zip (kvs.map Prod.snd)) = Py.dict kvs
    rw [← List.unzip_fst, ← List.unzip_snd, List.zip_unzip]
  | _ => rfl

theorem length_updateEntries (name id : String) (es : List Py) :
    (updateEntries name id es).1.length = es.length := by
  induction es with
  | nil => rfl
  | cons e es ih =>
    unfold updateEntries
    split_ifs
    · rfl
    · exact congrArg Nat.succ ih

theorem updateEntries_getElem? (name id : String) {es : List Py} {i : ℕ} {e : Py}
    (h : es[i]? = some e) : (updateEntries name id es).1[i]? = some e ∨
      entryId e = .str name ∧ (updateEntries name id es).1[i]? = some (setEntryId id e) := by
  induction es generalizing i with
  | nil => cases h
  | cons e' es ih =>
    unfold updateEntries
    cases i with
    | zero =>
      cases h
      split_ifs with hname
      · exact Or.inr ⟨eq_str_of_eqStr hname, rfl⟩
      · exact Or.inl rfl
    | succ i =>
      split_ifs
      · exact Or.inl h
      · exact ih h

theorem resolveEntry_cases (resolver : String → Option String) (e : Py) :
    resolveEntry resolver e = e ∨ ∃ name id, entryId e = .str name ∧
      isRoomAlias (.str name) = true ∧ resolver name = some id ∧
      resolveEntry resolver e = setEntryId id e := by
  unfold resolveEntry
  split
  · next name hname =>
    split_ifs with halias
    · split
      · next id hid =>
        split_ifs
        · exact Or.inl rfl
        · exact Or.inr ⟨name, id, hname, halias, hid, rfl⟩
      · exact Or.inl rfl
    · exact Or.inl rfl
  · exact Or.inl rfl

theorem mem_answersOf {resolver : ℕ → String → Option String} {mapping e : Py} {i : ℕ}
    {name id : String} (he : (entries mapping)[i]? = some e) (hname : entryId e = .str name)
    (halias : isRoomAlias (.str name) = true) (hid : resolver i name = some id) :
    (name, id) ∈ answersOf resolver mapping := by
  unfold answersOf
  refine List.mem_filterMap.mpr ⟨some (name, id), List.mem_iff_getElem?.mpr ⟨i, ?_⟩, rfl⟩
  rw [List.getElem?_mapIdx, he, Option.map_some, hname]
  dsimp only
  rw [if_pos halias, hid]
  rfl

/-! ## One step -/

/-- What holds in every reachable state: `Sound`, and what callers have read is configured. -/
structure Inv (first : Py) (bot : String) (s : State) : Prop extends Sound first bot s where
  pending : ∀ name, Py.str name ∈ s.pending → Configured s.answered first name

variable {first : Py} {bot : String} {s t : State}

namespace Inv

theorem initial (first : Py) (bot : String) : Inv first bot (initial first bot) where
  user := rfl
  shape := (withEntries_entries first).symm
  length := rfl
  resolved i e e' he he' := Or.inl (Option.some.inj (he'.symm.trans he))
  granted j hj := by cases hj
  pending name h := by cases h

theorem setEntries (h : Inv first bot s) {es : List Py} {answered : List (String × String)}
    (hsub : s.answered ⊆ answered) (hlen : es.length = (entries s.mapping).length)
    (hes : ∀ (i : ℕ) (e e' : Py), (entries s.mapping)[i]? = some e → es[i]? = some e' →
      e' = e ∨ ∃ a b, entryId e = .str a ∧ Answered answered a b ∧ e' = setEntryId b e) :
    Inv first bot { s with mapping := withEntries s.mapping es, answered := answered } where
  user := h.user
  shape := by
    change withEntries s.mapping es = withEntries first (entries (withEntries s.mapping es))
    rw [entries_withEntries hlen, h.shape, withEntries_withEntries h.length]
  length := by
    change (entries (withEntries s.mapping es)).length = _
    rw [entries_withEntries hlen, hlen, h.length]
  resolved i e e' he he' := by
    change (entries (withEntries s.mapping es))[i]? = some e' at he'
    rw [entries_withEntries hlen] at he'
    have hlt : i < (entries s.mapping).length := by
      rw [← hlen]
      exact (List.getElem?_eq_some_iff.mp he').1
    have hold : (entries s.mapping)[i]? = some (entries s.mapping)[i] := List.getElem?_eq_getElem hlt
    have hres := (h.resolved i e _ he hold).mono hsub
    obtain rfl | ⟨a, b, ha, hab, rfl⟩ := hes i _ e' hold he'
    · exact hres
    · exact hres.set ha hab
  granted j hj := (h.granted j hj).mono hsub
  pending name hname := (h.pending name hname).mono hsub

theorem configured (h : Inv first bot s) {e : Py} {name : String} (he : e ∈ entries s.mapping)
    (hid : entryId e = .str name) : Configured s.answered first name := by
  obtain ⟨i, hi⟩ := List.mem_iff_getElem?.mp he
  have hlt : i < (entries first).length := by
    rw [← h.length]
    exact (List.getElem?_eq_some_iff.mp hi).1
  have hfirst : (entries first)[i]? = some (entries first)[i] := List.getElem?_eq_getElem hlt
  exact (h.resolved i _ e hfirst hi).configured (List.mem_of_getElem? hfirst) hid

theorem ask (h : Inv first bot s) {rooms : String → Bool} {roomId : String} {j : Join}
    (hj : Granted s.answered first bot j) : Inv first bot (s.ask rooms roomId j) := by
  unfold State.ask
  split_ifs
  · exact h
  · refine { h with granted := fun k hk => ?_ }
    obtain hold | hnew := List.mem_append.mp hk
    · exact h.granted k hold
    · rw [List.mem_singleton.mp hnew]
      exact hj

theorem learn (h : Inv first bot s) {name id : String}
    (hab : Answered (s.answered ++ [(name, id)]) name id) : Inv first bot (s.learn name id) := by
  have hsub : s.answered ⊆ s.answered ++ [(name, id)] := List.subset_append_left _ _
  unfold State.learn
  dsimp only
  split_ifs
  · refine h.setEntries hsub (length_updateEntries name id _) fun i e e' he he' => ?_
    obtain hsame | ⟨hid, hset⟩ := updateEntries_getElem? name id he
    · exact Or.inl (Option.some.inj (he'.symm.trans hsame))
    · exact Or.inr ⟨name, id, hid, hab, Option.some.inj (he'.symm.trans hset)⟩
  · exact ⟨⟨h.user, h.shape, h.length, fun i e e' he he' => (h.resolved i e e' he he').mono hsub,
      fun j hj => (h.granted j hj).mono hsub⟩, fun n hn => (h.pending n hn).mono hsub⟩

theorem learn_answered (s : State) (name id : String) :
    (s.learn name id).answered = s.answered ++ [(name, id)] := by
  unfold State.learn
  dsimp only
  split_ifs <;> rfl

theorem joinMatrixRoom (h : Inv first bot s) {room : Py} {answer : Option String}
    {rooms : String → Bool} (hroom : ∀ name, room = .str name → Configured s.answered first name) :
    Inv first bot (s.joinMatrixRoom room answer rooms) := by
  unfold State.joinMatrixRoom
  split
  · next name =>
    have hname := hroom name rfl
    by_cases halias : isRoomAlias (.str name) = true
    · rw [if_pos halias]
      cases answer with
      | none => exact h
      | some id =>
        dsimp only
        split_ifs
        · exact h
        · have hab : Answered (s.answered ++ [(name, id)]) name id :=
            ⟨halias, List.mem_append_right _ List.mem_cons_self⟩
          have hconf : Configured (s.learn name id).answered first id := by
            rw [learn_answered]
            exact (hname.mono (List.subset_append_left _ _)).step hab
          exact (h.learn hab).ask (j := .asked id) hconf
    · rw [if_neg halias]
      exact h.ask (j := .asked name) hname
  · exact h

theorem onInvite (h : Inv first bot s) (e : Invite) (rooms : String → Bool) :
    Inv first bot (s.onInvite e rooms) := by
  unfold State.onInvite
  split_ifs with hset hkey hinvite hmapped
  · exact h
  · exact h
  · exact h
  · obtain ⟨name, hname, hany⟩ := List.any_eq_true.mp hmapped
    obtain ⟨entry, hentry, heq⟩ := List.any_eq_true.mp hany
    refine h.ask ⟨?_, ?_, not_not.mp hinvite, name, hname,
      h.configured hentry (eq_str_of_eqStr heq)⟩
    · rw [← h.user]
      exact hset
    · rw [← h.user]
      exact not_not.mp hkey
  · exact h

theorem step {a : Act} (h : Inv first bot s) (hs : Rooms.step s a = some t) : Inv first bot t := by
  cases a with
  | resolve resolver =>
    cases hs
    refine h.setEntries (List.subset_append_left _ _) (List.length_mapIdx ..) fun i e e' he he' => ?_
    rw [List.getElem?_mapIdx, he] at he'
    obtain rfl := Option.some.inj he'
    obtain hsame | ⟨name, id, hname, halias, hid, hset⟩ := resolveEntry_cases (resolver i) e
    · exact Or.inl hsame
    · exact Or.inr ⟨name, id, hname,
        ⟨halias, List.mem_append_right _ (mem_answersOf he hname halias hid)⟩, hset⟩
  | take i =>
    simp only [Rooms.step] at hs
    split at hs
    · next entry hentry =>
      cases hs
      refine { h with pending := fun name hname => ?_ }
      obtain hold | hnew := List.mem_append.mp hname
      · exact h.pending name hold
      · exact h.configured (List.mem_of_getElem? hentry) (List.mem_singleton.mp hnew).symm
    · cases hs
  | join k answer rooms =>
    simp only [Rooms.step] at hs
    split at hs
    · next room hroom =>
      cases hs
      have hrest : Inv first bot { s with pending := s.pending.eraseIdx k } :=
        { h with pending := fun name hname => h.pending name (List.mem_of_mem_eraseIdx hname) }
      refine hrest.joinMatrixRoom fun name hname => h.pending name ?_
      rw [← hname]
      exact List.mem_of_getElem? hroom
    · cases hs
  | invite e rooms =>
    cases hs
    exact h.onInvite e rooms

end Inv

/-! ## Entries that have a room id -/

theorem Settled.refl (s : State) : Settled s s := fun _ _ he _ => he

theorem Settled.trans {r : State} (h : Settled r s) (h' : Settled s t) : Settled r t :=
  fun i e he halias => h' i e (h i e he halias) halias

theorem settled_of_mapping (h : t.mapping = s.mapping) : Settled s t := by
  intro i e he _
  rw [h]
  exact he

theorem settled_setEntries {es : List Py} (hlen : es.length = (entries s.mapping).length)
    (hes : ∀ (i : ℕ) (e : Py), (entries s.mapping)[i]? = some e → isRoomAlias (entryId e) = false →
      es[i]? = some e) (h : t.mapping = withEntries s.mapping es) : Settled s t := by
  intro i e he halias
  rw [h, entries_withEntries hlen]
  exact hes i e he halias

theorem ask_mapping (rooms : String → Bool) (roomId : String) (j : Join) :
    (s.ask rooms roomId j).mapping = s.mapping := by
  unfold State.ask
  split_ifs <;> rfl

theorem settled_joinMatrixRoom (s : State) (room : Py) (answer : Option String)
    (rooms : String → Bool) : Settled s (s.joinMatrixRoom room answer rooms) := by
  unfold State.joinMatrixRoom
  split
  · next name =>
    by_cases halias : isRoomAlias (.str name) = true
    · rw [if_pos halias]
      cases answer with
      | none => exact Settled.refl s
      | some id =>
        dsimp only
        split_ifs
        · exact Settled.refl s
        · by_cases hmapping : s.mapping.truthy = true
          · refine settled_setEntries (length_updateEntries name id _) (fun i e he hnot => ?_) (by
              rw [ask_mapping, State.learn, if_pos hmapping]
              rfl)
            obtain hsame | ⟨hid, -⟩ := updateEntries_getElem? name id he
            · exact hsame
            · rw [hid] at hnot
              exact absurd (halias.symm.trans hnot) (by decide)
          · refine settled_of_mapping ?_
            rw [ask_mapping, State.learn, if_neg hmapping]
    · rw [if_neg halias]
      exact settled_of_mapping (ask_mapping ..)
  · exact Settled.refl s

theorem settled_step {a : Act} (hs : step s a = some t) : Settled s t := by
  cases a with
  | resolve resolver =>
    cases hs
    refine settled_setEntries (List.length_mapIdx ..) (fun i e he hnot => ?_) rfl
    rw [List.getElem?_mapIdx, he]
    obtain hsame | ⟨name, id, hname, halias, -, -⟩ := resolveEntry_cases (resolver i) e
    · exact congrArg some hsame
    · rw [hname] at hnot
      exact absurd (halias.symm.trans hnot) (by decide)
  | take i =>
    simp only [step] at hs
    split at hs
    · cases hs
      exact settled_of_mapping rfl
    · cases hs
  | join k answer rooms =>
    simp only [step] at hs
    split at hs
    · cases hs
      exact settled_joinMatrixRoom { s with pending := s.pending.eraseIdx k } _ answer rooms
    · cases hs
  | invite e rooms =>
    cases hs
    apply settled_of_mapping
    unfold State.onInvite
    split_ifs
    · rfl
    · rfl
    · rfl
    · exact ask_mapping ..
    · rfl

/-! ## The runs -/

/-- **An entry that has a room id keeps it**, whatever is resolved, joined or claimed later. -/
theorem settled_run (s : State) (acts : List Act) : Visited step (Settled s) s acts :=
  visited_of_invariant (fun _ _ _ h _ hs => h.trans (settled_step hs)) (fun _ h => h)
    (Settled.refl s) (allSteps_of_forall (fun _ _ => trivial) s acts)

/-- **The rooms that are joined.** Whatever the mapping is, and in whatever order aliases are
resolved, callers join and others invite the bot, the mapping keeps its shape and changes in nothing
but aliases that the server resolved, and every room that is asked for was configured or is what a
configured alias leads to, or the bot itself was invited to it under such a name. -/
theorem rooms_sound (first : Py) (bot : String) (acts : List Act) :
    Visited step (Sound first bot) (initial first bot) acts :=
  visited_of_invariant (fun _ _ _ h _ hs => h.step hs) (fun _ h => h.toSound)
    (Inv.initial first bot) (allSteps_of_forall (fun _ _ => trivial) _ acts)

end MMRelay.Matrix.Rooms
