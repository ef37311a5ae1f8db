import Mathlib.Data.List.Sort
import Mathlib.Data.String.Basic
import MMRelay.Lib.PyValue

/-!
# The snapshot of node names

`_collect_node_name_snapshot` and `_merge_node_name_values` (`db_utils.py`): one pass over the
nodes of the radio that gathers the names of each node id, merges duplicate ids and records
whether the snapshot can be trusted.

* `NodeNameEntry`, `Snapshot`, `Collect`;
* `mergeNodeNameValues`, `collectNode`, `collectNodeNameSnapshot`;
* `CollectInv`, `collectNode_inv`: ids are distinct, and while the snapshot is complete the
  current ids are exactly those with an entry;
* **`mem_currentIds_of_complete`**, **`state_ids_nodup`**: what this says of a whole snapshot.
-/

namespace MMRelay.Names

/-- `NodeNameEntry`. -/
structure NodeNameEntry where
  meshtasticId : String
  longName : Option String
  shortName : Option String
  deriving DecidableEq

/-- `NodeNameState`: the entries in the order of their ids. -/
abbrev NodeNameState := List NodeNameEntry

/-- The answer of `_collect_node_name_snapshot`. -/
structure Snapshot where
  state : NodeNameState
  currentIds : List String
  complete : Bool
  deriving DecidableEq

/-- The variables of its loop; `byId` is the dictionary `state_by_id`. -/
structure Collect where
  byId : List NodeNameEntry
  currentIds : List String
  skipped : List String
  complete : Bool
  deriving DecidableEq

/-- `_normalize_node_name_value`. -/
def normalizeNodeNameValue : Py → Option String
  | .str s => if s.isEmpty then none else some s
  | _ => none

/-- A name is absent or a string. -/
def isNameValue : Py → Bool
  | .none => true
  | .str _ => true
  | _ => false

/-- `str(user["id"])` of a valid id. -/
def nodeId (user : Py) : Option String :=
  match user.field "id" with
  | .str s => if s.isEmpty then none else some s
  | .int n => some (toString n)
  | _ => none

/-- `_merge_node_name_values`; `none` is the conflict. -/
def mergeNodeNameValues (existing incoming : Option String) : Option (Option String) :=
  match existing, incoming with
  | none, v => some v
  | v, none => some v
  | some a, some b => if a = b then some (some a) else none

namespace Collect

/-- `state_by_id.get(id)`. -/
def find (c : Collect) (id : String) : Option NodeNameEntry :=
  c.byId.find? fun entry => entry.meshtasticId = id

/-- `state_by_id[id] = (long, short)`. -/
def put (c : Collect) (entry : NodeNameEntry) : Collect :=
  { c with byId := c.byId.filter (fun e => e.meshtasticId ≠ entry.meshtasticId) ++ [entry] }

/-- The id conflicts in every field: it is left out of the snapshot. -/
def skip (c : Collect) (id : String) : Collect :=
  { c with byId := c.byId.filter (fun e => e.meshtasticId ≠ id), skipped := id :: c.skipped
           complete := false }

/-- Merge a further node with an id that has an entry. -/
def merge (c : Collect) (existing : NodeNameEntry) (long short : Option String) : Collect :=
  let id := existing.meshtasticId
  match mergeNodeNameValues existing.longName long, mergeNodeNameValues existing.shortName short with
  | none, none => c.skip id
  | none, some (some s) => { c with complete := false }.put ⟨id, none, some s⟩
  | none, some none => c.skip id
  | some (some l), none => { c with complete := false }.put ⟨id, some l, none⟩
  | some none, none => c.skip id
  | some l, some s => c.put ⟨id, l, s⟩

/-- The id is a current one; a name that is no string makes the snapshot incomplete. -/
def noteUser (c : Collect) (id : String) (user : Py) : Collect :=
  { c with
    currentIds := c.currentIds.insert id
    complete := c.complete && isNameValue (user.field "longName") &&
      isNameValue (user.field "shortName") }

/-- The node of a user with the id. -/
def addUser (c : Collect) (id : String) (user : Py) : Collect :=
  let c := c.noteUser id user
  let long := normalizeNodeNameValue (user.field "longName")
  let short := normalizeNodeNameValue (user.field "shortName")
  match c.find id with
  | none => c.put ⟨id, long, short⟩
  | some existing => c.merge existing long short

end Collect

/-- One turn of the loop over `nodes.values()`. -/
def collectNode (c : Collect) (node : Py) : Collect :=
  match node.field "user" with
  | .dict user =>
    match nodeId (.dict user) with
    | none => { c with complete := false }
    | some id => if id ∈ c.skipped then c else c.addUser id (.dict user)
  | _ => { c with complete := false }

/-- `state_entries.sort(key=lambda entry: entry.meshtastic_id)`. -/
def sortEntries (entries : List NodeNameEntry) : NodeNameState :=
  entries.insertionSort fun a b => a.meshtasticId ≤ b.meshtasticId

/-- `_collect_node_name_snapshot`. -/
def collectNodeNameSnapshot (nodes : Py) : Snapshot :=
  match nodes with
  | .dict kvs =>
    let c := kvs.foldl (fun c kv => collectNode c kv.2) ⟨[], [], [], true⟩
    ⟨sortEntries c.byId, c.currentIds, c.complete⟩
  | _ => ⟨[], [], false⟩

/-! ## Invariants of the loop -/

/-- Ids are distinct, and no id is lost from a complete snapshot. -/
structure CollectInv (c : Collect) : Prop where
  nodup : (c.byId.map NodeNameEntry.meshtasticId).Nodup
  entry_current : ∀ entry ∈ c.byId, entry.meshtasticId ∈ c.currentIds
  current_entry : c.complete = true → ∀ id ∈ c.currentIds,
    ∃ entry ∈ c.byId, entry.meshtasticId = id

namespace CollectInv

variable {c : Collect}

theorem incomplete (h : CollectInv c) : CollectInv { c with complete := false } :=
  ⟨h.nodup, h.entry_current, fun hc => by cases hc⟩

theorem filter_nodup (h : (c.byId.map NodeNameEntry.meshtasticId).Nodup) (id : String) :
    ((c.byId.filter fun e => e.meshtasticId ≠ id).map NodeNameEntry.meshtasticId).Nodup :=
  h.sublist ((List.filter_sublist (l := c.byId)).map _)

/-- An entry may be missing only for the id that is put. -/
theorem put_of {entry : NodeNameEntry} (hn : (c.byId.map NodeNameEntry.meshtasticId).Nodup)
    (hcur : ∀ e ∈ c.byId, e.meshtasticId ∈ c.currentIds)
    (hent : c.complete = true → ∀ id ∈ c.currentIds, id ≠ entry.meshtasticId →
      ∃ e ∈ c.byId, e.meshtasticId = id)
    (hid : entry.meshtasticId ∈ c.currentIds) : CollectInv (c.put entry) where
  nodup := by
    simp only [Collect.put, List.map_append, List.map_cons, List.map_nil]
    refine List.Nodup.append (filter_nodup hn _) (List.nodup_singleton _) ?_
    rw [List.disjoint_singleton]
    intro hmem
    obtain ⟨e, he, heq⟩ := List.mem_map.mp hmem
    exact absurd heq (by simpa using (List.mem_filter.mp he).2)
  entry_current e he := by
    rcases List.mem_append.mp he with he | he
    · exact hcur e (List.mem_filter.mp he).1
    · rw [List.mem_singleton.mp he]
      exact hid
  current_entry hc id hmem := by
    by_cases heq : id = entry.meshtasticId
    · exact ⟨entry, List.mem_append_right _ (List.mem_singleton_self _), heq.symm⟩
    · obtain ⟨e, he, hid'⟩ := hent hc id hmem heq
      refine ⟨e, List.mem_append_left _ (List.mem_filter.mpr ⟨he, ?_⟩), hid'⟩
      rw [hid']
      exact decide_eq_true heq

theorem put (h : CollectInv c) {entry : NodeNameEntry} (hid : entry.meshtasticId ∈ c.currentIds) :
    CollectInv (c.put entry) :=
  put_of h.nodup h.entry_current (fun hc id hmem _ => h.current_entry hc id hmem) hid

theorem skip (h : CollectInv c) (id : String) : CollectInv (c.skip id) where
  nodup := filter_nodup h.nodup id
  entry_current e he := h.entry_current e (List.mem_filter.mp he).1
  current_entry hc := by cases hc

theorem merge (h : CollectInv c) {existing : NodeNameEntry} (long short : Option String)
    (hid : existing.meshtasticId ∈ c.currentIds) : CollectInv (c.merge existing long short) := by
  unfold Collect.merge
  simp only
  split
  · exact h.skip _
  · exact h.incomplete.put hid
  · exact h.skip _
  · exact h.incomplete.put hid
  · exact h.skip _
  · exact h.put hid

theorem addUser (h : CollectInv c) (id : String) (user : Py) : CollectInv (c.addUser id user) := by
  unfold Collect.addUser
  simp only
  -- with the id among the current ones, only its own entry may be missing
  have hcur : ∀ e ∈ (c.noteUser id user).byId, e.meshtasticId ∈ (c.noteUser id user).currentIds :=
    fun e he => List.mem_insert_of_mem (h.entry_current e he)
  have hent : (c.noteUser id user).complete = true → ∀ i ∈ (c.noteUser id user).currentIds,
      i ≠ id → ∃ e ∈ (c.noteUser id user).byId, e.meshtasticId = i := by
    intro hc i hi hne
    simp only [Collect.noteUser, Bool.and_eq_true] at hc
    exact h.current_entry hc.1.1 i ((List.mem_insert_iff.mp hi).resolve_left hne)
  have hid : id ∈ (c.noteUser id user).currentIds := List.mem_insert_self
  split
  · exact put_of h.nodup hcur hent hid
  · next existing hsome =>
    have hmem := List.mem_of_find?_eq_some hsome
    have heq : existing.meshtasticId = id := by simpa using List.find?_some hsome
    have hinv : CollectInv (c.noteUser id user) := by
      refine ⟨h.nodup, hcur, fun hc i hi => ?_⟩
      by_cases hne : i = id
      · exact ⟨existing, hmem, heq.trans hne.symm⟩
      · exact hent hc i hi hne
    exact hinv.merge _ _ (heq ▸ hid)

end CollectInv

theorem collectNode_inv {c : Collect} (h : CollectInv c) (node : Py) :
    CollectInv (collectNode c node) := by
  unfold collectNode
  split
  · split
    · exact h.incomplete
    · split_ifs
      · exact h
      · exact h.addUser _ _
  · exact h.incomplete

theorem collect_inv {c : Collect} (h : CollectInv c) (kvs : List (String × Py)) :
    CollectInv (kvs.foldl (fun c kv => collectNode c kv.2) c) := by
  induction kvs generalizing c with
  | nil => exact h
  | cons kv kvs ih => exact ih (collectNode_inv h kv.2)

theorem collect_start : CollectInv ⟨[], [], [], true⟩ where
  nodup := List.nodup_nil
  entry_current e he := by cases he
  current_entry _ id hid := by cases hid

theorem mem_sortEntries {entries : List NodeNameEntry} {entry : NodeNameEntry} :
    entry ∈ sortEntries entries ↔ entry ∈ entries :=
  (List.perm_insertionSort _ entries).mem_iff

/-- **Distinct ids.** No id has two entries in a snapshot. -/
theorem state_ids_nodup (nodes : Py) :
    ((collectNodeNameSnapshot nodes).state.map NodeNameEntry.meshtasticId).Nodup := by
  unfold collectNodeNameSnapshot
  split
  · next kvs =>
    have h := collect_inv collect_start kvs
    exact ((List.perm_insertionSort _ _).map _).nodup_iff.mpr h.nodup
  · exact List.nodup_nil

/-- **Complete snapshots.** The current ids of a complete snapshot are those of its entries. -/
theorem mem_currentIds_of_complete {nodes : Py}
    (hc : (collectNodeNameSnapshot nodes).complete = true) (id : String) :
    id ∈ (collectNodeNameSnapshot nodes).currentIds ↔
      ∃ entry ∈ (collectNodeNameSnapshot nodes).state, entry.meshtasticId = id := by
  unfold collectNodeNameSnapshot at hc ⊢
  split at hc
  · next kvs =>
    have h := collect_inv collect_start kvs
    simp only [mem_sortEntries]
    constructor
    · exact h.current_entry hc id
    · rintro ⟨entry, he, rfl⟩
      exact h.entry_current entry he
  · cases hc

end MMRelay.Names
