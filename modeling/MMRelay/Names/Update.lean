import MMRelay.Lib.Dict
import MMRelay.Names.Convergence

/-!
# Updating one name table at a time

`_update_names_core` with `update_longnames` and `update_shortnames` (`db_utils.py`): a collector
for one field, one transaction for each name, and the pruning of stale rows. Compared with
`sync_name_tables_if_changed`.

* `NameField`, `NameCollect`, `collectName`, `collectSingleNameSnapshot`;
* `NameOps`, `updateNamesCore`, `updateLongnames`, `updateShortnames`;
* `Follows`, `follows_collectName`: while the snapshot of both fields is complete, the collector
  of one field holds its projection;
* `applyPairs_sameRows`: the statements of both implementations leave the same rows;
* **`updates_agree`**: after a complete snapshot both implementations leave the same contents.
-/

namespace MMRelay.Names

/-- `PROTO_NODE_NAME_LONG` and `PROTO_NODE_NAME_SHORT`. -/
inductive NameField
  | long
  | short
  deriving DecidableEq

namespace NameField

/-- `name_key`. -/
def key : NameField → String
  | long => "longName"
  | short => "shortName"

/-- The field of an entry. -/
def get : NameField → NodeNameEntry → Option String
  | long => NodeNameEntry.longName
  | short => NodeNameEntry.shortName

end NameField

/-! ## The collector -/

/-- The variables of `_collect_single_name_snapshot`. -/
structure NameCollect where
  byId : List (String × Option String)
  currentIds : List String
  skipped : List String
  complete : Bool
  deriving DecidableEq

/-- The node of a user with the id; `raw` is its name. -/
def NameCollect.addName (c : NameCollect) (id : String) (raw : Py) : NameCollect :=
  let c := { c with currentIds := c.currentIds.insert id }
  if !isNameValue raw then { c with complete := false }
  else
    let normalized := normalizeNodeNameValue raw
    match (c.byId.lookup id).join with
    | none => { c with byId := dictSet c.byId id normalized }
    | some existing =>
      match mergeNodeNameValues (some existing) normalized with
      | none => { c with byId := dictPop c.byId id, skipped := id :: c.skipped, complete := false }
      | some merged => { c with byId := dictSet c.byId id merged }

/-- One turn of its loop. -/
def collectName (field : NameField) (c : NameCollect) (node : Py) : NameCollect :=
  match node.field "user" with
  | .dict user =>
    match nodeId (.dict user) with
    | none => { c with complete := false }
    | some id => if id ∈ c.skipped then c else c.addName id ((Py.dict user).field field.key)
  | _ => { c with complete := false }

/-- `_collect_single_name_snapshot`. -/
def collectSingleNameSnapshot (field : NameField) (nodeRows : List (String × Py)) : NameCollect :=
  nodeRows.foldl (fun c kv => collectName field c kv.2) ⟨[], [], [], true⟩

/-! ## The update -/

/-- The callables that `_update_names_core` receives; each answers whether it succeeded. -/
structure NameOps (σ : Type) where
  saveName : σ → String → String → σ × Bool
  deleteName : σ → String → σ × Bool
  /-- `false` is the `None` of a failed deletion. -/
  deleteStaleNames : σ → List String → σ × Bool

section Core

variable {σ : Type} (ops : NameOps σ)

/-- One turn of the loop over `state_by_id.items()`; the flag is `all_saves_ok`. -/
def writeName (complete : Bool) (s : σ × Bool) (item : String × Option String) : σ × Bool :=
  match item.2 with
  | none =>
    if complete then
      let r := ops.deleteName s.1 item.1
      (r.1, s.2 && r.2)
    else s
  | some name =>
    let r := ops.saveName s.1 item.1 name
    (r.1, s.2 && r.2)

/-- `_update_names_core`. -/
def updateNamesCore (field : NameField) (nodes : Py) (s : σ) : Except PyErr (σ × Bool) :=
  if !nodes.truthy then .ok (s, true)
  else
    match nodes with
    | .dict nodeRows =>
      let c := collectSingleNameSnapshot field nodeRows
      let r := c.byId.foldl (writeName ops c.complete) (s, true)
      if !c.currentIds.isEmpty && c.complete && r.2 then
        let stale := ops.deleteStaleNames r.1 c.currentIds
        .ok (stale.1, r.2 && stale.2)
      else .ok r
    | _ => .error .attributeError

end Core

/-- The table of a field. -/
def Db.table (db : Db) : NameField → NameTable
  | .long => db.longnames
  | .short => db.shortnames

def Db.setTable (db : Db) (field : NameField) (t : NameTable) : Db :=
  match field with
  | .long => { db with longnames := t }
  | .short => { db with shortnames := t }

/-- The upsert of `save_longname` and `save_shortname`. -/
def saveName (field : NameField) (db : Db) (id name : String) : Db × Bool :=
  (db.setTable field ((db.table field).upsert (.text id) (.text name)), true)

/-- `_delete_name_by_id`. -/
def deleteNameById (field : NameField) (db : Db) (id : String) : Db × Bool :=
  (db.setTable field ((db.table field).delete (.text id)), true)

/-- `_delete_stale_names`. -/
def deleteStaleNamesOf (field : NameField) (db : Db) (currentIds : List String) : Db × Bool :=
  (db.setTable field (deleteStaleNames (db.table field) currentIds), true)

/-- `save_longname`. -/
def saveLongname : Db → String → String → Db × Bool := saveName .long

/-- `save_shortname`. -/
def saveShortname : Db → String → String → Db × Bool := saveName .short

/-- `delete_longname`. -/
def deleteLongname : Db → String → Db × Bool := deleteNameById .long

/-- `delete_shortname`. -/
def deleteShortname : Db → String → Db × Bool := deleteNameById .short

/-- `update_longnames`. -/
def updateLongnames (nodes : Py) (db : Db) : Except PyErr (Db × Bool) :=
  updateNamesCore ⟨saveLongname, deleteLongname, deleteStaleNamesOf .long⟩ .long nodes db

/-- `update_shortnames`. -/
def updateShortnames (nodes : Py) (db : Db) : Except PyErr (Db × Bool) :=
  updateNamesCore ⟨saveShortname, deleteShortname, deleteStaleNamesOf .short⟩ .short nodes db

/-- The tables after `update_longnames` and then `update_shortnames`. -/
def updateLongThenShort (nodes : Py) (db : Db) : Except PyErr Db := do
  let r ← updateLongnames nodes db
  let r ← updateShortnames nodes r.1
  return r.1

/-- The tables after `update_shortnames` and then `update_longnames`. -/
def updateShortThenLong (nodes : Py) (db : Db) : Except PyErr Db := do
  let r ← updateShortnames nodes db
  let r ← updateLongnames nodes r.1
  return r.1

/-! ## The collectors side by side -/

theorem mergeNodeNameValues_none (v : Option String) : mergeNodeNameValues none v = some v := rfl

namespace Collect

theorem find_put (c : Collect) (entry : NodeNameEntry) (id : String) :
    (c.put entry).find id = if id = entry.meshtasticId then some entry else c.find id := by
  unfold put find
  simp only
  rw [List.find?_append]
  by_cases h : id = entry.meshtasticId
  · have hnone : (c.byId.filter fun e => decide (e.meshtasticId ≠ entry.meshtasticId)).find?
        (fun e => decide (e.meshtasticId = id)) = none := by
      rw [List.find?_eq_none]
      intro e he
      simpa [h] using (List.mem_filter.mp he).2
    rw [hnone, if_pos h]
    simp [h]
  · have hsame : (c.byId.filter fun e => decide (e.meshtasticId ≠ entry.meshtasticId)).find?
        (fun e => decide (e.meshtasticId = id)) =
          c.byId.find? fun e => decide (e.meshtasticId = id) := by
      rw [List.find?_filter]
      congr 1
      funext e
      by_cases he : e.meshtasticId = id
      · simp [he, h]
      · simp [he]
    have hne : ¬ entry.meshtasticId = id := fun heq => h heq.symm
    rw [hsame, if_neg h]
    simp [hne]

theorem find_id {c : Collect} {id : String} {entry : NodeNameEntry} (h : c.find id = some entry) :
    entry.meshtasticId = id := by
  simpa using List.find?_some h

theorem addUser_of_complete {c : Collect} {id : String} {user : Py}
    (h : (c.addUser id user).complete = true) :
    c.complete = true ∧ isNameValue (user.field "longName") = true ∧
      isNameValue (user.field "shortName") = true ∧ ∃ l s,
        mergeNodeNameValues ((c.find id).bind NodeNameEntry.longName)
          (normalizeNodeNameValue (user.field "longName")) = some l ∧
        mergeNodeNameValues ((c.find id).bind NodeNameEntry.shortName)
          (normalizeNodeNameValue (user.field "shortName")) = some s ∧
        c.addUser id user = (c.noteUser id user).put ⟨id, l, s⟩ := by
  have hfind : (c.noteUser id user).find id = c.find id := rfl
  have hnoted : ∀ {b : Bool}, (c.noteUser id user).complete = b → b = true →
      c.complete = true ∧ isNameValue (user.field "longName") = true ∧
        isNameValue (user.field "shortName") = true := by
    rintro b rfl hb
    simpa [noteUser, and_assoc] using hb
  revert h
  unfold addUser
  simp only [hfind]
  cases hentry : c.find id with
  | none =>
    intro h
    obtain ⟨hc, hl, hs⟩ := hnoted rfl h
    exact ⟨hc, hl, hs, _, _, rfl, rfl, rfl⟩
  | some existing =>
    intro h
    have hid := find_id hentry
    simp only [merge, Option.bind_some] at h ⊢
    split at h
    · cases h
    · cases h
    · cases h
    · cases h
    · cases h
    · next l s hl hs =>
      obtain ⟨hc, hlong, hshort⟩ := hnoted rfl h
      rw [hl, hs]
      exact ⟨hc, hlong, hshort, l, s, rfl, rfl, by rw [hid]⟩

end Collect

theorem NameCollect.addName_of_merge {c : NameCollect} {id : String} {raw : Py} {v : Option String}
    (hraw : isNameValue raw = true)
    (h : mergeNodeNameValues (c.byId.lookup id).join (normalizeNodeNameValue raw) = some v) :
    c.addName id raw =
      { c with currentIds := c.currentIds.insert id, byId := dictSet c.byId id v } := by
  unfold addName
  simp only [hraw, Bool.not_true, Bool.false_eq_true, if_false]
  split
  · next hnone =>
    rw [hnone, mergeNodeNameValues_none] at h
    rw [Option.some.inj h]
  · next existing hsome =>
    rw [hsome] at h
    rw [h]

/-- While the snapshot of both fields is complete, the collector of one field holds its
projection. -/
def Follows (field : NameField) (c : Collect) (d : NameCollect) : Prop :=
  c.complete = true → d.complete = true ∧ d.currentIds = c.currentIds ∧ c.skipped = [] ∧
    d.skipped = [] ∧ ∀ id, d.byId.lookup id = (c.find id).map field.get

theorem follows_addName {field : NameField} {c : Collect} {d : NameCollect}
    (h : Follows field c d) (id : String) (user : Py) :
    Follows field (c.addUser id user) (d.addName id (user.field field.key)) := by
  intro hc
  obtain ⟨hc', hl, hs, l, s, hml, hms, hput⟩ := Collect.addUser_of_complete hc
  obtain ⟨hd, hids, hskip, hskip', hlook⟩ := h hc'
  have hjoin : (d.byId.lookup id).join = (c.find id).bind field.get := by
    rw [hlook id]
    cases c.find id <;> rfl
  have hraw : isNameValue (user.field field.key) = true := by
    cases field with
    | long => exact hl
    | short => exact hs
  have hmerge : mergeNodeNameValues (d.byId.lookup id).join
      (normalizeNodeNameValue (user.field field.key)) = some (field.get ⟨id, l, s⟩) := by
    rw [hjoin]
    cases field with
    | long => exact hml
    | short => exact hms
  rw [NameCollect.addName_of_merge hraw hmerge, hput]
  refine ⟨hd, ?_, hskip, hskip', fun id' => ?_⟩
  · change d.currentIds.insert id = c.currentIds.insert id
    rw [hids]
  · rw [lookup_dictSet, Collect.find_put]
    split_ifs
    · rfl
    · exact hlook id'

theorem follows_collectName {field : NameField} {c : Collect} {d : NameCollect}
    (h : Follows field c d) (node : Py) :
    Follows field (collectNode c node) (collectName field d node) := by
  unfold collectNode collectName
  cases node.field "user" with
  | dict user =>
    dsimp only
    cases nodeId (.dict user) with
    | none =>
      intro hc
      cases hc
    | some id =>
      intro hc
      dsimp only at hc ⊢
      by_cases hskip : id ∈ c.skipped
      · -- an id is skipped only in an incomplete snapshot
        rw [if_pos hskip] at hc
        rw [(h hc).2.2.1] at hskip
        cases hskip
      · rw [if_neg hskip] at hc ⊢
        have hskip' : id ∉ d.skipped := by
          rw [(h (Collect.addUser_of_complete hc).1).2.2.2.1]
          exact List.not_mem_nil
        rw [if_neg hskip']
        exact follows_addName h id _ hc
  | _ =>
    intro hc
    cases hc

theorem follows_collect (field : NameField) (nodeRows : List (String × Py)) :
    Follows field (nodeRows.foldl (fun c kv => collectNode c kv.2) ⟨[], [], [], true⟩)
      (collectSingleNameSnapshot field nodeRows) := by
  apply List.foldl_rel
  · exact fun _ => ⟨rfl, rfl, rfl, rfl, fun _ => rfl⟩
  · intro kv _ c d h
    exact follows_collectName h kv.2

/-! ## Keys of the collector -/

theorem nodup_addName {c : NameCollect} (h : (c.byId.map Prod.fst).Nodup) (id : String) (raw : Py) :
    ((c.addName id raw).byId.map Prod.fst).Nodup := by
  unfold NameCollect.addName
  simp only
  split
  · exact h
  · split
    · exact nodup_dictSet h
    · split
      · exact nodup_dictPop h
      · exact nodup_dictSet h

theorem nodup_collectName {field : NameField} {c : NameCollect}
    (h : (c.byId.map Prod.fst).Nodup) (node : Py) :
    ((collectName field c node).byId.map Prod.fst).Nodup := by
  unfold collectName
  split
  · split
    · exact h
    · split_ifs
      · exact h
      · exact nodup_addName h _ _
  · exact h

theorem nodup_foldl_collectName (field : NameField) {c : NameCollect}
    (h : (c.byId.map Prod.fst).Nodup) (nodeRows : List (String × Py)) :
    ((nodeRows.foldl (fun c kv => collectName field c kv.2) c).byId.map Prod.fst).Nodup := by
  induction nodeRows generalizing c with
  | nil => exact h
  | cons kv kvs ih => exact ih (nodup_collectName h kv.2)

theorem nodup_collectSingleNameSnapshot (field : NameField) (nodeRows : List (String × Py)) :
    ((collectSingleNameSnapshot field nodeRows).byId.map Prod.fst).Nodup := by
  apply nodup_foldl_collectName
  exact List.nodup_nil

/-! ## The tables -/

@[simp] theorem Db.table_setTable (db : Db) (field : NameField) (t : NameTable) :
    (db.setTable field t).table field = t := by
  cases field <;> rfl

@[simp] theorem Db.setTable_setTable (db : Db) (field : NameField) (t t' : NameTable) :
    (db.setTable field t).setTable field t' = db.setTable field t' := by
  cases field <;> rfl

@[simp] theorem Db.setTable_table (db : Db) (field : NameField) :
    db.setTable field (db.table field) = db := by
  cases field <;> rfl

/-- The callables of a field. -/
def dbOps (field : NameField) : NameOps Db :=
  ⟨saveName field, deleteNameById field, deleteStaleNamesOf field⟩

theorem writeName_dbOps (field : NameField) (db : Db) (item : String × Option String) :
    writeName (dbOps field) true (db, true) item =
      (db.setTable field (applyName true (db.table field) item.1 item.2), true) := by
  obtain ⟨id, name⟩ := item
  cases name with
  | none => rfl
  | some name => rfl

theorem foldl_writeName (field : NameField) (db : Db) (items : List (String × Option String)) :
    items.foldl (writeName (dbOps field) true) (db, true) =
      (db.setTable field (applyPairs (db.table field) items), true) := by
  unfold applyPairs
  induction items generalizing db with
  | nil => simp
  | cons item items ih =>
    rw [List.foldl_cons, List.foldl_cons, writeName_dbOps, ih, Db.table_setTable,
      Db.setTable_setTable]

theorem updateNamesCore_dbOps {field : NameField} {nodeRows : List (String × Py)} {db : Db}
    (hne : nodeRows ≠ []) (hc : (collectSingleNameSnapshot field nodeRows).complete = true)
    (hids : (collectSingleNameSnapshot field nodeRows).currentIds ≠ []) :
    updateNamesCore (dbOps field) field (.dict nodeRows) db =
      .ok (db.setTable field (deleteStaleNames
        (applyPairs (db.table field) (collectSingleNameSnapshot field nodeRows).byId)
        (collectSingleNameSnapshot field nodeRows).currentIds), true) := by
  have htruthy : (Py.dict nodeRows).truthy = true := by
    simpa [Py.truthy] using hne
  unfold updateNamesCore
  rw [htruthy]
  simp only [Bool.not_true, Bool.false_eq_true, if_false, hc, foldl_writeName, Bool.and_true]
  rw [if_pos (by simpa using hids)]
  simp [dbOps, deleteStaleNamesOf]

/-! ## The same statements -/

theorem Collect.find_eq_some_iff {c : Collect} (h : CollectInv c) {id : String}
    {entry : NodeNameEntry} :
    c.find id = some entry ↔ entry ∈ c.byId ∧ entry.meshtasticId = id := by
  constructor
  · intro hfind
    exact ⟨List.mem_of_find?_eq_some hfind, find_id hfind⟩
  · rintro ⟨hmem, rfl⟩
    obtain ⟨entry', hfind⟩ : ∃ entry', c.find entry.meshtasticId = some entry' := by
      rw [← Option.isSome_iff_exists]
      unfold find
      rw [List.find?_isSome]
      exact ⟨entry, hmem, decide_eq_true rfl⟩
    have heq := List.inj_on_of_nodup_map h.nodup (List.mem_of_find?_eq_some hfind) hmem
      (find_id hfind)
    rw [hfind, heq]

theorem mem_byId_iff (field : NameField) {nodeRows : List (String × Py)}
    (hc : (collectNodeNameSnapshot (.dict nodeRows)).complete = true)
    (item : String × Option String) :
    item ∈ (collectSingleNameSnapshot field nodeRows).byId ↔
      item ∈ (collectNodeNameSnapshot (.dict nodeRows)).state.map fun entry =>
        (entry.meshtasticId, field.get entry) := by
  have hinv := collect_inv collect_start nodeRows
  obtain ⟨-, -, -, -, hlook⟩ := follows_collect field nodeRows hc
  obtain ⟨id, name⟩ := item
  rw [← lookup_eq_some_iff_mem (nodup_collectSingleNameSnapshot field nodeRows), hlook id,
    Option.map_eq_some_iff, List.mem_map]
  refine exists_congr fun entry => ?_
  rw [Collect.find_eq_some_iff hinv, Prod.mk.injEq, and_assoc]
  refine and_congr_left' ?_
  exact mem_sortEntries.symm

theorem mem_applyPairs_congr {t : NameTable} {pairs pairs' : List (String × Option String)}
    (hn : (pairs.map Prod.fst).Nodup) (hn' : (pairs'.map Prod.fst).Nodup)
    (h : ∀ item, item ∈ pairs ↔ item ∈ pairs') (r : Option Key × Cell) :
    r ∈ (applyPairs t pairs).rows ↔ r ∈ (applyPairs t pairs').rows := by
  rw [mem_applyPairs hn, mem_applyPairs hn']
  simp only [h]

@[simp] theorem keyless_applyPairs (t : NameTable) (pairs : List (String × Option String)) :
    (applyPairs t pairs).keyless = t.keyless := by
  unfold applyPairs
  induction pairs generalizing t with
  | nil => rfl
  | cons p ps ih =>
    rw [List.foldl_cons, ih]
    cases hname : p.2 with
    | none => simp [applyName]
    | some n => simp [applyName]

@[simp] theorem keyless_deleteStaleNames (t : NameTable) (currentIds : List String) :
    (deleteStaleNames t currentIds).keyless = t.keyless :=
  Table.keyless_deleteAll t _

theorem applyPairs_sameRows (field : NameField) {nodeRows : List (String × Py)}
    (hc : (collectNodeNameSnapshot (.dict nodeRows)).complete = true) (t : NameTable) :
    (deleteStaleNames (applyPairs t (collectSingleNameSnapshot field nodeRows).byId)
        (collectSingleNameSnapshot field nodeRows).currentIds).SameRows
      (deleteStaleNames
        (applyNames t (collectNodeNameSnapshot (.dict nodeRows)).state field.get)
        (collectNodeNameSnapshot (.dict nodeRows)).currentIds) := by
  have hids : (collectSingleNameSnapshot field nodeRows).currentIds =
      (collectNodeNameSnapshot (.dict nodeRows)).currentIds :=
    (follows_collect field nodeRows hc).2.1
  have hn : (((collectNodeNameSnapshot (.dict nodeRows)).state.map fun entry =>
      (entry.meshtasticId, field.get entry)).map Prod.fst).Nodup := by
    rw [List.map_map]
    exact state_ids_nodup _
  rw [applyNames_eq_applyPairs, hids]
  apply Table.sameRows_of_mem_iff
  · simp
  · intro r
    rw [mem_deleteStaleNames, mem_deleteStaleNames,
      mem_applyPairs_congr (nodup_collectSingleNameSnapshot field nodeRows) hn
        (mem_byId_iff field hc)]

/-! ## Agreement -/

theorem currentIds_collectNode_ne_nil {field : NameField} {c : Collect} {d : NameCollect}
    (hf : Follows field c d) {node : Py} (h : (collectNode c node).complete = true) :
    (collectNode c node).currentIds ≠ [] := by
  revert h
  unfold collectNode
  split
  · split
    · intro h
      cases h
    · next id _ =>
      intro h
      by_cases hskip : id ∈ c.skipped
      · rw [if_pos hskip] at h
        rw [(hf h).2.2.1] at hskip
        cases hskip
      · rw [if_neg hskip] at h ⊢
        obtain ⟨-, -, -, l, s, -, -, hput⟩ := Collect.addUser_of_complete h
        rw [hput]
        exact List.ne_nil_of_mem (List.mem_insert_self (a := id))
  · intro h
    cases h

theorem currentIds_ne_nil {nodeRows : List (String × Py)} (hne : nodeRows ≠ [])
    (hc : (collectNodeNameSnapshot (.dict nodeRows)).complete = true) :
    (collectNodeNameSnapshot (.dict nodeRows)).currentIds ≠ [] := by
  obtain ⟨first, last, rfl⟩ := (List.eq_nil_or_concat nodeRows).resolve_left hne
  unfold collectNodeNameSnapshot at hc ⊢
  simp only [List.concat_eq_append, List.foldl_append, List.foldl_cons, List.foldl_nil] at hc ⊢
  exact currentIds_collectNode_ne_nil (follows_collect .long first) hc

/-- The tables hold the same rows. -/
def Db.SameContents (db db' : Db) : Prop :=
  db.longnames.SameRows db'.longnames ∧ db.shortnames.SameRows db'.shortnames

theorem updateNamesCore_complete {field : NameField} {nodeRows : List (String × Py)} {db : Db}
    (hne : nodeRows ≠ []) (hc : (collectNodeNameSnapshot (.dict nodeRows)).complete = true) :
    updateNamesCore (dbOps field) field (.dict nodeRows) db =
      .ok (db.setTable field (deleteStaleNames
        (applyPairs (db.table field) (collectSingleNameSnapshot field nodeRows).byId)
        (collectSingleNameSnapshot field nodeRows).currentIds), true) := by
  obtain ⟨hd, hids, -⟩ := follows_collect field nodeRows hc
  have hcurrent : (collectSingleNameSnapshot field nodeRows).currentIds ≠ [] := by
    rw [hids]
    exact currentIds_ne_nil hne hc
  exact updateNamesCore_dbOps hne hd hcurrent

theorem syncNameTablesIfChanged_first {nodeRows : List (String × Py)} (hne : nodeRows ≠ [])
    (hc : (collectNodeNameSnapshot (.dict nodeRows)).complete = true) (db : Db) :
    (syncNameTablesIfChanged db (.dict nodeRows) none).1 =
      syncNameTables db (collectNodeNameSnapshot (.dict nodeRows)).state
        (collectNodeNameSnapshot (.dict nodeRows)).currentIds true := by
  have hstate : (collectNodeNameSnapshot (.dict nodeRows)).state ≠ [] := by
    obtain ⟨id, hid⟩ := List.exists_mem_of_ne_nil _ (currentIds_ne_nil hne hc)
    obtain ⟨entry, he, -⟩ := (mem_currentIds_of_complete hc id).mp hid
    exact List.ne_nil_of_mem he
  rw [syncNameTablesIfChanged_of_complete rfl hc hstate, if_neg (by simp)]

/-- **Agreement.** After a complete snapshot the two updates, in either order, leave the contents
that the synchronisation of both tables leaves. -/
theorem updates_agree (db : Db) (nodes : Py)
    (hc : (collectNodeNameSnapshot nodes).complete = true) :
    (∃ after, updateLongThenShort nodes db = .ok after ∧
      after.SameContents (syncNameTablesIfChanged db nodes none).1) ∧
    ∃ after, updateShortThenLong nodes db = .ok after ∧
      after.SameContents (syncNameTablesIfChanged db nodes none).1 := by
  obtain ⟨nodeRows, rfl⟩ : ∃ nodeRows, nodes = .dict nodeRows := by
    unfold collectNodeNameSnapshot at hc
    split at hc
    · exact ⟨_, rfl⟩
    · cases hc
  by_cases hne : nodeRows = []
  · -- neither implementation touches the tables
    subst hne
    exact ⟨⟨db, rfl, List.Perm.refl _, List.Perm.refl _⟩, db, rfl, List.Perm.refl _,
      List.Perm.refl _⟩
  · have hlong : ∀ db, updateLongnames (.dict nodeRows) db = .ok _ := fun db =>
      @updateNamesCore_complete .long nodeRows db hne hc
    have hshort : ∀ db, updateShortnames (.dict nodeRows) db = .ok _ := fun db =>
      @updateNamesCore_complete .short nodeRows db hne hc
    rw [syncNameTablesIfChanged_first hne hc]
    unfold updateLongThenShort updateShortThenLong syncNameTables
    rw [foldl_applyEntry, if_pos rfl]
    refine ⟨⟨_, except_bind_eq_ok.mpr ⟨_, hlong db, except_bind_eq_ok.mpr ⟨_, hshort _, rfl⟩⟩, ?_⟩,
      _, except_bind_eq_ok.mpr ⟨_, hshort db, except_bind_eq_ok.mpr ⟨_, hlong _, rfl⟩⟩, ?_⟩
    · exact ⟨applyPairs_sameRows .long hc _, applyPairs_sameRows .short hc _⟩
    · exact ⟨applyPairs_sameRows .long hc _, applyPairs_sameRows .short hc _⟩

/-- Two records of the node `5`, the first with an integer id, beside a node with a blank name. -/
def duplicateNodes : Py :=
  .dict [("a", .dict [("user", .dict [("id", .int 5), ("longName", .str "Five")])]),
    ("b", .dict [("user", .dict [("id", .str "5"), ("shortName", .str "5")])]),
    ("c", .dict [("user", .dict [("id", .str "A"), ("longName", .str "")])])]

theorem updates_agree_duplicates :
    (∃ after, updateLongThenShort duplicateNodes oldNames = .ok after ∧
      after.SameContents (syncNameTablesIfChanged oldNames duplicateNodes none).1) ∧
    ∃ after, updateShortThenLong duplicateNodes oldNames = .ok after ∧
      after.SameContents (syncNameTablesIfChanged oldNames duplicateNodes none).1 :=
  updates_agree oldNames duplicateNodes (by decide +kernel)

end MMRelay.Names
