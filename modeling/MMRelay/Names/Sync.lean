import MMRelay.Lib.Table
import MMRelay.Names.Snapshot

/-!
# Synchronising the name tables

`sync_name_tables_if_changed` (`db_utils.py`) with its two transactions
`_sync_name_tables_atomic` and `_prune_stale_name_rows_atomic` and the drift check
`_name_tables_match_state`, for calls without a database error.

* `Key`, `Cell`, `NameTable`, `Db`: the tables `longnames` and `shortnames`;
* `deleteStaleNames`, `applyName`, `syncNameTables`, `pruneStaleNameRows`;
* `nameTableMatchesState`, `mergeWithPrevious`, `syncNameTablesIfChanged`, `runSyncs`;
* **`mem_syncNameTables`**: what a complete synchronisation leaves in a table.
-/

namespace MMRelay.Names

/-- A value of the key column that is not `NULL`. -/
inductive Key
  | text (s : String)
  | blob (bytes : List UInt8)
  deriving DecidableEq

/-- A value of the name column. -/
inductive Cell
  | null
  | text (s : String)
  | blob (bytes : List UInt8)
  deriving DecidableEq

abbrev NameTable := Table Key Cell

structure Db where
  longnames : NameTable
  shortnames : NameTable

/-! ## Transactions -/

/-- `all_db_ids - current_ids`, without `NULL`, which no `DELETE … WHERE key = ?` matches. -/
def staleIds (t : NameTable) (currentIds : List String) : List Key :=
  (t.rows.filterMap Prod.fst).filter fun k => ¬ ∃ id ∈ currentIds, k = .text id

/-- `_delete_stale_names_core`. -/
def deleteStaleNames (t : NameTable) (currentIds : List String) : NameTable :=
  t.deleteAll (staleIds t currentIds)

/-- The statement of the loop of `_sync_name_tables_atomic` for one table. -/
def applyName (complete : Bool) (t : NameTable) (id : String) : Option String → NameTable
  | none => if complete then t.delete (.text id) else t
  | some name => t.upsert (.text id) (.text name)

/-- One turn of that loop. -/
def applyEntry (complete : Bool) (db : Db) (entry : NodeNameEntry) : Db :=
  ⟨applyName complete db.longnames entry.meshtasticId entry.longName,
    applyName complete db.shortnames entry.meshtasticId entry.shortName⟩

/-- `_prune_stale_name_rows_atomic`. -/
def pruneStaleNameRows (db : Db) (currentIds : List String) : Db :=
  ⟨deleteStaleNames db.longnames currentIds, deleteStaleNames db.shortnames currentIds⟩

/-- `_sync_name_tables_atomic`. -/
def syncNameTables (db : Db) (state : NodeNameState) (currentIds : List String)
    (complete : Bool) : Db :=
  let db := state.foldl (applyEntry complete) db
  if complete then pruneStaleNameRows db currentIds else db

/-! ## The drift check -/

/-- `_normalize_node_name_value` of a stored value. -/
def normalizeCell : Cell → Option String
  | .text s => if s.isEmpty then none else some s
  | _ => none

/-- `_name_table_matches_state`; an entry without a name is not looked at. -/
def nameTableMatchesState (t : NameTable) (state : NodeNameState)
    (getName : NodeNameEntry → Option String) : Bool :=
  state.all fun entry =>
    match getName entry with
    | none => true
    | some expected => (t.get? (.text entry.meshtasticId)).bind normalizeCell == some expected

/-- `_name_tables_match_state`. -/
def nameTablesMatchState (db : Db) (state : NodeNameState) : Bool :=
  nameTableMatchesState db.longnames state NodeNameEntry.longName &&
    nameTableMatchesState db.shortnames state NodeNameEntry.shortName

/-! ## The call -/

/-- An entry of an incomplete snapshot keeps the previous names that it lacks. -/
def keepPrevious (previous : NodeNameState) (entry : NodeNameEntry) : NodeNameEntry :=
  match previous.find? fun e => e.meshtasticId = entry.meshtasticId with
  | none => entry
  | some prev => ⟨entry.meshtasticId, entry.longName.or prev.longName,
      entry.shortName.or prev.shortName⟩

/-- The state of an incomplete snapshot, with the entries that it misses. -/
def mergeWithPrevious (current previous : NodeNameState) : NodeNameState :=
  sortEntries (current.map (keepPrevious previous) ++
    previous.filter fun e => ¬ ∃ entry ∈ current, entry.meshtasticId = e.meshtasticId)

/-- `current_state` of a call. -/
def currentState (snapshot : Snapshot) (previous : Option NodeNameState) : NodeNameState :=
  match previous with
  | some p => if snapshot.complete then snapshot.state else mergeWithPrevious snapshot.state p
  | none => snapshot.state

/-- `sync_name_tables_if_changed`. -/
def syncNameTablesIfChanged (db : Db) (nodes : Py) (previous : Option NodeNameState) :
    Db × Option NodeNameState :=
  match nodes with
  | .dict [] => (db, previous)
  | .dict _ =>
    let snapshot := collectNodeNameSnapshot nodes
    let current := currentState snapshot previous
    if !snapshot.complete && current.isEmpty then (db, previous)
    else if previous = some current then
      let db := if snapshot.complete then pruneStaleNameRows db snapshot.currentIds else db
      if nameTablesMatchState db current then (db, some current)
      else (syncNameTables db current snapshot.currentIds snapshot.complete, some current)
    else (syncNameTables db current snapshot.currentIds snapshot.complete, some current)
  | _ => (db, previous)

/-- A history of calls; each receives the state that the one before returned. -/
def runSyncs (start : Db × Option NodeNameState) (history : List Py) :
    Db × Option NodeNameState :=
  history.foldl (fun s nodes => syncNameTablesIfChanged s.1 nodes s.2) start

/-! ## What a transaction leaves -/

section Tables

variable {t : NameTable} {r : Option Key × Cell}

theorem mem_deleteStaleNames {currentIds : List String} :
    r ∈ (deleteStaleNames t currentIds).rows ↔
      r ∈ t.rows ∧ (r.1 = none ∨ ∃ id ∈ currentIds, r.1 = some (.text id)) := by
  unfold deleteStaleNames
  rw [Table.mem_deleteAll]
  refine and_congr_right fun hr => ?_
  constructor
  · intro h
    cases hk : r.1 with
    | none => exact Or.inl rfl
    | some k =>
      refine Or.inr ?_
      by_contra hno
      refine h k ?_ hk
      simp only [staleIds, List.mem_filter, List.mem_filterMap, decide_eq_true_eq]
      refine ⟨⟨r, hr, hk⟩, ?_⟩
      rintro ⟨id, hid, rfl⟩
      exact hno ⟨id, hid, rfl⟩
  · rintro h k hk hrk
    simp only [staleIds, List.mem_filter, decide_eq_true_eq] at hk
    rcases h with h | ⟨id, hid, h⟩
    · rw [h] at hrk
      cases hrk
    · rw [h] at hrk
      exact hk.2 ⟨id, hid, (Option.some.inj hrk).symm⟩

/-- The names that a state asks for. -/
def Wanted (state : NodeNameState) (getName : NodeNameEntry → Option String)
    (r : Option Key × Cell) : Prop :=
  ∃ entry ∈ state, ∃ name, getName entry = some name ∧
    r = (some (.text entry.meshtasticId), .text name)

/-- The statements of a complete snapshot for one table. -/
def applyNames (t : NameTable) (state : NodeNameState)
    (getName : NodeNameEntry → Option String) : NameTable :=
  state.foldl (fun t entry => applyName true t entry.meshtasticId (getName entry)) t

theorem mem_applyName {id : String} {name : Option String} :
    r ∈ (applyName true t id name).rows ↔ (r ∈ t.rows ∧ r.1 ≠ some (.text id)) ∨
      ∃ n, name = some n ∧ r = (some (.text id), .text n) := by
  cases name with
  | none => simp [applyName, Table.mem_delete]
  | some n => simp [applyName, Table.mem_upsert]

/-- The statements of a complete snapshot for one table, as pairs of an id and its name. -/
def applyPairs (t : NameTable) (pairs : List (String × Option String)) : NameTable :=
  pairs.foldl (fun t p => applyName true t p.1 p.2) t

theorem mem_applyPairs {pairs : List (String × Option String)} (hn : (pairs.map Prod.fst).Nodup) :
    r ∈ (applyPairs t pairs).rows ↔
      (r ∈ t.rows ∧ ∀ p ∈ pairs, r.1 ≠ some (.text p.1)) ∨
        ∃ id n, (id, some n) ∈ pairs ∧ r = (some (.text id), .text n) := by
  unfold applyPairs
  induction pairs generalizing t with
  | nil => simp
  | cons p ps ih =>
    rw [List.map_cons, List.nodup_cons] at hn
    obtain ⟨hnew, hn⟩ := hn
    rw [List.foldl_cons, ih hn, mem_applyName]
    constructor
    · rintro (⟨(⟨hr, hne⟩ | ⟨n, hname, rfl⟩), hrest⟩ | ⟨id, n, hmem, hr⟩)
      · refine Or.inl ⟨hr, fun p' hp' => ?_⟩
        rcases List.mem_cons.mp hp' with rfl | hp'
        · exact hne
        · exact hrest p' hp'
      · exact Or.inr ⟨p.1, n, hname ▸ List.mem_cons_self, rfl⟩
      · exact Or.inr ⟨id, n, List.mem_cons_of_mem _ hmem, hr⟩
    · rintro (⟨hr, hall⟩ | ⟨id, n, hmem, rfl⟩)
      · exact Or.inl ⟨Or.inl ⟨hr, hall p List.mem_cons_self⟩,
          fun p' hp' => hall p' (List.mem_cons_of_mem _ hp')⟩
      · rcases List.mem_cons.mp hmem with rfl | hmem
        · refine Or.inl ⟨Or.inr ⟨n, rfl, rfl⟩, fun p' hp' heq => hnew ?_⟩
          -- a later pair with the same id would repeat it
          rw [Option.some.injEq, Key.text.injEq] at heq
          exact List.mem_map.mpr ⟨p', hp', heq.symm⟩
        · exact Or.inr ⟨id, n, hmem, rfl⟩

theorem applyNames_eq_applyPairs (t : NameTable) (state : NodeNameState)
    (getName : NodeNameEntry → Option String) :
    applyNames t state getName =
      applyPairs t (state.map fun entry => (entry.meshtasticId, getName entry)) := by
  unfold applyNames applyPairs
  rw [List.foldl_map]

theorem mem_applyNames {state : NodeNameState} {getName : NodeNameEntry → Option String}
    (hn : (state.map NodeNameEntry.meshtasticId).Nodup) :
    r ∈ (applyNames t state getName).rows ↔
      (r ∈ t.rows ∧ ∀ entry ∈ state, r.1 ≠ some (.text entry.meshtasticId)) ∨
        Wanted state getName r := by
  have hpairs : ((state.map fun entry => (entry.meshtasticId, getName entry)).map
      Prod.fst).Nodup := by
    rw [List.map_map]
    exact hn
  rw [applyNames_eq_applyPairs, mem_applyPairs hpairs]
  unfold Wanted
  rw [List.forall_mem_map]
  refine or_congr_right ?_
  simp only [List.mem_map, Prod.mk.injEq]
  constructor
  · rintro ⟨id, n, ⟨entry, he, rfl, hname⟩, hr⟩
    exact ⟨entry, he, n, hname, hr⟩
  · rintro ⟨entry, he, n, hname, hr⟩
    exact ⟨_, n, ⟨entry, he, rfl, hname⟩, hr⟩

theorem foldl_applyEntry (db : Db) (state : NodeNameState) :
    state.foldl (applyEntry true) db =
      ⟨applyNames db.longnames state NodeNameEntry.longName,
        applyNames db.shortnames state NodeNameEntry.shortName⟩ := by
  unfold applyNames
  induction state generalizing db with
  | nil => rfl
  | cons e es ih => rw [List.foldl_cons, ih]; rfl

/-- **A complete synchronisation** leaves the wanted names and the rows without a key. -/
theorem mem_syncNameTables {state : NodeNameState} {currentIds : List String}
    {getName : NodeNameEntry → Option String}
    (hn : (state.map NodeNameEntry.meshtasticId).Nodup)
    (hids : ∀ id, id ∈ currentIds ↔ ∃ entry ∈ state, entry.meshtasticId = id) :
    r ∈ (deleteStaleNames (applyNames t state getName) currentIds).rows ↔
      (r ∈ t.rows ∧ r.1 = none) ∨ Wanted state getName r := by
  rw [mem_deleteStaleNames, mem_applyNames hn]
  constructor
  · rintro ⟨⟨hr, hall⟩ | hw, hk⟩
    · rcases hk with hk | ⟨id, hid, hk⟩
      · exact Or.inl ⟨hr, hk⟩
      · obtain ⟨entry, he, rfl⟩ := (hids id).mp hid
        exact absurd hk (hall entry he)
    · exact Or.inr hw
  · rintro (⟨hr, hk⟩ | hw)
    · exact ⟨Or.inl ⟨hr, fun entry _ => by rw [hk]; exact fun h => by cases h⟩, Or.inl hk⟩
    · refine ⟨Or.inr hw, Or.inr ?_⟩
      obtain ⟨entry, he, n, -, rfl⟩ := hw
      exact ⟨entry.meshtasticId, (hids _).mpr ⟨entry, he, rfl⟩, rfl⟩

end Tables

end MMRelay.Names
