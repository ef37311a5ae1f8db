import MMRelay.Names.Convergence

/-!
# Failing transactions in a synchronisation

`sync_name_tables_if_changed` (`db_utils.py`) when its transactions and reads may fail at any
statement; `DatabaseManager.write` (`db_runtime.py`) commits when the statements have been executed
and rolls back otherwise.

* `execute`, `write`: transactions;
* `Faults`, `SyncResult`, `syncWithFaults`: the call;
* `syncWithFaults_none`: without faults it is the call of `Names.Sync`;
* `Kept`, `kept_syncNameTables`: what an incomplete snapshot writes deletes nothing;
* **`sync_fails_safe`**: an incomplete snapshot deletes no row, and a call that returns early
  because of a failed transaction leaves the tables as they were, or pruned;
* `pruned_unrepaired`: a call whose second transaction fails after the first one.
-/

namespace MMRelay.Names

/-! ## Transactions -/

/-- Execute statements up to the one that fails, the commit being the last one; `none` is no
failure. The answer is whether all was executed. -/
def execute {σ : Type} (stmts : List (σ → σ)) (fault : Option ℕ) (s : σ) : σ × Bool :=
  match fault with
  | none => (stmts.foldl (fun s stmt => stmt s) s, true)
  | some k => ((stmts.take k).foldl (fun s stmt => stmt s) s, false)

/-- `manager.run_sync(…, write=True)`. -/
def write {σ : Type} (stmts : List (σ → σ)) (fault : Option ℕ) (s : σ) : σ × Bool :=
  let r := execute stmts fault s
  if r.2 then r else (s, false)

/-- The statements of `_prune_stale_name_rows_atomic`. -/
def pruneStatements (currentIds : List String) : List (Db → Db) :=
  [fun db => { db with longnames := deleteStaleNames db.longnames currentIds },
    fun db => { db with shortnames := deleteStaleNames db.shortnames currentIds }]

/-- The statements of an entry. -/
def entryStatements (complete : Bool) (entry : NodeNameEntry) : List (Db → Db) :=
  [fun db => { db with longnames := applyName complete db.longnames entry.meshtasticId entry.longName },
    fun db =>
      { db with shortnames := applyName complete db.shortnames entry.meshtasticId entry.shortName }]

/-- The statements of `_sync_name_tables_atomic`. -/
def syncStatements (state : NodeNameState) (currentIds : List String) (complete : Bool) :
    List (Db → Db) :=
  state.flatMap (entryStatements complete) ++ if complete then pruneStatements currentIds else []

/-! ## The call -/

/-- Where the reads and transactions of a call fail. -/
structure Faults where
  prune : Option ℕ
  readLong : Bool
  readShort : Bool
  sync : Option ℕ

/-- What a call leaves and returns, and whether it returns because a transaction failed. -/
structure SyncResult where
  db : Db
  returned : Option NodeNameState
  failed : Bool

/-- `_name_tables_match_state`; a table that cannot be read does not match. -/
def driftCheck (faults : Faults) (db : Db) (state : NodeNameState) : Bool :=
  state.isEmpty ||
    (!faults.readLong && nameTableMatchesState db.longnames state NodeNameEntry.longName &&
      (!faults.readShort && nameTableMatchesState db.shortnames state NodeNameEntry.shortName))

/-- `return current_state` if `_sync_name_tables_atomic` succeeds, else `return previous_state`. -/
def syncOrPrevious (faults : Faults) (db : Db) (snapshot : Snapshot) (current : NodeNameState)
    (previous : Option NodeNameState) : SyncResult :=
  let r := write (syncStatements current snapshot.currentIds snapshot.complete) faults.sync db
  if r.2 then ⟨r.1, some current, false⟩ else ⟨r.1, previous, true⟩

/-- `sync_name_tables_if_changed` with these faults. -/
def syncWithFaults (faults : Faults) (db : Db) (nodes : Py) (previous : Option NodeNameState) :
    SyncResult :=
  match nodes with
  | .dict [] => ⟨db, previous, false⟩
  | .dict _ =>
    let snapshot := collectNodeNameSnapshot nodes
    let current := currentState snapshot previous
    if !snapshot.complete && current.isEmpty then ⟨db, previous, false⟩
    else if previous = some current then
      let pruned :=
        if snapshot.complete then write (pruneStatements snapshot.currentIds) faults.prune db
        else (db, true)
      if !pruned.2 then ⟨pruned.1, previous, true⟩
      else if driftCheck faults pruned.1 current then ⟨pruned.1, some current, false⟩
      else syncOrPrevious faults pruned.1 snapshot current previous
    else syncOrPrevious faults db snapshot current previous
  | _ => ⟨db, previous, false⟩

/-! ## Without faults -/

section Transactions

variable {σ : Type} {stmts : List (σ → σ)} {fault : Option ℕ} {s : σ}

theorem write_none : write stmts none s = (stmts.foldl (fun s stmt => stmt s) s, true) := rfl

/-- **Atomicity.** A transaction that fails leaves nothing. -/
theorem write_failed (h : (write stmts fault s).2 = false) : (write stmts fault s).1 = s := by
  cases fault with
  | none => cases h
  | some k => rfl

theorem write_succeeded (h : (write stmts fault s).2 = true) : fault = none := by
  cases fault with
  | none => rfl
  | some k => cases h

end Transactions

theorem foldl_pruneStatements (db : Db) (currentIds : List String) :
    (pruneStatements currentIds).foldl (fun db stmt => stmt db) db =
      pruneStaleNameRows db currentIds := rfl

theorem foldl_syncStatements (db : Db) (state : NodeNameState) (currentIds : List String)
    (complete : Bool) :
    (syncStatements state currentIds complete).foldl (fun db stmt => stmt db) db =
      syncNameTables db state currentIds complete := by
  unfold syncStatements syncNameTables
  rw [List.foldl_append, List.foldl_flatMap]
  have hentry : state.foldl
      (fun db entry => (entryStatements complete entry).foldl (fun db stmt => stmt db) db) db =
        state.foldl (applyEntry complete) db := rfl
  rw [hentry]
  cases complete with
  | true => rfl
  | false => rfl

theorem driftCheck_of_reads {faults : Faults} (hl : faults.readLong = false)
    (hs : faults.readShort = false) (db : Db) (state : NodeNameState) :
    driftCheck faults db state = nameTablesMatchState db state := by
  unfold driftCheck nameTablesMatchState
  rw [hl, hs]
  cases state with
  | nil => rfl
  | cons entry state => simp

/-- Without faults the call is the one of `Names.Sync`. -/
theorem syncWithFaults_none (db : Db) (nodes : Py) (previous : Option NodeNameState) :
    syncWithFaults ⟨none, false, false, none⟩ db nodes previous =
      ⟨(syncNameTablesIfChanged db nodes previous).1,
        (syncNameTablesIfChanged db nodes previous).2, false⟩ := by
  unfold syncWithFaults syncNameTablesIfChanged
  cases nodes with
  | dict kvs =>
    cases kvs with
    | nil => rfl
    | cons kv kvs =>
      dsimp only
      generalize collectNodeNameSnapshot (.dict (kv :: kvs)) = snapshot
      unfold syncOrPrevious
      simp only [write_none, foldl_syncStatements, foldl_pruneStatements,
        @driftCheck_of_reads ⟨none, false, false, none⟩ rfl rfl, if_true]
      cases snapshot.complete with
      | true => simp only [if_true, Bool.not_true, Bool.false_eq_true, if_false]; split_ifs <;> rfl
      | false => simp only [Bool.not_true, Bool.false_eq_true, if_false]; split_ifs <;> rfl
  | _ => rfl

/-! ## Nothing is deleted -/

/-- Every row is still there, perhaps with another name. -/
def Kept (t t' : NameTable) : Prop :=
  t'.keyless = t.keyless ∧ ∀ k, t.hasKey k = true → t'.hasKey k = true

theorem Kept.refl (t : NameTable) : Kept t t := ⟨rfl, fun _ h => h⟩

theorem Kept.trans {t t' t'' : NameTable} (h : Kept t t') (h' : Kept t' t'') : Kept t t'' :=
  ⟨h'.1.trans h.1, fun k hk => h'.2 k (h.2 k hk)⟩

theorem kept_applyName (t : NameTable) (id : String) (name : Option String) :
    Kept t (applyName false t id name) := by
  cases name with
  | none => exact Kept.refl t
  | some n =>
    refine ⟨Table.keyless_upsert t _ _, fun k hk => ?_⟩
    obtain ⟨v, hv⟩ := Table.hasKey_iff.mp hk
    rw [Table.hasKey_iff]
    by_cases hid : some k = some (Key.text id)
    · exact ⟨.text n, Table.mem_upsert.mpr (Or.inr (by rw [hid]))⟩
    · exact ⟨v, Table.mem_upsert.mpr (Or.inl ⟨hv, hid⟩)⟩

/-- Every row of both tables is still there. -/
def Db.Kept (db db' : Db) : Prop :=
  Names.Kept db.longnames db'.longnames ∧ Names.Kept db.shortnames db'.shortnames

theorem Db.Kept.refl (db : Db) : db.Kept db := ⟨Names.Kept.refl _, Names.Kept.refl _⟩

/-- What an incomplete snapshot writes deletes nothing. -/
theorem kept_syncNameTables (db : Db) (state : NodeNameState) (currentIds : List String) :
    db.Kept (syncNameTables db state currentIds false) := by
  unfold syncNameTables
  rw [if_neg Bool.false_ne_true]
  induction state generalizing db with
  | nil => exact Db.Kept.refl db
  | cons entry state ih =>
    obtain ⟨hl, hs⟩ := ih (applyEntry false db entry)
    exact ⟨(kept_applyName _ _ _).trans hl, (kept_applyName _ _ _).trans hs⟩

/-! ## The call -/

section Call

variable (faults : Faults) (db : Db) (snapshot : Snapshot) (current : NodeNameState)
  (previous : Option NodeNameState)

theorem kept_syncOrPrevious (hc : snapshot.complete = false) :
    db.Kept (syncOrPrevious faults db snapshot current previous).db := by
  unfold syncOrPrevious
  rw [hc]
  cases hok : (write (syncStatements current snapshot.currentIds false) faults.sync db).2 with
  | true =>
    rw [write_succeeded hok, write_none, foldl_syncStatements]
    exact kept_syncNameTables db current snapshot.currentIds
  | false =>
    simp only [hok, Bool.false_eq_true, if_false]
    rw [write_failed hok]
    exact Db.Kept.refl db

theorem syncOrPrevious_failed
    (h : (syncOrPrevious faults db snapshot current previous).failed = true) :
    (syncOrPrevious faults db snapshot current previous).returned = previous ∧
      (syncOrPrevious faults db snapshot current previous).db = db := by
  unfold syncOrPrevious at h ⊢
  cases hok : (write (syncStatements current snapshot.currentIds snapshot.complete)
      faults.sync db).2 with
  | true =>
    simp only [hok, if_true] at h
    cases h
  | false =>
    simp only [hok, Bool.false_eq_true, if_false]
    exact ⟨trivial, write_failed hok⟩

end Call

/-- The unchanged-state path of a complete snapshot, whose first transaction has succeeded. -/
def PrunedFirst (faults : Faults) (nodes : Py) (previous : Option NodeNameState) : Prop :=
  (collectNodeNameSnapshot nodes).complete = true ∧
    previous = some (collectNodeNameSnapshot nodes).state ∧ faults.prune = none

theorem syncWithFaults_of_incomplete (faults : Faults) (db : Db) (kv : String × Py)
    (kvs : List (String × Py)) (previous : Option NodeNameState)
    (hc : (collectNodeNameSnapshot (.dict (kv :: kvs))).complete = false) :
    ∃ failed returned, (failed = true → returned = previous) ∧
      (syncWithFaults faults db (.dict (kv :: kvs)) previous = ⟨db, returned, failed⟩ ∨
        syncWithFaults faults db (.dict (kv :: kvs)) previous =
          syncOrPrevious faults db (collectNodeNameSnapshot (.dict (kv :: kvs)))
            (currentState (collectNodeNameSnapshot (.dict (kv :: kvs))) previous) previous) := by
  unfold syncWithFaults
  dsimp only
  rw [hc]
  simp only [Bool.not_false, Bool.true_and, Bool.false_eq_true, if_false, Bool.not_true]
  split_ifs
  · exact ⟨false, previous, fun _ => rfl, Or.inl rfl⟩
  · exact ⟨false, _, fun h => (by cases h), Or.inl rfl⟩
  · exact ⟨false, previous, fun _ => rfl, Or.inr rfl⟩
  · exact ⟨false, previous, fun _ => rfl, Or.inr rfl⟩

theorem syncWithFaults_of_complete (faults : Faults) (db : Db) (kv : String × Py)
    (kvs : List (String × Py)) (previous : Option NodeNameState) {snapshot : Snapshot}
    (hs : collectNodeNameSnapshot (.dict (kv :: kvs)) = snapshot) (hc : snapshot.complete = true) :
    syncWithFaults faults db (.dict (kv :: kvs)) previous =
      if previous = some snapshot.state then
        let pruned := write (pruneStatements snapshot.currentIds) faults.prune db
        if !pruned.2 then ⟨pruned.1, previous, true⟩
        else if driftCheck faults pruned.1 snapshot.state then
          ⟨pruned.1, some snapshot.state, false⟩
        else syncOrPrevious faults pruned.1 snapshot snapshot.state previous
      else syncOrPrevious faults db snapshot snapshot.state previous := by
  unfold syncWithFaults
  dsimp only
  rw [hs, currentState_of_complete previous hc, hc]
  simp only [Bool.not_true, Bool.false_and, Bool.false_eq_true, if_false, if_true]

/-- **Failing safe.** A call with an incomplete snapshot deletes no row. A call that returns because
a transaction failed returns the previous state, and leaves the tables as they were, or without the
stale rows that its first transaction had deleted. -/
theorem sync_fails_safe (faults : Faults) (db : Db) (nodes : Py)
    (previous : Option NodeNameState) :
    ((collectNodeNameSnapshot nodes).complete = false →
      db.Kept (syncWithFaults faults db nodes previous).db) ∧
    ((syncWithFaults faults db nodes previous).failed = true →
      (syncWithFaults faults db nodes previous).returned = previous ∧
      ((syncWithFaults faults db nodes previous).db = db ∨
        PrunedFirst faults nodes previous ∧
        (syncWithFaults faults db nodes previous).db =
          pruneStaleNameRows db (collectNodeNameSnapshot nodes).currentIds)) := by
  cases nodes with
  | dict kvs =>
    cases kvs with
    | nil => exact ⟨fun _ => Db.Kept.refl db, fun h => (by cases h)⟩
    | cons kv kvs =>
      cases hc : (collectNodeNameSnapshot (.dict (kv :: kvs))).complete with
      | false =>
        obtain ⟨failed, returned, hret, heq | heq⟩ :=
          syncWithFaults_of_incomplete faults db kv kvs previous hc
        · rw [heq]
          exact ⟨fun _ => Db.Kept.refl db, fun h => ⟨hret h, Or.inl rfl⟩⟩
        · rw [heq]
          refine ⟨fun _ => kept_syncOrPrevious faults db _ _ previous hc, fun h => ?_⟩
          obtain ⟨hreturned, hdb⟩ := syncOrPrevious_failed faults db _ _ previous h
          exact ⟨hreturned, Or.inl hdb⟩
      | true =>
        refine ⟨fun h => (by cases h), fun h => ?_⟩
        have hdef := syncWithFaults_of_complete faults db kv kvs previous rfl hc
        by_cases hprev : previous = some (collectNodeNameSnapshot (.dict (kv :: kvs))).state
        · rw [if_pos hprev] at hdef
          cases hok : (write (pruneStatements (collectNodeNameSnapshot
              (.dict (kv :: kvs))).currentIds) faults.prune db).2 with
          | false =>
            simp only [hok, Bool.not_false, if_true] at hdef
            rw [hdef]
            exact ⟨rfl, Or.inl (write_failed hok)⟩
          | true =>
            -- the first transaction is committed, and what follows fails alone
            have hnone := write_succeeded hok
            simp only [hnone, write_none, foldl_pruneStatements, Bool.not_true, Bool.false_eq_true,
              if_false] at hdef
            split_ifs at hdef
            · rw [hdef] at h
              cases h
            · rw [hdef] at h ⊢
              obtain ⟨hreturned, hdb⟩ := syncOrPrevious_failed faults _ _ _ previous h
              exact ⟨hreturned, Or.inr ⟨⟨hc, hprev, hnone⟩, hdb⟩⟩
        · rw [if_neg hprev] at hdef
          rw [hdef] at h ⊢
          obtain ⟨hreturned, hdb⟩ := syncOrPrevious_failed faults db _ _ previous h
          exact ⟨hreturned, Or.inl hdb⟩
  | none => exact ⟨fun _ => Db.Kept.refl db, fun h => (by cases h)⟩
  | bool b => exact ⟨fun _ => Db.Kept.refl db, fun h => (by cases h)⟩
  | int n => exact ⟨fun _ => Db.Kept.refl db, fun h => (by cases h)⟩
  | float x => exact ⟨fun _ => Db.Kept.refl db, fun h => (by cases h)⟩
  | str s => exact ⟨fun _ => Db.Kept.refl db, fun h => (by cases h)⟩
  | list xs => exact ⟨fun _ => Db.Kept.refl db, fun h => (by cases h)⟩

/-- A drifted name of `A` beside the row of a node that is gone. -/
def driftedNames : Db :=
  ⟨Table.empty, (Table.empty.upsert (.text "A") (.text "x")).upsert (.text "B") (.text "b")⟩

/-- The first transaction of a call removes the row of `B`, the second one fails, and the call
returns the previous state. -/
theorem pruned_unrepaired :
    ∃ r, syncWithFaults ⟨none, false, false, some 0⟩ driftedNames completeNodes
        (some [⟨"A", none, some "a"⟩]) = r ∧
      r.failed = true ∧ r.returned = some [⟨"A", none, some "a"⟩] ∧
      (some (Key.text "B"), Cell.text "b") ∈ driftedNames.shortnames.rows ∧
      (some (Key.text "B"), Cell.text "b") ∉ r.db.shortnames.rows :=
  ⟨_, rfl, by decide +kernel, by decide +kernel, by decide +kernel, by decide +kernel⟩

end MMRelay.Names
