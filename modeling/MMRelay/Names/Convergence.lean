import MMRelay.Names.Sync

/-!
# Convergence of the name tables

After any history of calls, a call with a complete snapshot makes the tables hold the names of
that snapshot, unless a row has no key or the unchanged-state path keeps the row of a node that
lost its name.

* `Exact`: a table holds exactly the names of a state;
* `KeylessRow`, `Forgotten`, `Stuck`: the rows that a call does not repair;
* `exact_syncNameTables_iff`, `exact_pruneStaleNameRows_iff`: the two paths of a call;
* **`converges_iff`**: the tables are exact if and only if the call is not stuck.
-/

namespace MMRelay.Names

/-- The table holds exactly the names that the state gives. -/
def Exact (t : NameTable) (state : NodeNameState) (getName : NodeNameEntry → Option String) :
    Prop :=
  ∀ r, r ∈ t.rows ↔ Wanted state getName r

/-- A row whose id is `NULL`. -/
def KeylessRow (t : NameTable) : Prop := ∃ r ∈ t.rows, r.1 = none

/-- A row of a node without a name. -/
def Forgotten (t : NameTable) (state : NodeNameState)
    (getName : NodeNameEntry → Option String) : Prop :=
  ∃ entry ∈ state, getName entry = none ∧ t.hasKey (.text entry.meshtasticId) = true

/-- The state of the snapshot is the previous one and the drift check finds nothing, but a node
without a name has a row. -/
def Overlooked (db : Db) (previous : Option NodeNameState) (state : NodeNameState) : Prop :=
  previous = some state ∧ nameTablesMatchState db state = true ∧
    (Forgotten db.longnames state NodeNameEntry.longName ∨
      Forgotten db.shortnames state NodeNameEntry.shortName)

/-- A call on these tables cannot make them exact. -/
def Stuck (db : Db) (previous : Option NodeNameState) (state : NodeNameState) : Prop :=
  KeylessRow db.longnames ∨ KeylessRow db.shortnames ∨ Overlooked db previous state

section Paths

variable {t : NameTable} {state : NodeNameState} {currentIds : List String}
  {getName : NodeNameEntry → Option String}

theorem Wanted.key_ne_none {r : Option Key × Cell} (h : Wanted state getName r) : r.1 ≠ none := by
  obtain ⟨entry, -, n, -, rfl⟩ := h
  exact Option.some_ne_none _

/-- **The writing path** is exact as soon as every row has a key. -/
theorem exact_syncNameTables_iff (hn : (state.map NodeNameEntry.meshtasticId).Nodup)
    (hids : ∀ id, id ∈ currentIds ↔ ∃ entry ∈ state, entry.meshtasticId = id) :
    Exact (deleteStaleNames (applyNames t state getName) currentIds) state getName ↔
      ¬ KeylessRow t := by
  unfold Exact
  simp only [mem_syncNameTables hn hids]
  constructor
  · rintro h ⟨r, hr, hk⟩
    exact ((h r).mp (Or.inl ⟨hr, hk⟩)).key_ne_none hk
  · intro h r
    constructor
    · rintro (⟨hr, hk⟩ | hw)
      · exact absurd ⟨r, hr, hk⟩ h
      · exact hw
    · exact Or.inr

theorem normalizeCell_eq_some {v : Cell} {n : String} (h : normalizeCell v = some n) :
    v = .text n := by
  unfold normalizeCell at h
  split at h
  · split_ifs at h
    rw [Option.some.inj h]
  · cases h

theorem row_of_matches (h : nameTableMatchesState t state getName = true) {entry : NodeNameEntry}
    (he : entry ∈ state) {n : String} (hname : getName entry = some n) :
    (some (.text entry.meshtasticId), .text n) ∈ t.rows := by
  have hentry := List.all_eq_true.mp h entry he
  simp only [hname, beq_iff_eq, Option.bind_eq_some_iff] at hentry
  obtain ⟨v, hget, hv⟩ := hentry
  rw [normalizeCell_eq_some hv] at hget
  exact Table.get?_eq_some_iff.mp hget

theorem entry_unique (hn : (state.map NodeNameEntry.meshtasticId).Nodup) {a b : NodeNameEntry}
    (ha : a ∈ state) (hb : b ∈ state) (h : a.meshtasticId = b.meshtasticId) : a = b :=
  List.inj_on_of_nodup_map hn ha hb h

/-- **The unchanged-state path.** When the drift check passes, pruning is exact unless a row
without a key or the row of a node without a name is left. -/
theorem exact_pruneStaleNameRows_iff (hn : (state.map NodeNameEntry.meshtasticId).Nodup)
    (hids : ∀ id, id ∈ currentIds ↔ ∃ entry ∈ state, entry.meshtasticId = id)
    (hm : nameTableMatchesState t state getName = true) :
    Exact (deleteStaleNames t currentIds) state getName ↔
      ¬ KeylessRow t ∧ ¬ Forgotten t state getName := by
  unfold Exact
  simp only [mem_deleteStaleNames]
  constructor
  · intro h
    refine ⟨?_, ?_⟩
    · rintro ⟨r, hr, hk⟩
      exact ((h r).mp ⟨hr, Or.inl hk⟩).key_ne_none hk
    · rintro ⟨entry, he, hname, hkey⟩
      obtain ⟨v, hv⟩ := Table.hasKey_iff.mp hkey
      have hid : entry.meshtasticId ∈ currentIds := (hids _).mpr ⟨entry, he, rfl⟩
      obtain ⟨entry', he', n, hname', heq⟩ := (h _).mp ⟨hv, Or.inr ⟨_, hid, rfl⟩⟩
      simp only [Prod.mk.injEq, Option.some.injEq, Key.text.injEq] at heq
      rw [entry_unique hn he he' heq.1, hname'] at hname
      cases hname
  · rintro ⟨hkeyless, hforgotten⟩ r
    constructor
    · rintro ⟨hr, hk | ⟨id, hid, hk⟩⟩
      · exact absurd ⟨r, hr, hk⟩ hkeyless
      · obtain ⟨entry, he, rfl⟩ := (hids id).mp hid
        cases hname : getName entry with
        | none =>
          refine absurd ⟨entry, he, hname, Table.hasKey_iff.mpr ⟨r.2, ?_⟩⟩ hforgotten
          rw [← hk]
          exact hr
        | some n =>
          -- the drift check found the expected row, and the key determines it
          have hrow := row_of_matches hm he hname
          have heq := t.row_unique hr hrow (by rw [hk]; exact Option.some_ne_none _) hk
          exact ⟨entry, he, n, hname, heq⟩
    · rintro ⟨entry, he, n, hname, rfl⟩
      exact ⟨row_of_matches hm he hname,
        Or.inr ⟨entry.meshtasticId, (hids _).mpr ⟨entry, he, rfl⟩, rfl⟩⟩

theorem get?_deleteStaleNames {id : String} (hid : id ∈ currentIds) :
    (deleteStaleNames t currentIds).get? (.text id) = t.get? (.text id) := by
  ext v
  simp only [Table.get?_eq_some_iff, mem_deleteStaleNames]
  exact ⟨fun h => h.1, fun h => ⟨h, Or.inr ⟨id, hid, rfl⟩⟩⟩

theorem nameTableMatchesState_deleteStaleNames
    (hids : ∀ id, id ∈ currentIds ↔ ∃ entry ∈ state, entry.meshtasticId = id) :
    nameTableMatchesState (deleteStaleNames t currentIds) state getName =
      nameTableMatchesState t state getName := by
  have hget : ∀ entry ∈ state, (deleteStaleNames t currentIds).get? (.text entry.meshtasticId) =
      t.get? (.text entry.meshtasticId) :=
    fun entry he => get?_deleteStaleNames ((hids _).mpr ⟨entry, he, rfl⟩)
  unfold nameTableMatchesState
  rw [Bool.eq_iff_iff, List.all_eq_true, List.all_eq_true]
  refine forall₂_congr fun entry he => ?_
  rw [hget entry he]

theorem nameTablesMatchState_prune {db : Db}
    (hids : ∀ id, id ∈ currentIds ↔ ∃ entry ∈ state, entry.meshtasticId = id) :
    nameTablesMatchState (pruneStaleNameRows db currentIds) state =
      nameTablesMatchState db state := by
  unfold nameTablesMatchState pruneStaleNameRows
  rw [nameTableMatchesState_deleteStaleNames hids, nameTableMatchesState_deleteStaleNames hids]

theorem keylessRow_deleteStaleNames : KeylessRow (deleteStaleNames t currentIds) ↔ KeylessRow t := by
  unfold KeylessRow
  simp only [mem_deleteStaleNames]
  constructor
  · rintro ⟨r, ⟨hr, -⟩, hk⟩
    exact ⟨r, hr, hk⟩
  · rintro ⟨r, hr, hk⟩
    exact ⟨r, ⟨hr, Or.inl hk⟩, hk⟩

end Paths

/-! ## A call -/

/-- Both tables are exact. -/
def ExactDb (db : Db) (state : NodeNameState) : Prop :=
  Exact db.longnames state NodeNameEntry.longName ∧
    Exact db.shortnames state NodeNameEntry.shortName

theorem currentState_of_complete {snapshot : Snapshot} (previous : Option NodeNameState)
    (hc : snapshot.complete = true) : currentState snapshot previous = snapshot.state := by
  unfold currentState
  rw [hc]
  cases previous <;> rfl

theorem syncNameTablesIfChanged_of_complete {db : Db} {nodes : Py}
    {previous : Option NodeNameState} {snapshot : Snapshot}
    (hs : collectNodeNameSnapshot nodes = snapshot) (hc : snapshot.complete = true)
    (hne : snapshot.state ≠ []) :
    (syncNameTablesIfChanged db nodes previous).1 =
      if previous = some snapshot.state then
        if nameTablesMatchState (pruneStaleNameRows db snapshot.currentIds) snapshot.state then
          pruneStaleNameRows db snapshot.currentIds
        else syncNameTables (pruneStaleNameRows db snapshot.currentIds) snapshot.state
          snapshot.currentIds true
      else syncNameTables db snapshot.state snapshot.currentIds true := by
  subst hs
  unfold syncNameTablesIfChanged
  split
  · exact absurd rfl hne
  · simp only [currentState_of_complete previous hc, hc, Bool.not_true, Bool.false_and,
      Bool.false_eq_true, if_true, if_false]
    split_ifs <;> rfl
  · next hdict =>
    unfold collectNodeNameSnapshot at hc
    split at hc
    · exact absurd rfl (hdict _)
    · cases hc

theorem exactDb_syncNameTables_iff {db : Db} {state : NodeNameState} {currentIds : List String}
    (hn : (state.map NodeNameEntry.meshtasticId).Nodup)
    (hids : ∀ id, id ∈ currentIds ↔ ∃ entry ∈ state, entry.meshtasticId = id) :
    ExactDb (syncNameTables db state currentIds true) state ↔
      ¬ (KeylessRow db.longnames ∨ KeylessRow db.shortnames) := by
  unfold syncNameTables ExactDb
  simp only [foldl_applyEntry, if_true, pruneStaleNameRows]
  rw [exact_syncNameTables_iff hn hids, exact_syncNameTables_iff hn hids, not_or]

/-- **Convergence.** Whatever the tables held and whatever the earlier calls received, a call with
a complete snapshot leaves exactly the names of the snapshot, if and only if no row lacks an id and
the unchanged-state path does not overlook the row of a node without a name. -/
theorem converges_iff (start : Db) (history : List Py) (nodes : Py)
    (hc : (collectNodeNameSnapshot nodes).complete = true)
    (hne : (collectNodeNameSnapshot nodes).state ≠ []) :
    ExactDb (runSyncs (start, none) (history ++ [nodes])).1 (collectNodeNameSnapshot nodes).state ↔
      ¬ Stuck (runSyncs (start, none) history).1 (runSyncs (start, none) history).2
        (collectNodeNameSnapshot nodes).state := by
  have hn := state_ids_nodup nodes
  have hids := mem_currentIds_of_complete hc
  have hlast : runSyncs (start, none) (history ++ [nodes]) =
      syncNameTablesIfChanged (runSyncs (start, none) history).1 nodes
        (runSyncs (start, none) history).2 := by
    unfold runSyncs
    rw [List.foldl_append]
    rfl
  rw [hlast, syncNameTablesIfChanged_of_complete rfl hc hne]
  generalize runSyncs (start, none) history = s
  unfold Stuck Overlooked
  by_cases hprev : s.2 = some (collectNodeNameSnapshot nodes).state
  · rw [if_pos hprev, nameTablesMatchState_prune hids]
    by_cases hm : nameTablesMatchState s.1 (collectNodeNameSnapshot nodes).state = true
    · have hboth := hm
      rw [nameTablesMatchState, Bool.and_eq_true] at hboth
      rw [if_pos hm]
      unfold ExactDb pruneStaleNameRows
      rw [exact_pruneStaleNameRows_iff hn hids hboth.1,
        exact_pruneStaleNameRows_iff hn hids hboth.2]
      tauto
    · rw [if_neg hm, exactDb_syncNameTables_iff hn hids]
      unfold pruneStaleNameRows
      rw [keylessRow_deleteStaleNames, keylessRow_deleteStaleNames]
      tauto
  · rw [if_neg hprev, exactDb_syncNameTables_iff hn hids]
    tauto

/-! ## Two refreshes -/

/-- The node `A` with the given names. -/
def nodeA (names : List (String × Py)) : Py :=
  .dict [("user", .dict (("id", .str "A") :: names))]

/-- The tables hold an old long name of `A`. -/
def oldNames : Db := ⟨Table.empty.upsert (.text "A") (.text "Old"), Table.empty⟩

/-- A refresh that knows only the short name of `A`, beside a node without a user. -/
def partialNodes : Py := .dict [("a", nodeA [("shortName", .str "a")]), ("b", .dict [])]

/-- The same, without the other node. -/
def completeNodes : Py := .dict [("a", nodeA [("shortName", .str "a")])]

/-- A first call with a complete snapshot removes the old name. -/
theorem converges_iff_first :
    ExactDb (runSyncs (oldNames, none) [completeNodes]).1
      (collectNodeNameSnapshot completeNodes).state := by
  refine (converges_iff oldNames [] completeNodes (by decide +kernel) (by decide +kernel)).mpr ?_
  rintro (⟨r, hr, hk⟩ | ⟨r, hr, hk⟩ | ⟨h, -⟩)
  · rw [List.mem_singleton.mp hr] at hk
    cases hk
  · cases hr
  · cases h

/-- After a partial refresh the complete one keeps the old long name. -/
theorem oldName_survives :
    (collectNodeNameSnapshot completeNodes).complete = true ∧
    (collectNodeNameSnapshot completeNodes).state = [⟨"A", none, some "a"⟩] ∧
    ¬ ExactDb (runSyncs (oldNames, none) [partialNodes, completeNodes]).1
      (collectNodeNameSnapshot completeNodes).state := by
  refine ⟨by decide +kernel, by decide +kernel, fun h => ?_⟩
  have hrow : (some (Key.text "A"), Cell.text "Old") ∈
      (runSyncs (oldNames, none) [partialNodes, completeNodes]).1.longnames.rows := by
    decide +kernel
  obtain ⟨entry, he, n, hname, -⟩ := (h.1 _).mp hrow
  have hall : ∀ entry ∈ (collectNodeNameSnapshot completeNodes).state, entry.longName = none := by
    decide +kernel
  rw [hall entry he] at hname
  cases hname

end MMRelay.Names
