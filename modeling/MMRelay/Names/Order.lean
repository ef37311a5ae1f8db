import MMRelay.Names.Update
import Mathlib.Data.List.Perm.Basic

/-!
# The order of the nodes in an update of one field

`_update_names_core` (`db_utils.py`) on the same nodes in two orders. What its collector knows of
the name of an id is a join: nothing, no name, one name, or a conflict.

* `Known`, `Known.learn`, `Known.learn_right_comm`: the join;
* `identified`, `rawNames`: the names that the nodes give an id;
* `NameCollect.known`, `known_collectName`: one turn of the loop is a join for the id of its node;
* `Summary`, `Summary.collect`: what the collector has found, without an order;
* `updatedTable_sameRows`: collectors that have found the same leave the same table;
* **`updates_perm`**: both updates leave the same tables, in whatever order the nodes come.
-/

namespace MMRelay.Names

/-! ## What is known of a name -/

/-- What is known of the name of an id. -/
inductive Known
  | absent
  | blank
  | name (s : String)
  | conflict
  deriving DecidableEq

namespace Known

/-- A further value; `none` is a node without a name. -/
def learn : Known → Option String → Known
  | absent, none => blank
  | absent, some s => name s
  | blank, none => blank
  | blank, some s => name s
  | name a, none => name a
  | name a, some s => if a = s then name a else conflict
  | conflict, _ => conflict

/-- A further node with the id; a value that is not a name adds nothing. -/
def add (k : Known) (raw : Py) : Known :=
  if isNameValue raw then k.learn (normalizeNodeNameValue raw) else k

/-- The item of `state_by_id`. -/
def item : Known → Option (Option String)
  | absent => none
  | blank => some none
  | name s => some (some s)
  | conflict => none

theorem learn_right_comm (k : Known) (v w : Option String) :
    (k.learn v).learn w = (k.learn w).learn v := by
  cases k <;> cases v <;> cases w <;> grind [learn]

instance : RightCommutative add where
  right_comm k x y := by
    unfold add
    split_ifs
    · exact learn_right_comm k _ _
    · rfl
    · rfl
    · rfl

end Known

/-! ## The nodes of an id -/

/-- The id and the user of a node that has both. -/
def identified (node : Py) : Option (String × Py) :=
  match node.field "user" with
  | .dict user => (nodeId (.dict user)).map fun id => (id, .dict user)
  | _ => none

theorem collectName_eq (field : NameField) (c : NameCollect) (node : Py) :
    collectName field c node =
      match identified node with
      | none => { c with complete := false }
      | some (id, user) => if id ∈ c.skipped then c else c.addName id (user.field field.key) := by
  unfold collectName identified
  cases node.field "user" with
  | dict user =>
    dsimp only
    cases nodeId (.dict user) with
    | none => rfl
    | some id => rfl
  | _ => rfl

/-- What a node gives as the name of the id. -/
def rawName (field : NameField) (id : String) (node : Py) : Option Py :=
  (identified node).bind fun u => if u.1 = id then some (u.2.field field.key) else none

/-- What the nodes give as the name of the id. -/
def rawNames (field : NameField) (id : String) (nodeRows : List (String × Py)) : List Py :=
  nodeRows.filterMap fun kv => rawName field id kv.2

/-! ## One turn of the loop -/

namespace NameCollect

/-- What the collector knows of the name of an id. -/
def known (c : NameCollect) (id : String) : Known :=
  if id ∈ c.skipped then .conflict
  else
    match c.byId.lookup id with
    | none => .absent
    | some none => .blank
    | some (some s) => .name s

theorem known_dictSet (c : NameCollect) (ids : List String) (id : String) (v : Option String)
    (h : id ∉ c.skipped) :
    { c with currentIds := ids, byId := dictSet c.byId id v }.known id = Known.absent.learn v := by
  unfold known
  rw [if_neg h, lookup_dictSet, if_pos rfl]
  cases v <;> rfl

theorem known_addName_self {c : NameCollect} {id : String} (h : id ∉ c.skipped) (raw : Py) :
    (c.addName id raw).known id = (c.known id).add raw := by
  have hknown : c.known id = match c.byId.lookup id with
      | none => .absent
      | some none => .blank
      | some (some s) => .name s := if_neg h
  unfold addName Known.add
  simp only
  cases hname : isNameValue raw with
  | false => rfl
  | true =>
    simp only [Bool.not_true, Bool.false_eq_true, if_false, if_true]
    rw [hknown]
    cases hlook : c.byId.lookup id with
    | none =>
      exact known_dictSet c _ id _ h
    | some v =>
      cases v with
      | none =>
        refine (known_dictSet c _ id _ h).trans ?_
        cases normalizeNodeNameValue raw <;> rfl
      | some a =>
        dsimp only [Option.join_some]
        cases normalizeNodeNameValue raw with
        | none => exact known_dictSet c _ id _ h
        | some b =>
          dsimp only [mergeNodeNameValues, Known.learn]
          by_cases hab : a = b
          · rw [if_pos hab, if_pos hab]
            exact known_dictSet c _ id _ h
          · rw [if_neg hab, if_neg hab]
            exact if_pos List.mem_cons_self

theorem known_addName_of_ne (c : NameCollect) {id id' : String} (h : id' ≠ id) (raw : Py) :
    (c.addName id raw).known id' = c.known id' := by
  unfold addName
  simp only
  split
  · rfl
  · split
    · unfold known
      simp only [lookup_dictSet, if_neg h]
    · split
      · unfold known
        simp only [lookup_dictPop, List.mem_cons, h, false_or, if_false]
      · unfold known
        simp only [lookup_dictSet, if_neg h]

/-- **One turn of the loop** is a join for the id of its node and leaves the others. -/
theorem known_collectName (field : NameField) (c : NameCollect) (node : Py) (id : String) :
    (collectName field c node).known id =
      ((rawName field id node).toList.foldl Known.add (c.known id)) := by
  rw [collectName_eq]
  unfold rawName
  cases identified node with
  | none => rfl
  | some u =>
    obtain ⟨id', user⟩ := u
    simp only [Option.bind_some]
    by_cases hid : id' = id
    · subst hid
      rw [if_pos rfl]
      by_cases hskip : id' ∈ c.skipped
      · have hconf : c.known id' = .conflict := if_pos hskip
        rw [if_pos hskip, hconf, Option.toList_some, List.foldl_cons, List.foldl_nil]
        unfold Known.add Known.learn
        split_ifs <;> rfl
      · rw [if_neg hskip]
        exact known_addName_self hskip _
    · rw [if_neg hid]
      split_ifs
      · rfl
      · exact known_addName_of_ne c (fun h => hid h.symm) _

theorem known_eq_conflict_iff {c : NameCollect} {id : String} :
    c.known id = .conflict ↔ id ∈ c.skipped := by
  unfold known
  split_ifs with h
  · exact ⟨fun _ => h, fun _ => rfl⟩
  · refine ⟨fun hk => ?_, fun hid => absurd hid h⟩
    split at hk <;> cases hk

theorem complete_addName {c : NameCollect} {id : String} (h : id ∉ c.skipped) (raw : Py) :
    (c.addName id raw).complete = true ↔
      c.complete = true ∧ isNameValue raw = true ∧ (c.known id).add raw ≠ .conflict := by
  rw [← known_addName_self h raw, ne_eq, known_eq_conflict_iff]
  unfold addName
  simp only
  split
  · next hname => simp at hname; simp [hname]
  · next hname =>
    have hname' : isNameValue raw = true := by simpa using hname
    split
    · simp [hname', h]
    · split
      · simp
      · simp [hname', h]

theorem currentIds_addName (c : NameCollect) (id : String) (raw : Py) :
    (c.addName id raw).currentIds = c.currentIds.insert id := by
  unfold addName
  simp only
  split
  · rfl
  · split
    · rfl
    · split <;> rfl

theorem popped_addName {c : NameCollect} {id : String} (h : id ∉ c.skipped)
    (hpop : ∀ id' ∈ c.skipped, c.byId.lookup id' = none) (raw : Py) :
    ∀ id' ∈ (c.addName id raw).skipped, (c.addName id raw).byId.lookup id' = none := by
  have hset : ∀ v, ∀ id' ∈ c.skipped, (dictSet c.byId id v).lookup id' = none := by
    intro v id' hid'
    have hne : id' ≠ id := fun heq => h (heq ▸ hid')
    rw [lookup_dictSet, if_neg hne]
    exact hpop id' hid'
  unfold addName
  simp only
  split
  · exact hpop
  · split
    · exact hset _
    · split
      · intro id' hid'
        dsimp only at hid' ⊢
        rw [lookup_dictPop]
        split_ifs with hid
        · rfl
        · exact hpop id' ((List.mem_cons.mp hid').resolve_left hid)
      · exact hset _

end NameCollect

/-! ## What the collector has found -/

/-- The node has a user with an id, and its name is absent or a string. -/
def Named (field : NameField) (node : Py) : Prop :=
  ∃ u, identified node = some u ∧ isNameValue (u.2.field field.key) = true

/-- What the collector has found in the nodes. -/
structure Summary (field : NameField) (nodeRows : List (String × Py)) (c : NameCollect) : Prop where
  known : ∀ id, c.known id = (rawNames field id nodeRows).foldl Known.add .absent
  current : ∀ id, id ∈ c.currentIds ↔ rawNames field id nodeRows ≠ []
  complete : c.complete = true ↔
    (∀ kv ∈ nodeRows, Named field kv.2) ∧ ∀ id, c.known id ≠ .conflict
  popped : ∀ id ∈ c.skipped, c.byId.lookup id = none

theorem rawNames_concat (field : NameField) (id : String) (nodeRows : List (String × Py))
    (kv : String × Py) :
    rawNames field id (nodeRows ++ [kv]) =
      rawNames field id nodeRows ++ (rawName field id kv.2).toList := by
  unfold rawNames
  rw [List.filterMap_append]
  congr 1

namespace Summary

variable {field : NameField} {nodeRows : List (String × Py)} {c : NameCollect}

theorem known_step (h : Summary field nodeRows c) (kv : String × Py) (id : String) :
    (collectName field c kv.2).known id =
      (rawNames field id (nodeRows ++ [kv])).foldl Known.add .absent := by
  rw [NameCollect.known_collectName, h.known id, rawNames_concat, List.foldl_append]

/-- A conflict was noticed when the second name came. -/
theorem current_of_skipped (h : Summary field nodeRows c) {id : String} (hid : id ∈ c.skipped) :
    id ∈ c.currentIds := by
  rw [h.current]
  intro hnil
  have hk := NameCollect.known_eq_conflict_iff.mpr hid
  rw [h.known id, hnil] at hk
  cases hk

theorem step (h : Summary field nodeRows c) (kv : String × Py) :
    Summary field (nodeRows ++ [kv]) (collectName field c kv.2) := by
  cases hu : identified kv.2 with
  | none =>
    have heq : collectName field c kv.2 = { c with complete := false } := by
      rw [collectName_eq, hu]
    have hraw : ∀ id, rawName field id kv.2 = none := fun id => by
      unfold rawName
      rw [hu]
      rfl
    refine ⟨h.known_step kv, fun id => ?_, ?_, ?_⟩
    · rw [heq, rawNames_concat, hraw, Option.toList_none, List.append_nil]
      exact h.current id
    · rw [heq]
      constructor
      · intro hc
        cases hc
      · intro hall
        obtain ⟨u, hu', -⟩ := hall.1 kv (List.mem_append_right _ (List.mem_singleton_self _))
        rw [hu] at hu'
        cases hu'
    · rw [heq]
      exact h.popped
  | some u =>
    obtain ⟨id, user⟩ := u
    have heq : collectName field c kv.2 =
        if id ∈ c.skipped then c else c.addName id (user.field field.key) := by
      rw [collectName_eq, hu]
    have hraw : ∀ id', rawName field id' kv.2 =
        if id = id' then some (user.field field.key) else none := fun id' => by
      unfold rawName
      rw [hu]
      rfl
    have hcur : ∀ id', rawNames field id' (nodeRows ++ [kv]) ≠ [] ↔
        id' ∈ c.currentIds ∨ id' = id := by
      intro id'
      rw [h.current, rawNames_concat, hraw]
      by_cases hid : id = id'
      · rw [if_pos hid]
        exact ⟨fun _ => Or.inr hid.symm, fun _ => List.concat_ne_nil _ _⟩
      · rw [if_neg hid, Option.toList_none, List.append_nil]
        exact ⟨Or.inl, fun hor => hor.resolve_right fun he => hid he.symm⟩
    by_cases hskip : id ∈ c.skipped
    · rw [if_pos hskip] at heq
      refine ⟨h.known_step kv, fun id' => ?_, ?_, ?_⟩
      · rw [heq, hcur]
        constructor
        · exact Or.inl
        · rintro (hin | rfl)
          · exact hin
          · exact h.current_of_skipped hskip
      · rw [heq, h.complete]
        have hconf := NameCollect.known_eq_conflict_iff.mpr hskip
        exact ⟨fun hall => absurd hconf (hall.2 id), fun hall => absurd hconf (hall.2 id)⟩
      · rw [heq]
        exact h.popped
    · rw [if_neg hskip] at heq
      refine ⟨h.known_step kv, fun id' => ?_, ?_, ?_⟩
      · rw [heq, hcur, NameCollect.currentIds_addName, List.mem_insert_iff, or_comm]
      · rw [heq, NameCollect.complete_addName hskip, h.complete]
        have hnamed : Named field kv.2 ↔ isNameValue (user.field field.key) = true := by
          unfold Named
          rw [hu]
          simp
        have hknown : ∀ id', (c.addName id (user.field field.key)).known id' =
            if id' = id then (c.known id).add (user.field field.key) else c.known id' := by
          intro id'
          split_ifs with hid
          · rw [hid]
            exact NameCollect.known_addName_self hskip _
          · exact NameCollect.known_addName_of_ne c hid _
        simp only [hknown, List.forall_mem_append, List.forall_mem_singleton, hnamed]
        constructor
        · rintro ⟨⟨hall, hconf⟩, hname, hadd⟩
          refine ⟨⟨hall, hname⟩, fun id' => ?_⟩
          split_ifs
          · exact hadd
          · exact hconf id'
        · rintro ⟨⟨hall, hname⟩, hconf⟩
          have hadd := hconf id
          rw [if_pos rfl] at hadd
          refine ⟨⟨hall, fun id' => ?_⟩, hname, hadd⟩
          by_cases hid : id' = id
          · rw [hid, ne_eq, NameCollect.known_eq_conflict_iff]
            exact hskip
          · have := hconf id'
            rwa [if_neg hid] at this
      · rw [heq]
        exact NameCollect.popped_addName hskip h.popped _

theorem collect (field : NameField) (nodeRows : List (String × Py)) :
    Summary field nodeRows (collectSingleNameSnapshot field nodeRows) := by
  induction nodeRows using List.reverseRecOn with
  | nil =>
    refine ⟨fun _ => rfl, fun id => ?_, ?_, fun id hid => ?_⟩
    · exact ⟨fun hid => (by cases hid), fun hne => absurd rfl hne⟩
    · exact ⟨fun _ => ⟨fun kv hkv => (by cases hkv), fun id hk => (by cases hk)⟩, fun _ => rfl⟩
    · cases hid
  | append_singleton nodeRows kv ih =>
    unfold collectSingleNameSnapshot
    rw [List.foldl_append]
    exact ih.step kv

theorem mem_byId (h : Summary field nodeRows c) (hn : (c.byId.map Prod.fst).Nodup)
    (item : String × Option String) :
    item ∈ c.byId ↔
      ((rawNames field item.1 nodeRows).foldl Known.add .absent).item = some item.2 := by
  obtain ⟨id, v⟩ := item
  rw [← lookup_eq_some_iff_mem hn, ← h.known id]
  unfold NameCollect.known
  split_ifs with hskip
  · rw [h.popped id hskip]
    exact ⟨fun hc => (by cases hc), fun hc => (by cases hc)⟩
  · cases c.byId.lookup id with
    | none => exact ⟨fun hc => (by cases hc), fun hc => (by cases hc)⟩
    | some w => cases w <;> exact Iff.rfl

end Summary

/-- Collectors that have found the same. -/
structure SameCollect (c c' : NameCollect) : Prop where
  byId : ∀ item, item ∈ c.byId ↔ item ∈ c'.byId
  current : ∀ id, id ∈ c.currentIds ↔ id ∈ c'.currentIds
  complete : c.complete = c'.complete

/-- **The collector** finds the same in every order. -/
theorem collectSingleNameSnapshot_perm (field : NameField) {nodeRows nodeRows' : List (String × Py)}
    (h : nodeRows.Perm nodeRows') :
    SameCollect (collectSingleNameSnapshot field nodeRows)
      (collectSingleNameSnapshot field nodeRows') := by
  have hs := Summary.collect field nodeRows
  have hs' := Summary.collect field nodeRows'
  have hraw : ∀ id, (rawNames field id nodeRows).Perm (rawNames field id nodeRows') :=
    fun id => h.filterMap _
  have hfold : ∀ id, (rawNames field id nodeRows).foldl Known.add .absent =
      (rawNames field id nodeRows').foldl Known.add .absent :=
    fun id => (hraw id).foldl_eq Known.absent
  constructor
  · intro item
    rw [hs.mem_byId (nodup_collectSingleNameSnapshot field nodeRows),
      hs'.mem_byId (nodup_collectSingleNameSnapshot field nodeRows'), hfold]
  · intro id
    rw [hs.current, hs'.current, ← List.length_pos_iff, ← List.length_pos_iff, (hraw id).length_eq]
  · rw [Bool.eq_iff_iff, hs.complete, hs'.complete]
    simp only [hs.known, hs'.known, hfold, h.mem_iff]

/-! ## The tables -/

/-- The pairs whose statements an update executes. -/
def writtenPairs (c : NameCollect) : List (String × Option String) :=
  if c.complete then c.byId else c.byId.filter fun item => item.2.isSome

/-- The table that an update leaves. -/
def updatedTable (c : NameCollect) (t : NameTable) : NameTable :=
  if !c.currentIds.isEmpty && c.complete then
    deleteStaleNames (applyPairs t (writtenPairs c)) c.currentIds
  else applyPairs t (writtenPairs c)

theorem foldl_writeName_incomplete (field : NameField) (db : Db)
    (items : List (String × Option String)) :
    items.foldl (writeName (dbOps field) false) (db, true) =
      (db.setTable field (applyPairs (db.table field) (items.filter fun item => item.2.isSome)),
        true) := by
  unfold applyPairs
  induction items generalizing db with
  | nil => simp
  | cons item items ih =>
    obtain ⟨id, name⟩ := item
    cases name with
    | none => exact ih db
    | some name =>
      rw [List.foldl_cons]
      refine (ih _).trans ?_
      simp [dbOps, saveName, applyName]

theorem updateNamesCore_eq (field : NameField) {nodeRows : List (String × Py)} (db : Db)
    (hne : nodeRows ≠ []) :
    updateNamesCore (dbOps field) field (.dict nodeRows) db =
      .ok (db.setTable field
        (updatedTable (collectSingleNameSnapshot field nodeRows) (db.table field)), true) := by
  have htruthy : (Py.dict nodeRows).truthy = true := by
    simpa [Py.truthy] using hne
  unfold updateNamesCore updatedTable writtenPairs
  rw [htruthy]
  simp only [Bool.not_true, Bool.false_eq_true, if_false]
  generalize collectSingleNameSnapshot field nodeRows = c
  cases hc : c.complete with
  | true =>
    simp only [foldl_writeName, Bool.and_true, if_true]
    split_ifs
    · simp [dbOps, deleteStaleNamesOf]
    · rfl
  | false =>
    simp only [foldl_writeName_incomplete, Bool.and_false, Bool.false_and, Bool.false_eq_true,
      if_false]

theorem nodup_writtenPairs {c : NameCollect} (h : (c.byId.map Prod.fst).Nodup) :
    ((writtenPairs c).map Prod.fst).Nodup := by
  unfold writtenPairs
  split_ifs
  · exact h
  · exact h.sublist (List.filter_sublist.map _)

/-- **Collectors that have found the same** leave the same rows. -/
theorem updatedTable_sameRows {c c' : NameCollect} (h : SameCollect c c')
    (hn : (c.byId.map Prod.fst).Nodup) (hn' : (c'.byId.map Prod.fst).Nodup) (t : NameTable) :
    (updatedTable c t).SameRows (updatedTable c' t) := by
  have hpairs : ∀ item, item ∈ writtenPairs c ↔ item ∈ writtenPairs c' := by
    intro item
    unfold writtenPairs
    rw [h.complete]
    split_ifs
    · exact h.byId item
    · rw [List.mem_filter, List.mem_filter, h.byId item]
  have hrows := mem_applyPairs_congr (t := t) (nodup_writtenPairs hn) (nodup_writtenPairs hn') hpairs
  have hempty : c.currentIds.isEmpty = c'.currentIds.isEmpty := by
    rw [Bool.eq_iff_iff, List.isEmpty_iff, List.isEmpty_iff, List.eq_nil_iff_forall_not_mem,
      List.eq_nil_iff_forall_not_mem]
    exact forall_congr' fun id => not_congr (h.current id)
  apply Table.sameRows_of_mem_iff
  · unfold updatedTable
    split_ifs <;> simp
  · intro r
    unfold updatedTable
    rw [h.complete, hempty]
    split_ifs
    · simp only [mem_deleteStaleNames, hrows, h.current]
    · exact hrows r

/-! ## The updates -/

theorem Db.sameContents_setTable (db : Db) (field : NameField) {t t' : NameTable}
    (h : t.SameRows t') : (db.setTable field t).SameContents (db.setTable field t') := by
  cases field with
  | long => exact ⟨h, List.Perm.refl _⟩
  | short => exact ⟨List.Perm.refl _, h⟩

theorem updateNamesCore_perm (field : NameField) (db : Db) {nodeRows nodeRows' : List (String × Py)}
    (h : nodeRows.Perm nodeRows') :
    ∃ after after', updateNamesCore (dbOps field) field (.dict nodeRows) db = .ok (after, true) ∧
      updateNamesCore (dbOps field) field (.dict nodeRows') db = .ok (after', true) ∧
      after.SameContents after' := by
  by_cases hne : nodeRows = []
  · subst hne
    rw [h.symm.eq_nil]
    exact ⟨db, db, rfl, rfl, List.Perm.refl _, List.Perm.refl _⟩
  · have hne' : nodeRows' ≠ [] := fun hnil => hne (by rw [hnil] at h; exact h.eq_nil)
    refine ⟨_, _, updateNamesCore_eq field db hne, updateNamesCore_eq field db hne', ?_⟩
    apply Db.sameContents_setTable
    exact updatedTable_sameRows (collectSingleNameSnapshot_perm field h)
      (nodup_collectSingleNameSnapshot field nodeRows)
      (nodup_collectSingleNameSnapshot field nodeRows') _

/-- **The order of the nodes.** Each update returns, and leaves the same tables for every order of
the same nodes. -/
theorem updates_perm (db : Db) {nodeRows nodeRows' : List (String × Py)}
    (h : nodeRows.Perm nodeRows') :
    (∃ after after', updateLongnames (.dict nodeRows) db = .ok (after, true) ∧
      updateLongnames (.dict nodeRows') db = .ok (after', true) ∧ after.SameContents after') ∧
    ∃ after after', updateShortnames (.dict nodeRows) db = .ok (after, true) ∧
      updateShortnames (.dict nodeRows') db = .ok (after', true) ∧ after.SameContents after' :=
  ⟨updateNamesCore_perm .long db h, updateNamesCore_perm .short db h⟩

/-- Three records of one node, two of which disagree, beside a node whose name is a number. -/
def disputedNodes : List (String × Py) :=
  [("a", .dict [("user", .dict [("id", .int 5), ("longName", .str "Five")])]),
    ("b", .dict [("user", .dict [("id", .str "5"), ("longName", .str "Cinq")])]),
    ("c", .dict [("user", .dict [("id", .str "5"), ("longName", .str "Five")])]),
    ("d", .dict [("user", .dict [("id", .str "6"), ("longName", .int 6)])])]

theorem updates_perm_disputed :
    (∃ after after', updateLongnames (.dict disputedNodes) oldNames = .ok (after, true) ∧
      updateLongnames (.dict disputedNodes.reverse) oldNames = .ok (after', true) ∧
        after.SameContents after') ∧
    ∃ after after', updateShortnames (.dict disputedNodes) oldNames = .ok (after, true) ∧
      updateShortnames (.dict disputedNodes.reverse) oldNames = .ok (after', true) ∧
        after.SameContents after' :=
  updates_perm oldNames (List.reverse_perm disputedNodes).symm

end MMRelay.Names
