import MMRelay.Lib.Escape
import MMRelay.Names.Merged

/-!
# The order of the nodes in a snapshot

`_collect_node_name_snapshot` (`db_utils.py`) on the same nodes in two orders. A conflict turns a
name into `None`, and a third node with the id can set it again.

* `SameSnapshot`: two snapshots with the same contents;
* `names`, `mem_state_iff`: the entry of an id is the outcome of its names;
* `snapshot_perm_ids`: the ids and the flag do not depend on the order;
* **`snapshot_perm_iff`**: the snapshot does not depend on the order of the nodes exactly when the
  names of every id are settled;
* `namedTwice`: three nodes with one id, in two orders.
-/

namespace MMRelay.Names

open Cells (Row blank outcome left right Settled)

/-- The same entries, the same ids and the same flag. -/
structure SameSnapshot (s s' : Snapshot) : Prop where
  state : s.state = s'.state
  currentIds : ∀ id, id ∈ s.currentIds ↔ id ∈ s'.currentIds
  complete : s.complete = s'.complete

/-- The names of the nodes with the id, without the nodes that have none. -/
def names (id : String) (nodeRows : List (String × Py)) : List (Row String String) :=
  nodeRows.filterMap fun kv => (rowOf id kv.2).filter (· ≠ blank)

theorem names_eq (id : String) (nodeRows : List (String × Py)) :
    names id nodeRows = (rows id nodeRows).filter (· ≠ blank) := by
  unfold names rows
  rw [List.filter_filterMap]

theorem blank_notMem_names (id : String) (nodeRows : List (String × Py)) :
    blank ∉ names id nodeRows := by
  rw [names_eq]
  exact blank_notMem_filter _

/-- **The entries of a snapshot.** -/
theorem mem_state_iff (nodeRows : List (String × Py)) (e : NodeNameEntry) :
    e ∈ (collectNodeNameSnapshot (.dict nodeRows)).state ↔
      rows e.meshtasticId nodeRows ≠ [] ∧
        outcome (names e.meshtasticId nodeRows) = some (e.longName, e.shortName) := by
  have hfound := found_collect nodeRows
  have hinv : CollectInv (collectAll nodeRows) := collect_inv collect_start nodeRows
  have hmem : e ∈ (collectNodeNameSnapshot (.dict nodeRows)).state ↔
      e ∈ (collectAll nodeRows).byId := mem_sortEntries
  rw [hmem]
  have hfind : e ∈ (collectAll nodeRows).byId ↔
      (collectAll nodeRows).find e.meshtasticId = some e := by
    rw [Collect.find_eq_some_iff hinv]
    exact ⟨fun h => ⟨h, rfl⟩, fun h => h.1⟩
  have hentry : (collectAll nodeRows).find e.meshtasticId = some e ↔
      (collectAll nodeRows).merged e.meshtasticId = .entry (e.longName, e.shortName) := by
    unfold Collect.merged
    split_ifs with hskip
    · rw [hfound.popped _ hskip]
      exact ⟨fun h => (by cases h), fun h => (by cases h)⟩
    · cases hf : (collectAll nodeRows).find e.meshtasticId with
      | none => exact ⟨fun h => (by cases h), fun h => (by cases h)⟩
      | some e' =>
        have hid := Collect.find_id hf
        obtain ⟨id, l, s⟩ := e
        obtain ⟨id', l', s'⟩ := e'
        dsimp only at hid ⊢
        subst hid
        simp
  rw [hfind, hentry, hfound.merged, names_eq]
  by_cases hne : rows e.meshtasticId nodeRows = []
  · rw [hne]
    exact ⟨fun h => (by cases h), fun h => absurd rfl h.1⟩
  · rw [Merged.foldl_add hne]
    cases outcome ((rows e.meshtasticId nodeRows).filter (· ≠ blank)) with
    | none => exact ⟨fun h => (by cases h), fun h => (by cases h.2)⟩
    | some c => simp [hne]

theorem sorted_state (nodeRows : List (String × Py)) :
    (collectNodeNameSnapshot (.dict nodeRows)).state.Pairwise
      fun a b => a.meshtasticId ≤ b.meshtasticId := by
  have htotal : Std.Total fun a b : NodeNameEntry => a.meshtasticId ≤ b.meshtasticId :=
    ⟨fun a b => le_total _ _⟩
  have htrans : IsTrans NodeNameEntry fun a b => a.meshtasticId ≤ b.meshtasticId :=
    ⟨fun a b c => le_trans⟩
  exact List.pairwise_insertionSort _ _

theorem state_eq_of_mem {nodeRows nodeRows' : List (String × Py)}
    (h : ∀ e, e ∈ (collectNodeNameSnapshot (.dict nodeRows)).state ↔
      e ∈ (collectNodeNameSnapshot (.dict nodeRows')).state) :
    (collectNodeNameSnapshot (.dict nodeRows)).state =
      (collectNodeNameSnapshot (.dict nodeRows')).state := by
  have hn := (state_ids_nodup (.dict nodeRows)).of_map
  have hn' := (state_ids_nodup (.dict nodeRows')).of_map
  refine List.Perm.eq_of_pairwise ?_ (sorted_state nodeRows) (sorted_state nodeRows')
    ((List.perm_ext_iff_of_nodup hn hn').mpr h)
  intro a b ha hb hab hba
  exact List.inj_on_of_nodup_map (state_ids_nodup (.dict nodeRows)) ha ((h b).mpr hb)
    (le_antisymm hab hba)

/-- **The ids and the flag** do not depend on the order of the nodes. -/
theorem snapshot_perm_ids {nodeRows nodeRows' : List (String × Py)}
    (h : nodeRows.Perm nodeRows') :
    (∀ id, id ∈ (collectNodeNameSnapshot (.dict nodeRows)).currentIds ↔
      id ∈ (collectNodeNameSnapshot (.dict nodeRows')).currentIds) ∧
    (collectNodeNameSnapshot (.dict nodeRows)).complete =
      (collectNodeNameSnapshot (.dict nodeRows')).complete := by
  have hfound := found_collect nodeRows
  have hfound' := found_collect nodeRows'
  have hrows : ∀ id, (rows id nodeRows).Perm (rows id nodeRows') := fun id => h.filterMap _
  constructor
  · intro id
    have := (hrows id).length_eq
    show id ∈ (collectAll nodeRows).currentIds ↔ id ∈ (collectAll nodeRows').currentIds
    rw [hfound.current, hfound'.current, ← List.length_pos_iff, ← List.length_pos_iff, this]
  · show (collectAll nodeRows).complete = (collectAll nodeRows').complete
    have hagree : ∀ id, Agreeing (rows id nodeRows) ↔ Agreeing (rows id nodeRows') := by
      intro id
      constructor
      · exact fun ha => ⟨ha.1.perm ((hrows id).filterMap _), ha.2.perm ((hrows id).filterMap _)⟩
      · exact fun ha =>
          ⟨ha.1.perm ((hrows id).symm.filterMap _), ha.2.perm ((hrows id).symm.filterMap _)⟩
    rw [Bool.eq_iff_iff, hfound.complete, hfound'.complete]
    simp only [hagree, h.mem_iff]

/-- **The order of the nodes.** A snapshot is the same in every order of the nodes exactly when the
names of every id are settled. -/
theorem snapshot_perm_iff (nodeRows : List (String × Py)) :
    (∀ nodeRows', nodeRows.Perm nodeRows' →
      SameSnapshot (collectNodeNameSnapshot (.dict nodeRows))
        (collectNodeNameSnapshot (.dict nodeRows'))) ↔
    ∀ id, Settled (names id nodeRows) := by
  constructor
  · intro h id
    rw [← Cells.outcome_perm_iff (blank_notMem_names id nodeRows)]
    intro qs hq
    obtain ⟨nodeRows', hp, rfl⟩ := Cells.exists_perm_filterMap _ nodeRows hq
    have hrows : (rows id nodeRows).Perm (rows id nodeRows') := hp.filterMap _
    by_cases hne : rows id nodeRows = []
    · -- no node has the id
      have hne' : rows id nodeRows' = [] := List.nil_perm.mp (hne ▸ hrows)
      show outcome (names id nodeRows') = outcome (names id nodeRows)
      rw [names_eq, names_eq, hne, hne']
    have hne' : rows id nodeRows' ≠ [] := fun hnil => hne (List.perm_nil.mp (hnil ▸ hrows))
    refine Option.ext fun c => ?_
    have hmem := mem_state_iff nodeRows ⟨id, c.1, c.2⟩
    have hmem' := mem_state_iff nodeRows' ⟨id, c.1, c.2⟩
    rw [(h nodeRows' hp).state, hmem'] at hmem
    show outcome (names id nodeRows') = some c ↔ outcome (names id nodeRows) = some c
    constructor
    · exact fun hc => (hmem.mp ⟨hne', hc⟩).2
    · exact fun hc => (hmem.mpr ⟨hne, hc⟩).2
  · intro h nodeRows' hp
    obtain ⟨hids, hcomplete⟩ := snapshot_perm_ids hp
    refine ⟨state_eq_of_mem fun e => ?_, hids, hcomplete⟩
    have hrows : (rows e.meshtasticId nodeRows).Perm (rows e.meshtasticId nodeRows') :=
      hp.filterMap _
    have hout : outcome (names e.meshtasticId nodeRows') = outcome (names e.meshtasticId nodeRows) :=
      Cells.outcome_perm (blank_notMem_names _ nodeRows) (h e.meshtasticId) (hp.filterMap _)
    rw [mem_state_iff, mem_state_iff, hout, ← List.length_pos_iff, ← List.length_pos_iff,
      hrows.length_eq]

/-- A node of the user "5" with one short name. -/
def namedFive (long : String) : Py :=
  .dict [("user", .dict [("id", .str "5"), ("longName", .str long), ("shortName", .str "5")])]

/-- Three nodes of one user, two of which have the same long name. -/
def namedTwice : List (String × Py) :=
  [("a", namedFive "Five"), ("b", namedFive "Cinq"), ("c", namedFive "Five")]

/-- With the equal names together the user has no long name, with the other one between them it
has. -/
theorem namedTwice_differs :
    (collectNodeNameSnapshot (.dict namedTwice)).state = [⟨"5", some "Five", some "5"⟩] ∧
    (∃ nodeRows', namedTwice.Perm nodeRows' ∧
      (collectNodeNameSnapshot (.dict nodeRows')).state = [⟨"5", none, some "5"⟩]) ∧
    ¬ ∀ nodeRows', namedTwice.Perm nodeRows' →
      SameSnapshot (collectNodeNameSnapshot (.dict namedTwice))
        (collectNodeNameSnapshot (.dict nodeRows')) := by
  have h1 : (collectNodeNameSnapshot (.dict namedTwice)).state =
      [⟨"5", some "Five", some "5"⟩] := by decide +kernel
  have hp : namedTwice.Perm
      [("a", namedFive "Five"), ("c", namedFive "Five"), ("b", namedFive "Cinq")] :=
    (List.Perm.swap _ _ _).cons _
  have h2 : (collectNodeNameSnapshot (.dict
      [("a", namedFive "Five"), ("c", namedFive "Five"), ("b", namedFive "Cinq")])).state =
        [⟨"5", none, some "5"⟩] := by decide +kernel
  refine ⟨h1, ⟨_, hp, h2⟩, fun h => ?_⟩
  have := (h _ hp).state
  rw [h1, h2] at this
  cases this

end MMRelay.Names
