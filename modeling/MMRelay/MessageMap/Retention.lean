import MMRelay.Lib.RowTable
import MMRelay.Lib.Run

/-!
# Retention of the message map

`store_message_map` and `prune_message_map` (`db_utils.py`) over whole histories of calls without
database errors. A prune deletes the rows with the smallest rowids, and storing an event again does
not give its row a new rowid.

* `storeMessageMap`, `pruneMessageMap`, `getMessageMapByMatrixEventId`;
* `State`, `Act`, `step`: the table and the history of stores;
* `PruneRight`, `Retains`: what a prune has to leave;
* `retains_iff`: prunes are right if and only if the rows are in the order of their last stores;
* **`retains_run`**: this is so in all states of a run if and only if each store is of a new event
  or of the newest row;
* `restored_pruned`: an event that is stored again, and pruned at once.
-/

namespace MMRelay.MessageMap

/-! ## The table -/

/-- The type of the argument `meshtastic_id`. -/
inductive MeshId
  | int (n : ℤ)
  | str (s : String)
  deriving DecidableEq

/-- `str(meshtastic_id)`. -/
def MeshId.key : MeshId → String
  | .int n => toString n
  | .str s => s

/-- The columns of `message_map` other than `matrix_event_id`. -/
structure Entry where
  meshtasticId : String
  matrixRoomId : String
  meshtasticText : String
  meshtasticMeshnet : Option String
  deriving DecidableEq

abbrev MessageTable := RowTable String Entry

/-- `store_message_map`. -/
def storeMessageMap (t : MessageTable) (meshtasticId : MeshId)
    (matrixEventId matrixRoomId meshtasticText : String) (meshtasticMeshnet : Option String) :
    MessageTable :=
  t.upsert matrixEventId ⟨meshtasticId.key, matrixRoomId, meshtasticText, meshtasticMeshnet⟩

/-- `_prune_message_map_core`: the table and the number of deleted rows. -/
def pruneMessageMapCore (t : MessageTable) (msgsToKeep : ℤ) : MessageTable × ℤ :=
  if (t.count : ℤ) > msgsToKeep then
    let toDelete := t.count - msgsToKeep
    (t.deleteRowids (t.oldest toDelete.toNat), toDelete)
  else (t, 0)

/-- `prune_message_map`. -/
def pruneMessageMap (t : MessageTable) (msgsToKeep : ℤ) : MessageTable :=
  (pruneMessageMapCore t msgsToKeep).1

/-- `get_message_map_by_matrix_event_id`. -/
def getMessageMapByMatrixEventId (t : MessageTable) (matrixEventId : String) : Option Entry :=
  t.get? matrixEventId

/-- The events that are stored. -/
def events (t : MessageTable) : List String := t.rows.map TableRow.key

theorem rows_prune (t : MessageTable) {k : ℤ} (hk : 1 ≤ k) :
    (pruneMessageMap t k).rows = t.rows.drop (t.rows.length - k.toNat) := by
  unfold pruneMessageMap pruneMessageMapCore RowTable.count
  split_ifs with h
  · rw [RowTable.rows_deleteOldest]
    congr 1
    omega
  · rw [show t.rows.length - k.toNat = 0 by omega, List.drop_zero]

/-! ## Histories -/

/-- The table and all stores, the latest first. -/
structure State where
  table : MessageTable
  log : List (String × Entry)

def State.init : State := ⟨RowTable.empty, []⟩

inductive Act
  | store (meshtasticId : MeshId) (matrixEventId matrixRoomId meshtasticText : String)
      (meshtasticMeshnet : Option String)
  | prune (msgsToKeep : ℤ)

/-- Prunes keep at least one message. -/
def step (s : State) : Act → Option State
  | .store i e r x n =>
    some ⟨storeMessageMap s.table i e r x n, (e, ⟨i.key, r, x, n⟩) :: s.log⟩
  | .prune k => if 1 ≤ k then some ⟨pruneMessageMap s.table k, s.log⟩ else none

/-- The number of stores since the last one of the event. -/
def age (log : List (String × Entry)) (e : String) : ℕ := log.findIdx fun p => decide (p.1 = e)

/-- The data of the last store of the event. -/
def lastEntry (log : List (String × Entry)) (e : String) : Option Entry :=
  (log.find? fun p => decide (p.1 = e)).map Prod.snd

/-- A prune leaves the events that were stored last, as many as it can, with their last data, and
finds the latest one. -/
structure PruneRight (s : State) (k : ℤ) : Prop where
  kept : ∀ e ∈ events (pruneMessageMap s.table k), e ∈ events s.table
  count : ((events (pruneMessageMap s.table k)).length : ℤ) = min k (events s.table).length
  latest : ∀ x ∈ events s.table, x ∉ events (pruneMessageMap s.table k) →
    ∀ y ∈ events (pruneMessageMap s.table k), age s.log y < age s.log x
  data : ∀ e ∈ events (pruneMessageMap s.table k),
    (lastEntry s.log e).isSome = true ∧
      getMessageMapByMatrixEventId (pruneMessageMap s.table k) e = lastEntry s.log e
  found : ∀ e d rest, s.log = (e, d) :: rest →
    getMessageMapByMatrixEventId (pruneMessageMap s.table k) e = some d

/-- Every prune is right. -/
def Retains (s : State) : Prop := ∀ k : ℤ, 1 ≤ k → PruneRight s k

/-- The event is new, or that of the newest row. -/
def Fresh (s : State) : Act → Prop
  | .store _ e _ _ _ => e ∉ events s.table ∨ (events s.table).getLast? = some e
  | .prune _ => True

instance (s : State) (a : Act) : Decidable (Fresh s a) := by
  cases a
  · exact inferInstanceAs (Decidable (_ ∨ _))
  · exact isTrue trivial

/-! ## Order of the rows -/

/-- The rows are in the order of their last stores, with their last data, and the newest row is
that of the latest store. -/
structure InOrder (s : State) : Prop where
  sorted : (events s.table).Pairwise fun x y => age s.log y < age s.log x
  current : ∀ r ∈ s.table.rows, lastEntry s.log r.key = some r.data
  newest : ∀ e d rest, s.log = (e, d) :: rest → (events s.table).getLast? = some e

theorem events_prune (t : MessageTable) {k : ℤ} (hk : 1 ≤ k) :
    events (pruneMessageMap t k) = (events t).drop ((events t).length - k.toNat) := by
  unfold events
  rw [rows_prune t hk, List.map_drop, List.length_map]

theorem get_of_mem {t : MessageTable} {log : List (String × Entry)} {e : String}
    (h : ∀ r ∈ t.rows, lastEntry log r.key = some r.data) (he : e ∈ events t) :
    (lastEntry log e).isSome = true ∧ getMessageMapByMatrixEventId t e = lastEntry log e := by
  obtain ⟨r, hr, rfl⟩ := List.mem_map.mp he
  rw [h r hr]
  exact ⟨rfl, RowTable.get?_eq_some hr⟩

theorem getLast?_drop_of_lt {l : List String} {n : ℕ} (h : n < l.length) :
    (l.drop n).getLast? = l.getLast? := by
  rw [List.getLast?_drop, if_neg (by omega)]

theorem InOrder.retains {s : State} (h : InOrder s) : Retains s := by
  intro k hk
  have hevents := events_prune s.table hk
  set n := (events s.table).length - k.toNat with hn
  have hcurrent : ∀ r ∈ (pruneMessageMap s.table k).rows, lastEntry s.log r.key = some r.data := by
    intro r hr
    rw [rows_prune s.table hk] at hr
    exact h.current r (List.mem_of_mem_drop hr)
  refine ⟨fun e he => ?_, ?_, ?_, fun e he => get_of_mem hcurrent he, fun e d rest hlog => ?_⟩
  · rw [hevents] at he
    exact List.mem_of_mem_drop he
  · rw [hevents, List.length_drop]
    omega
  · intro x hx hnot y hy
    rw [hevents] at hnot hy
    have hsorted := h.sorted
    rw [← List.take_append_drop n (events s.table)] at hx hsorted
    rw [List.pairwise_append] at hsorted
    rcases List.mem_append.mp hx with hx | hx
    · exact hsorted.2.2 x hx y hy
    · exact absurd hx hnot
  · have hlast := h.newest e d rest hlog
    have hpos : 0 < (events s.table).length := by
      rw [List.length_pos_iff]
      rintro hnil
      rw [hnil] at hlast
      cases hlast
    have hmem : e ∈ events (pruneMessageMap s.table k) := by
      rw [hevents]
      refine List.mem_of_getLast? ?_
      rw [getLast?_drop_of_lt (by omega)]
      exact hlast
    rw [(get_of_mem hcurrent hmem).2, lastEntry, hlog]
    simp

/-- If every prune is right, the rows are in order: two of them are separated by a prune. -/
theorem Retains.inOrder {s : State} (h : Retains s) : InOrder s := by
  have hnodup : (events s.table).Nodup := s.table.keys
  refine ⟨?_, fun r hr => ?_, fun e d rest hlog => ?_⟩
  · rw [List.pairwise_iff_getElem]
    intro i j hi hj hij
    have hk : (1 : ℤ) ≤ ((events s.table).length - j : ℕ) := by omega
    have hright := h _ hk
    have hevents := events_prune s.table hk
    have hdrop : (events s.table).length - ((events s.table).length - j : ℕ) = j := by omega
    rw [Int.toNat_natCast, hdrop] at hevents
    refine hright.latest _ (List.getElem_mem hi) ?_ _ ?_
    · rw [hevents]
      intro hmem
      obtain ⟨m, hm, heq⟩ := List.getElem_of_mem hmem
      rw [List.getElem_drop] at heq
      have := (List.Nodup.getElem_inj_iff hnodup).mp heq
      omega
    · rw [hevents]
      refine List.mem_iff_getElem.mpr ⟨0, by rw [List.length_drop]; omega, ?_⟩
      rw [List.getElem_drop]
      rfl
  · have hk : (1 : ℤ) ≤ ((events s.table).length : ℕ) := by
      have : 0 < s.table.rows.length := List.length_pos_of_mem hr
      simp only [events, List.length_map]
      omega
    have hsame : (pruneMessageMap s.table ((events s.table).length : ℕ)).rows = s.table.rows := by
      rw [rows_prune s.table hk]
      simp [events]
    have hmem : r.key ∈ events (pruneMessageMap s.table ((events s.table).length : ℕ)) := by
      rw [events, hsame]
      exact List.mem_map_of_mem hr
    rw [← ((h _ hk).data r.key hmem).2]
    refine RowTable.get?_eq_some ?_
    rw [hsame]
    exact hr
  · have hone := h 1 (by omega)
    have hfound := hone.found e d rest hlog
    have hmem : e ∈ events (pruneMessageMap s.table 1) := by
      obtain ⟨r, hr, -⟩ := Option.map_eq_some_iff.mp hfound
      have hkey : r.key = e := by simpa using List.find?_some hr
      rw [← hkey]
      exact List.mem_map_of_mem (List.mem_of_find?_eq_some hr)
    rw [events_prune s.table (by omega)] at hmem
    have hlen : ((events s.table).drop ((events s.table).length - (1 : ℤ).toNat)).length = 1 := by
      have := List.length_pos_of_mem hmem
      rw [List.length_drop] at this ⊢
      omega
    obtain ⟨x, hx⟩ := List.length_eq_one_iff.mp hlen
    rw [hx, List.mem_singleton] at hmem
    have hlast := getLast?_drop_of_lt (l := events s.table)
      (n := (events s.table).length - (1 : ℤ).toNat) (by rw [List.length_drop] at hlen; omega)
    rw [hx] at hlast
    rw [← hlast, hmem]
    rfl

theorem retains_iff {s : State} : Retains s ↔ InOrder s :=
  ⟨Retains.inOrder, InOrder.retains⟩

/-! ## Steps -/

theorem age_cons (log : List (String × Entry)) (e x : String) (d : Entry) :
    age ((e, d) :: log) x = if x = e then 0 else age log x + 1 := by
  unfold age
  rw [List.findIdx_cons]
  by_cases h : x = e
  · simp [h]
  · simp [h, Ne.symm h]

theorem lastEntry_cons (log : List (String × Entry)) (e x : String) (d : Entry) :
    lastEntry ((e, d) :: log) x = if x = e then some d else lastEntry log x := by
  unfold lastEntry
  by_cases h : x = e
  · simp [h]
  · simp [h, Ne.symm h]

section Store

variable {s : State} {e : String} {d : Entry}

/-- The state after a store. -/
def stored (s : State) (e : String) (d : Entry) : State := ⟨s.table.upsert e d, (e, d) :: s.log⟩

theorem mem_events_iff : e ∈ events s.table ↔ ∃ r ∈ s.table.rows, r.key = e := by
  simp [events]

theorem events_stored_of_mem (h : e ∈ events s.table) :
    events (stored s e d).table = events s.table := by
  have hsame : TableRow.key ∘ RowTable.replace e d = TableRow.key := by
    funext r
    exact RowTable.replace_key e d r
  unfold events stored
  rw [RowTable.rows_upsert_of_mem (mem_events_iff.mp h), List.map_map, hsame]

theorem events_stored_of_new (h : e ∉ events s.table) :
    events (stored s e d).table = events s.table ++ [e] := by
  unfold events stored
  rw [RowTable.rows_upsert_of_new fun hr => h (mem_events_iff.mpr hr), List.map_append]
  rfl

theorem current_stored (h : ∀ r ∈ s.table.rows, lastEntry s.log r.key = some r.data) :
    ∀ r ∈ (stored s e d).table.rows, lastEntry (stored s e d).log r.key = some r.data := by
  intro r hr
  unfold stored at hr ⊢
  rw [lastEntry_cons]
  by_cases hmem : ∃ r ∈ s.table.rows, r.key = e
  · rw [RowTable.rows_upsert_of_mem hmem] at hr
    obtain ⟨a, ha, rfl⟩ := List.mem_map.mp hr
    by_cases hkey : a.key = e
    · simp [RowTable.replace, hkey]
    · simp [RowTable.replace, hkey, h a ha]
  · rw [RowTable.rows_upsert_of_new hmem] at hr
    rcases List.mem_append.mp hr with hr | hr
    · rw [if_neg fun hkey => hmem ⟨r, hr, hkey⟩, h r hr]
    · rw [List.mem_singleton.mp hr, if_pos rfl]

theorem sorted_stored {l : List String} (hl : e ∉ l)
    (h : l.Pairwise fun x y => age s.log y < age s.log x) :
    l.Pairwise fun x y => age ((e, d) :: s.log) y < age ((e, d) :: s.log) x := by
  refine List.Pairwise.imp_of_mem ?_ h
  intro x y hx hy hxy
  have hxe : x ≠ e := fun heq => hl (heq ▸ hx)
  have hye : y ≠ e := fun heq => hl (heq ▸ hy)
  rw [age_cons, age_cons, if_neg hxe, if_neg hye]
  omega

/-- A sorted list of events that ends with the stored one is sorted after the store. -/
theorem sorted_concat {l : List String} (hl : e ∉ l)
    (h : l.Pairwise fun x y => age s.log y < age s.log x) :
    (l ++ [e]).Pairwise fun x y => age ((e, d) :: s.log) y < age ((e, d) :: s.log) x := by
  rw [List.pairwise_append]
  refine ⟨sorted_stored hl h, List.pairwise_singleton _ _, fun x hx y hy => ?_⟩
  have hxe : x ≠ e := fun heq => hl (heq ▸ hx)
  rw [List.mem_singleton.mp hy, age_cons, age_cons, if_pos rfl, if_neg hxe]
  omega

theorem inOrder_stored_iff (h : InOrder s) : InOrder (stored s e d) ↔
    (e ∉ events s.table ∨ (events s.table).getLast? = some e) := by
  by_cases hmem : e ∈ events s.table
  · have hevents := events_stored_of_mem (d := d) hmem
    constructor
    · intro h'
      have hlast := h'.newest e d s.log rfl
      rw [hevents] at hlast
      exact Or.inr hlast
    · rintro (hnew | hlast)
      · exact absurd hmem hnew
      · refine ⟨?_, current_stored h.current, fun e' d' rest hlog => ?_⟩
        · rw [hevents]
          obtain ⟨l, hsplit⟩ := List.getLast?_eq_some_iff.mp hlast
          have hsorted := h.sorted
          have hnodup : (events s.table).Nodup := s.table.keys
          rw [hsplit] at hsorted hnodup ⊢
          rw [List.nodup_append] at hnodup
          have hl : e ∉ l := fun hbad => hnodup.2.2 e hbad e (List.mem_singleton_self e) rfl
          exact sorted_concat hl (List.pairwise_append.mp hsorted).1
        · cases hlog
          rw [hevents]
          exact hlast
  · refine ⟨fun _ => Or.inl hmem, fun _ => ⟨?_, current_stored h.current, ?_⟩⟩
    · rw [events_stored_of_new hmem]
      exact sorted_concat hmem h.sorted
    · intro e' d' rest hlog
      cases hlog
      rw [events_stored_of_new hmem]
      simp

end Store

theorem InOrder.prune {s : State} (h : InOrder s) {k : ℤ} (hk : 1 ≤ k) :
    InOrder ⟨pruneMessageMap s.table k, s.log⟩ := by
  have hevents := events_prune s.table hk
  refine ⟨?_, fun r hr => ?_, fun e d rest hlog => ?_⟩
  · show (events (pruneMessageMap s.table k)).Pairwise _
    rw [hevents]
    exact h.sorted.sublist (List.drop_sublist _ _)
  · change r ∈ (pruneMessageMap s.table k).rows at hr
    rw [rows_prune s.table hk] at hr
    exact h.current r (List.mem_of_mem_drop hr)
  · have hlast := h.newest e d rest hlog
    have hpos : 0 < (events s.table).length := by
      rw [List.length_pos_iff]
      intro hnil
      rw [hnil] at hlast
      cases hlast
    show (events (pruneMessageMap s.table k)).getLast? = some e
    rw [hevents, getLast?_drop_of_lt (by omega)]
    exact hlast

/-- A step keeps the order exactly if it is fresh. -/
theorem inOrder_step_iff {s s' : State} {a : Act} (h : InOrder s) (hstep : step s a = some s') :
    InOrder s' ↔ Fresh s a := by
  cases a with
  | store i e r x n =>
    cases hstep
    exact inOrder_stored_iff h
  | prune k =>
    simp only [step] at hstep
    split_ifs at hstep with hk
    cases hstep
    exact ⟨fun _ => trivial, fun _ => h.prune hk⟩

theorem inOrder_init : InOrder State.init := by
  refine ⟨List.Pairwise.nil, fun r hr => ?_, fun e d rest hlog => ?_⟩
  · cases hr
  · cases hlog

/-- **Retention.** In all states of a run from the empty table every prune leaves the latest events,
each with its last data, if and only if each store of the run is of a new event or of the newest
row. -/
theorem retains_run (acts : List Act) :
    Visited step Retains State.init acts ↔ AllSteps step Fresh State.init acts := by
  refine visited_iff_allSteps (fun s a s' hs hstep => ?_) inOrder_init.retains acts
  rw [retains_iff, inOrder_step_iff hs.inOrder hstep]

/-- An event that is stored again just before a prune is deleted by it, and an older one kept. -/
theorem restored_pruned :
    ∃ s t, runActs step State.init
        [.store (.int 1) "$a" "!r" "first" none, .store (.int 2) "$b" "!r" "second" none,
          .store (.int 1) "$a" "!r" "edited" none] = some s ∧
      step s (.prune 1) = some t ∧ getMessageMapByMatrixEventId t.table "$a" = none ∧
      events t.table = ["$b"] :=
  ⟨_, _, rfl, rfl, by decide +kernel, by decide +kernel⟩

end MMRelay.MessageMap
