import MMRelay.Lib.PyValue
import MMRelay.Lib.Run
import Mathlib.Logic.Function.Basic

/-!
# The data that plugins keep for nodes

`store_plugin_data`, `delete_plugin_data`, `get_plugin_data_for_node` (`db_utils.py`) and
`store_node_data`, `set_node_data`, `delete_node_data`, `get_node_data`
(`plugins/base_plugin.py`), for any plugins and nodes, with reads and writes that may fail.

* `Json`: what is used of `json`;
* `lastRows`: a slice that keeps the newest rows; **`lastRows_append`**: it may be taken early;
* `State`, `Act`, `step`: the table, and beside it an unbounded log of what was appended;
* **`node_data_windows`**: what a plugin gets for a node is always the newest rows of its log.
-/

namespace MMRelay.Plugins.NodeData

/-- What `json.loads` raises: an error that is caught, or another one, as for an integer with very
many digits or a value that is nested very deeply. -/
inductive LoadsError
  | decodeError
  | other
  deriving DecidableEq

/-- `json.dumps`, `none` when it raises, and `json.loads`, for what can be in the column `data`. -/
structure Json (Cell : Type) where
  dumps : Py → Option Cell
  loads : Cell → Except LoadsError Py

/-- The name of a plugin and `str(meshtastic_id)`. -/
structure Key where
  pluginName : String
  meshtasticId : String
  deriving DecidableEq

/-- What becomes of a query: a database error is caught, another one is not. -/
inductive Query
  | succeeds
  | fails
  | raises
  deriving DecidableEq

/-- The table `plugin_data`: the column `data` by its primary key. -/
abbrev Table (Cell : Type) := Key → Option Cell

section Code

variable {Cell : Type} (json : Json Cell) (table : Table Cell) (key : Key)

/-! ## Reading and writing -/

/-- `store_plugin_data`; `writes` tells whether the transaction succeeds. -/
def storePluginData (data : Py) (writes : Bool) : Table Cell :=
  match json.dumps data with
  | none => table
  | some payload => if writes then Function.update table key (some payload) else table

/-- `delete_plugin_data`. -/
def deletePluginData (writes : Bool) : Table Cell :=
  if writes then Function.update table key none else table

/-- `get_plugin_data_for_node`; `none` when it raises. -/
def getPluginDataForNode (query : Query) : Option Py :=
  match query with
  | .fails => some (.list [])
  | .raises => none
  | .succeeds =>
    match table key with
    | none => some (.list [])
    | some payload =>
      match json.loads payload with
      | .ok data => some data
      | .error .decodeError => some (.list [])
      | .error .other => none

/-- `rows[-n:]`; with zero it is the whole list. -/
def lastRows (n : ℕ) (rows : List Py) : List Py := if n = 0 then rows else rows.rtake n

/-- What is not a list is a list of one. -/
def asList : Py → List Py
  | .list xs => xs
  | x => [x]

/-- `store_node_data`. -/
def storeNodeData (maxRows : ℕ) (nodeData : Py) (query : Query) (writes : Bool) : Table Cell :=
  match getPluginDataForNode json table key query with
  | none => table
  | some data =>
    storePluginData json table key (.list (lastRows maxRows (asList data ++ asList nodeData))) writes

/-- `set_node_data`, for data that is a JSON value: a string and a dictionary are one row. -/
def setNodeData (maxRows : ℕ) (nodeData : Py) (writes : Bool) : Table Cell :=
  storePluginData json table key (.list (lastRows maxRows (asList nodeData))) writes

end Code

/-! ## The log -/

/-- The table, and for each key what was appended since it was last set, deleted or misread. -/
structure State (Cell : Type) where
  table : Table Cell
  log : Key → List Py
  written : Key → Bool

inductive Act
  | store (key : Key) (nodeData : Py) (query : Query) (writes : Bool)
  | set (key : Key) (nodeData : Py) (writes : Bool)
  | delete (key : Key) (writes : Bool)

section Steps

variable {Cell : Type} (json : Json Cell)

/-- The rows are in the log if they were stored. -/
def State.record (s : State Cell) (maxRows : ℕ) (table : Table Cell) (key : Key) (log : List Py)
    (writes : Bool) : State Cell :=
  if writes && (json.dumps (.list (lastRows maxRows log))).isSome then
    ⟨table, Function.update s.log key log, Function.update s.written key true⟩
  else { s with table := table }

/-- The log that a call of `store_node_data` adds to: with a query that fails it is lost. -/
def State.known (s : State Cell) (key : Key) : Query → List Py
  | .succeeds => s.log key
  | _ => []

/-- One call of a plugin, whose `max_data_rows_per_node` is `maxRows` of its name. -/
def step (maxRows : String → ℕ) (s : State Cell) : Act → Option (State Cell)
  | .store key nodeData query writes =>
    let n := maxRows key.pluginName
    let table := storeNodeData json s.table key n nodeData query writes
    some (if (getPluginDataForNode json s.table key query).isSome then
        s.record json n table key (s.known key query ++ asList nodeData) writes
      else { s with table := table })
  | .set key nodeData writes =>
    let n := maxRows key.pluginName
    some (s.record json n (setNodeData json s.table key n nodeData writes) key (asList nodeData)
      writes)
  | .delete key writes =>
    some (if writes then
      ⟨deletePluginData s.table key writes, Function.update s.log key [],
        Function.update s.written key true⟩
      else s)

/-- The logs begin with what the table holds. -/
def initial (table : Table Cell) : State Cell where
  table := table
  log key := ((getPluginDataForNode json table key .succeeds).map asList).getD []
  written _ := false

/-- What is stored for a node is the end of its log. -/
structure Windows (maxRows : String → ℕ) (first : Table Cell) (s : State Cell) : Prop where
  newest : ∀ key data, getPluginDataForNode json s.table key .succeeds = some data →
    lastRows (maxRows key.pluginName) (asList data) =
      lastRows (maxRows key.pluginName) (s.log key)
  /-- A key that was written can be read, and has these rows and no more. -/
  exact : ∀ key : Key, s.written key = true →
    getPluginDataForNode json s.table key .succeeds =
      some (.list (lastRows (maxRows key.pluginName) (s.log key)))
  untouched : ∀ key, s.written key = false → s.table key = first key

end Steps

/-! ## Slices -/

theorem lastRows_lastRows (n : ℕ) (rows : List Py) :
    lastRows n (lastRows n rows) = lastRows n rows := by
  unfold lastRows
  split_ifs
  · rfl
  · rw [List.rtake_eq_reverse_take_reverse, List.rtake_eq_reverse_take_reverse,
      List.reverse_reverse, List.take_take, min_self]

/-- **The newest rows of a list depend on the newest rows of its parts only.** -/
theorem lastRows_append (n : ℕ) (rows new : List Py) :
    lastRows n (lastRows n rows ++ new) = lastRows n (rows ++ new) := by
  unfold lastRows
  split_ifs
  · rfl
  · simp only [List.rtake_eq_reverse_take_reverse, List.reverse_append, List.reverse_reverse,
      List.take_append, List.take_take]
    rw [min_eq_left (Nat.sub_le _ _)]

/-! ## One call -/

section Calls

variable {Cell : Type} {json : Json Cell} {maxRows : String → ℕ} {first : Table Cell}
  {s t : State Cell} {key : Key} {rows log : List Py} {payload : Option Cell} {stored : Py}

theorem getPluginDataForNode_of_ne {key' : Key} (table : Table Cell) (hkey : key' ≠ key) :
    getPluginDataForNode json (Function.update table key payload) key' .succeeds =
      getPluginDataForNode json table key' .succeeds := by
  unfold getPluginDataForNode
  rw [Function.update_of_ne hkey]

theorem Windows.replace (h : Windows json maxRows first s)
    (hget : getPluginDataForNode json (Function.update s.table key payload) key .succeeds =
      some (.list (lastRows (maxRows key.pluginName) log))) :
    Windows json maxRows first ⟨Function.update s.table key payload, Function.update s.log key log,
      Function.update s.written key true⟩ := by
  constructor
  · intro key' data hdata
    dsimp only at hdata ⊢
    by_cases hkey : key' = key
    · subst hkey
      rw [hget] at hdata
      obtain rfl := Option.some.inj hdata
      rw [Function.update_self]
      exact lastRows_lastRows _ log
    · rw [getPluginDataForNode_of_ne _ hkey] at hdata
      rw [Function.update_of_ne hkey]
      exact h.newest key' data hdata
  · intro key' hwritten
    dsimp only at hwritten ⊢
    by_cases hkey : key' = key
    · subst hkey
      rw [hget, Function.update_self]
    · rw [Function.update_of_ne hkey] at hwritten ⊢
      rw [getPluginDataForNode_of_ne _ hkey]
      exact h.exact key' hwritten
  · intro key' hwritten
    dsimp only at hwritten ⊢
    by_cases hkey : key' = key
    · subst hkey
      rw [Function.update_self] at hwritten
      cases hwritten
    · rw [Function.update_of_ne hkey] at hwritten ⊢
      exact h.untouched key' hwritten

theorem Windows.record (hjson : ∀ v c, json.dumps v = some c → json.loads c = .ok v)
    (h : Windows json maxRows first s) {writes : Bool}
    (hrows : lastRows (maxRows key.pluginName) rows = lastRows (maxRows key.pluginName) log) :
    Windows json maxRows first (s.record json (maxRows key.pluginName)
      (storePluginData json s.table key (.list (lastRows (maxRows key.pluginName) rows)) writes)
      key log writes) := by
  rw [hrows]
  unfold State.record storePluginData
  cases hdumps : json.dumps (.list (lastRows (maxRows key.pluginName) log)) with
  | none =>
    rw [Option.isSome_none, Bool.and_false, if_neg Bool.false_ne_true]
    exact h
  | some payload =>
    cases writes with
    | false => exact h
    | true =>
      refine h.replace ?_
      unfold getPluginDataForNode
      rw [Function.update_self]
      simp only [hjson _ _ hdumps]

theorem windows_store (hjson : ∀ v c, json.dumps v = some c → json.loads c = .ok v)
    (h : Windows json maxRows first s) {nodeData : Py} {query : Query} {writes : Bool}
    (hs : step json maxRows s (.store key nodeData query writes) = some t) :
    Windows json maxRows first t := by
  cases hs
  unfold storeNodeData
  cases hget : getPluginDataForNode json s.table key query with
  | none => exact h
  | some data =>
    rw [Option.isSome_some, if_pos rfl]
    refine h.record hjson ?_
    cases query with
    | succeeds =>
      show _ = lastRows _ (s.log key ++ _)
      rw [← lastRows_append, h.newest key data hget, lastRows_append]
    | fails =>
      cases hget
      rfl
    | raises => cases hget

theorem windows_delete (h : Windows json maxRows first s) {writes : Bool}
    (hs : step json maxRows s (.delete key writes) = some t) : Windows json maxRows first t := by
  cases hs
  split_ifs with hwrites
  · unfold deletePluginData
    rw [if_pos hwrites]
    refine h.replace ?_
    unfold getPluginDataForNode
    rw [Function.update_self, lastRows, List.rtake_nil, ite_self]
  · exact h

theorem windows_step (hjson : ∀ v c, json.dumps v = some c → json.loads c = .ok v) {a : Act}
    (h : Windows json maxRows first s) (hs : step json maxRows s a = some t) :
    Windows json maxRows first t := by
  cases a with
  | store key nodeData query writes => exact windows_store hjson h hs
  | set key nodeData writes =>
    cases hs
    exact h.record hjson rfl
  | delete key writes => exact windows_delete h hs

end Calls

/-! ## The runs -/

/-- **What a plugin gets for a node is the end of a log.** Whatever the table holds at first and
however the calls of all plugins for all nodes follow one another, with queries that fail and
values that cannot be encoded, the newest rows stored for a node are the newest of all that was
appended since it was last set, deleted or misread, in their order; a key that was written has none
else, and a key that was not has what it had. -/
theorem node_data_windows {Cell : Type} (json : Json Cell)
    (hjson : ∀ v c, json.dumps v = some c → json.loads c = .ok v) (maxRows : String → ℕ)
    (table : Table Cell) (acts : List Act) :
    Visited (step json maxRows) (Windows json maxRows table) (initial json table) acts := by
  refine visited_of_invariant (fun _ _ _ h _ hs => windows_step hjson h hs) (fun _ h => h) ?_
    (allSteps_of_forall (fun _ _ => trivial) _ acts)
  refine ⟨fun key data hdata => ?_, fun _ h => absurd h Bool.false_ne_true, fun _ _ => rfl⟩
  show _ = lastRows _ (((getPluginDataForNode json table key .succeeds).map asList).getD [])
  rw [show getPluginDataForNode json table key .succeeds = some data from hdata]
  rfl

/-- The texts of lists of up to two small numbers. -/
def smallJson : Json String where
  dumps
    | .list [.int 1] => some "[1]"
    | .list [.int 1, .int 2] => some "[1, 2]"
    | .list [.int 2, .int 3] => some "[2, 3]"
    | _ => none
  loads text :=
    if text = "[1]" then .ok (.list [.int 1])
    else if text = "[1, 2]" then .ok (.list [.int 1, .int 2])
    else if text = "[2, 3]" then .ok (.list [.int 2, .int 3])
    else .error .decodeError

/-- Three rows are stored for a node, of which two are kept. -/
def threeRows : List Act :=
  [1, 2, 3].map fun n => .store ⟨"mesh", "!1"⟩ (.int n) .succeeds true

theorem node_data_windows_three :
    Visited (step smallJson fun _ => 2) (Windows smallJson (fun _ => 2) fun _ => none)
        (initial smallJson fun _ => none) threeRows ∧
      ((runActs (step smallJson fun _ => 2) (initial smallJson fun _ => none) threeRows).bind
        fun s => s.table ⟨"mesh", "!1"⟩) = some "[2, 3]" := by
  refine ⟨node_data_windows smallJson (fun v c h => ?_) (fun _ => 2) (fun _ => none) threeRows,
    by decide +kernel⟩
  unfold smallJson at h ⊢
  dsimp only at h ⊢
  split at h <;> cases h <;> rfl

end MMRelay.Plugins.NodeData
