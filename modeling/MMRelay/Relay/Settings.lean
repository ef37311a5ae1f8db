import MMRelay.Lib.PyValue

/-!
# Settings and stored messages that both directions read

* `getInteractionSettings`, `getMeshtasticConfigValue`;
* `addTruncatedVars`, `getMatrixPrefix`, `getMeshtasticPrefix` (`matrix/prefixes.py`);
* `MapRow`, `getMessageMapByMeshtasticId`, `getMessageMapByMatrixEventId` (`db_utils.py`): a
  `SELECT` without an order returns one of the matching rows, the first of the list here.
-/

namespace MMRelay.Relay

/-! ## Configuration -/

structure Interactions where
  reactions : Bool
  replies : Bool
  deriving DecidableEq

/-- `value if isinstance(value, bool) else False`. -/
def boolOrFalse : Py → Bool
  | .bool b => b
  | _ => false

/-- `get_interaction_settings`. -/
def getInteractionSettings (config : Py) : Interactions :=
  match config with
  | .dict _ =>
    match (config.key? "meshtastic").getD (.dict []) with
    | .dict section' =>
      let meshtastic := Py.dict section'
      match meshtastic.field "message_interactions" with
      | .none =>
        match meshtastic.key? "relay_reactions" with
        | some enabled => ⟨boolOrFalse enabled, false⟩
        | none => ⟨false, false⟩
      | .dict kvs =>
        ⟨boolOrFalse ((Py.dict kvs).field "reactions"), boolOrFalse ((Py.dict kvs).field "replies")⟩
      | _ => ⟨false, false⟩
    | _ => ⟨false, false⟩
  | _ => ⟨false, false⟩

/-- `message_storage_enabled`. -/
def messageStorageEnabled (i : Interactions) : Bool := i.reactions || i.replies

/-- `get_meshtastic_config_value` of an optional key. -/
def getMeshtasticConfigValue (config : Py) (key : String) (default : Py) : Py :=
  match (config.key? "meshtastic").getD (.dict []) with
  | .dict kvs => (kvs.lookup key).getD default
  | _ => default

/-! ## Prefixes -/

/-- `MAX_TRUNCATION_LENGTH`. -/
def maxTruncationLength : ℕ := 20

/-- `_add_truncated_vars`. -/
def addTruncatedVars (name : String) (text : Py) : Except PyErr (List (String × Py)) :=
  (List.range maxTruncationLength).mapM fun i => do
    let value ← (text.orElse (.str "")).slice (i + 1)
    pure (name ++ toString (i + 1), value)

/-- `DEFAULT_MATRIX_PREFIX`. -/
def defaultMatrixPrefix : String := "[\x7blong\x7d/\x7bmesh\x7d]: "

/-- `DEFAULT_MESHTASTIC_PREFIX`. -/
def defaultMeshtasticPrefix : String := "\x7bdisplay5\x7d[M]: "

/-- `DISPLAY_NAME_DEFAULT_LENGTH`. -/
def displayNameDefaultLength : ℕ := 5

/-- The section of the configuration, empty when it is not a mapping. -/
def configSection (config : Py) (name : String) : Py :=
  match config.field name with
  | .dict kvs => .dict kvs
  | _ => .dict []

/-- `str(value) if value is not None else default` of `prefix_format`. -/
def prefixFormat (rt : Builtins) (section' : Py) (default : String) : String :=
  match (section'.key? "prefix_format").getD (.str default) with
  | .none => default
  | value => value.toStr rt

/-- `get_matrix_prefix`. -/
def getMatrixPrefix (rt : Builtins) (config longname shortname meshnetName : Py) :
    Except PyErr String :=
  match config with
  | .dict _ =>
    let section' := configSection config "matrix"
    if !((section'.key? "prefix_enabled").getD (.bool true)).truthy then .ok ""
    else do
      let longVars ← addTruncatedVars "long" longname
      let meshVars ← addTruncatedVars "mesh" meshnetName
      match rt.format (prefixFormat rt section' defaultMatrixPrefix)
          ([("long", longname), ("short", shortname), ("mesh", meshnetName)] ++ longVars
            ++ meshVars) with
      | some result => pure result
      | none => pure ("[" ++ (longname.orElse (.str "")).toStr rt ++ "/"
          ++ (meshnetName.orElse (.str "")).toStr rt ++ "]: ")
  | _ => .ok ""

/-- `username` and `server` of a full user id. -/
def splitUserId (userId : String) : String × String :=
  match userId.toList with
  | '@' :: cs =>
    if cs.contains ':' then
      (String.ofList (cs.takeWhile (· ≠ ':')), String.ofList ((cs.dropWhile (· ≠ ':')).drop 1))
    else ("", "")
  | _ => ("", "")

/-- The truncated variants of a string never raise. -/
def displayVars (displayName : String) : List (String × Py) :=
  (List.range maxTruncationLength).map fun i =>
    ("display" ++ toString (i + 1), .str (takeChars displayName (i + 1)))

/-- `get_meshtastic_prefix`. -/
def getMeshtasticPrefix (rt : Builtins) (config : Py) (displayName userId : String) : String :=
  match config with
  | .dict _ =>
    let section' := configSection config "meshtastic"
    if !((section'.key? "prefix_enabled").getD (.bool true)).truthy then ""
    else
      let parts := splitUserId userId
      match rt.format (prefixFormat rt section' defaultMeshtasticPrefix)
          ([("display", .str displayName), ("user", .str userId), ("username", .str parts.1),
            ("server", .str parts.2)] ++ displayVars displayName) with
      | some result => result
      | none => takeChars displayName displayNameDefaultLength ++ "[M]: "
  | _ => ""

/-! ## The message map -/

/-- A row of `message_map`; a column may be `NULL`. -/
structure MapRow where
  meshtasticId : Option String
  matrixEventId : Option String
  matrixRoomId : Option String
  meshtasticText : Option String
  meshtasticMeshnet : Option String
  deriving DecidableEq

/-- A column as the value that `sqlite3` returns. -/
def columnValue : Option String → Py
  | none => .none
  | some s => .str s

/-- `get_message_map_by_meshtastic_id`, for the key `str(meshtastic_id)`. -/
def getMessageMapByMeshtasticId (rows : List MapRow) (idKey : String) : Option MapRow :=
  rows.find? fun r => r.meshtasticId == some idKey

/-- `get_message_map_by_matrix_event_id`. -/
def getMessageMapByMatrixEventId (rows : List MapRow) (eventId : String) : Option MapRow :=
  rows.find? fun r => r.matrixEventId == some eventId

theorem getMessageMapByMeshtasticId_eq_some {rows : List MapRow} {key : String} {r : MapRow}
    (h : getMessageMapByMeshtasticId rows key = some r) :
    r ∈ rows ∧ r.meshtasticId = some key := by
  refine ⟨List.mem_of_find?_eq_some h, ?_⟩
  simpa using List.find?_some h

end MMRelay.Relay
