import MMRelay.Lib.Dict
import MMRelay.Lib.PyValue

/-!
# Settings from the environment

`apply_env_config_overrides` (`config.py`) with what it calls: `_load_config_from_env_mapping` and
its tables, `_convert_env_bool`, `_convert_env_int`, `_convert_env_float`, the loaders of the four
sections, `_normalize_optional_dict_sections` and `_get_mapping_section`.

* `EnvType`, `Mapping`, `convert`: the variables and their values;
* `envTables`: the tables;
* `applyEnvConfigOverrides`: the code;
* `Legal`: the values that a variable can give;
* `Overlay`: what the environment does to a configuration;
* **`env_overlays`**: it does so to every configuration, and only once.
-/

namespace MMRelay.Config

/-! ## Variables -/

/-- The types of the tables, with their bounds. -/
inductive EnvType
  | string
  | int (least most : Option ℤ)
  | float (least most : Option ℚ)
  | bool
  /-- The value is lowered first. -/
  | enum (valid : List String)

structure Mapping where
  envVar : String
  configKey : String
  type : EnvType

/-- `_convert_env_bool`; `ENV_BOOL_TRUE_VALUES` and `ENV_BOOL_FALSE_VALUES`. -/
def convertEnvBool (value : String) : Option Bool :=
  if asciiLower value ∈ ["true", "1", "yes", "on"] then some true
  else if asciiLower value ∈ ["false", "0", "no", "off"] then some false
  else none

/-- A value within the bounds that there are. -/
def Within {α : Type} [LE α] (least most : Option α) (a : α) : Prop :=
  (∀ l ∈ least, l ≤ a) ∧ ∀ m ∈ most, a ≤ m

instance {α : Type} [LE α] [DecidableLE α] (least most : Option α) (a : α) :
    Decidable (Within least most a) :=
  inferInstanceAs (Decidable ((∀ l ∈ least, l ≤ a) ∧ ∀ m ∈ most, a ≤ m))

/-- `_convert_env_int`. -/
def convertEnvInt (value : String) (least most : Option ℤ) : Option ℤ :=
  (intOfStr value).filter fun n => Within least most n

/-- `_convert_env_float`; only finite numbers are taken. -/
def convertEnvFloat (rt : Builtins) (value : String) (least most : Option ℚ) : Option ℚ :=
  match rt.toFloat (.str value) with
  | .ok (.fin q) => if Within least most q then some q else none
  | _ => none

/-- The value of a variable that is set; `none` when it is skipped. -/
def convert (rt : Builtins) (type : EnvType) (value : String) : Option Py :=
  match type with
  | .string => some (.str value)
  | .int least most => (convertEnvInt value least most).map .int
  | .float least most => (convertEnvFloat rt value least most).map fun q => .float (.fin q)
  | .bool => (convertEnvBool value).map .bool
  | .enum valid => if asciiLower value ∈ valid then some (.str (asciiLower value)) else none

/-- `os.getenv`. -/
abbrev Env := String → Option String

/-- `_load_config_from_env_mapping`; no settings are an empty dictionary. -/
def loadConfigFromEnvMapping (rt : Builtins) (env : Env) (mappings : List Mapping) :
    List (String × Py) :=
  mappings.foldl (fun config mapping =>
    match (env mapping.envVar).bind (convert rt mapping.type) with
    | some value => dictSet config mapping.configKey value
    | none => config) []

/-! ## The tables -/

/-- `_MESHTASTIC_ENV_VAR_MAPPINGS`. -/
def meshtasticEnvVarMappings : List Mapping :=
  [⟨"MMRELAY_MESHTASTIC_CONNECTION_TYPE", "connection_type", .enum ["tcp", "serial", "ble"]⟩,
    ⟨"MMRELAY_MESHTASTIC_HOST", "host", .string⟩,
    ⟨"MMRELAY_MESHTASTIC_PORT", "port", .int (some 1) (some 65535)⟩,
    ⟨"MMRELAY_MESHTASTIC_SERIAL_PORT", "serial_port", .string⟩,
    ⟨"MMRELAY_MESHTASTIC_BLE_ADDRESS", "ble_address", .string⟩,
    ⟨"MMRELAY_MESHTASTIC_BROADCAST_ENABLED", "broadcast_enabled", .bool⟩,
    ⟨"MMRELAY_MESHTASTIC_MESHNET_NAME", "meshnet_name", .string⟩,
    ⟨"MMRELAY_MESHTASTIC_MESSAGE_DELAY", "message_delay", .float (some 2) none⟩,
    ⟨"MMRELAY_MESHTASTIC_NODEDB_REFRESH_INTERVAL", "nodedb_refresh_interval", .float (some 0) none⟩]

/-- `_LOGGING_ENV_VAR_MAPPINGS`. -/
def loggingEnvVarMappings : List Mapping :=
  [⟨"MMRELAY_LOGGING_LEVEL", "level", .enum ["debug", "info", "warning", "error", "critical"]⟩,
    ⟨"MMRELAY_LOG_FILE", "filename", .string⟩]

/-- `_DATABASE_ENV_VAR_MAPPINGS`. -/
def databaseEnvVarMappings : List Mapping := [⟨"MMRELAY_DATABASE_PATH", "path", .string⟩]

/-- `_MATRIX_ENV_VAR_MAPPINGS`. -/
def matrixEnvVarMappings : List Mapping :=
  [⟨"MMRELAY_MATRIX_HOMESERVER", "homeserver", .string⟩,
    ⟨"MMRELAY_MATRIX_BOT_USER_ID", "bot_user_id", .string⟩,
    ⟨"MMRELAY_MATRIX_PASSWORD", "password", .string⟩,
    ⟨"MMRELAY_MATRIX_ACCESS_TOKEN", "access_token", .string⟩]

/-- `load_logging_config_from_env`; a file name turns the log file on. -/
def loadLoggingConfigFromEnv (rt : Builtins) (env : Env) : List (String × Py) :=
  let config := loadConfigFromEnvMapping rt env loggingEnvVarMappings
  if ((Py.dict config).field "filename").truthy then dictSet config "log_to_file" (.bool true)
  else config

/-- The tables of the sections, in the order of the overrides. -/
def envTables : List (String × List Mapping) :=
  [("meshtastic", meshtasticEnvVarMappings), ("logging", loggingEnvVarMappings),
    ("database", databaseEnvVarMappings), ("matrix", matrixEnvVarMappings)]

/-- What the environment sets in a section. -/
def sectionSettings (rt : Builtins) (env : Env) (name : String) (mappings : List Mapping) :
    List (String × Py) :=
  if name = "logging" then loadLoggingConfigFromEnv rt env
  else loadConfigFromEnvMapping rt env mappings

/-! ## Overrides -/

/-- `NORMALIZABLE_CONFIG_SECTIONS`. -/
def normalizableConfigSections : List String :=
  ["matrix", "meshtastic", "logging", "database", "db", "plugins", "custom-plugins",
    "community-plugins"]

/-- One turn of the loop of `_normalize_optional_dict_sections`. -/
def normalizeSection (config : List (String × Py)) (name : String) : List (String × Py) :=
  match config.lookup name with
  | some .none => dictSet config name (.dict [])
  | _ => config

/-- `_normalize_optional_dict_sections`. -/
def normalizeOptionalDictSections (config : List (String × Py)) : List (String × Py) :=
  normalizableConfigSections.foldl normalizeSection config

/-- The overrides of one section, through `_get_mapping_section`. -/
def applySection (config : List (String × Py)) (name : String) (settings : List (String × Py)) :
    List (String × Py) :=
  if settings.isEmpty then config
  else
    match config.lookup name with
    | none | some .none => dictSet config name (.dict (dictUpdate [] settings))
    | some (.dict kvs) => dictSet config name (.dict (dictUpdate kvs settings))
    | some _ => config

/-- `apply_env_config_overrides` of a mapping. -/
def applyEnvConfigOverrides (rt : Builtins) (env : Env) (config : List (String × Py)) :
    List (String × Py) :=
  envTables.foldl (fun config s => applySection config s.1 (sectionSettings rt env s.1 s.2))
    (normalizeOptionalDictSections config)

/-! ## What is set -/

variable {rt : Builtins} {env : Env}

/-- The values that a variable of a type can give. -/
def Legal (type : EnvType) (value : Py) : Prop :=
  match type, value with
  | .string, .str _ => True
  | .int least most, .int n => Within least most n
  | .float least most, .float (.fin q) => Within least most q
  | .bool, .bool _ => True
  | .enum valid, .str s => s ∈ valid
  | _, _ => False

theorem legal_of_convert {type : EnvType} {raw : String} {value : Py}
    (h : convert rt type raw = some value) : Legal type value := by
  cases type with
  | string =>
    cases h
    trivial
  | int least most =>
    obtain ⟨n, hn, rfl⟩ := Option.map_eq_some_iff.mp h
    have hwithin := (Option.filter_eq_some_iff.mp hn).2
    rwa [decide_eq_true_eq] at hwithin
  | float least most =>
    obtain ⟨q, hq, rfl⟩ := Option.map_eq_some_iff.mp h
    unfold convertEnvFloat at hq
    split at hq
    · split_ifs at hq with hwithin
      cases hq
      exact hwithin
    · cases hq
  | bool =>
    obtain ⟨b, -, rfl⟩ := Option.map_eq_some_iff.mp h
    trivial
  | enum valid =>
    simp only [convert] at h
    split_ifs at h with hvalid
    cases h
    exact hvalid

/-- The value that a variable gives. -/
def Mapping.value (rt : Builtins) (env : Env) (m : Mapping) : Option Py :=
  (env m.envVar).bind (convert rt m.type)

/-- One turn of the loop of `_load_config_from_env_mapping`. -/
def setMapping (rt : Builtins) (env : Env) (config : List (String × Py)) (m : Mapping) :
    List (String × Py) :=
  match m.value rt env with
  | some value => dictSet config m.configKey value
  | none => config

theorem load_eq (mappings : List Mapping) :
    loadConfigFromEnvMapping rt env mappings = mappings.foldl (setMapping rt env) [] := rfl

theorem nodup_setMappings (mappings : List Mapping) {config : List (String × Py)}
    (h : (config.map Prod.fst).Nodup) :
    ((mappings.foldl (setMapping rt env) config).map Prod.fst).Nodup := by
  induction mappings generalizing config with
  | nil => exact h
  | cons m ms ih =>
    refine ih ?_
    unfold setMapping
    split
    · exact nodup_dictSet h
    · exact h

theorem lookup_setMapping (config : List (String × Py)) (m : Mapping) (key : String) :
    (setMapping rt env config m).lookup key =
      if key = m.configKey then (m.value rt env).or (config.lookup key) else config.lookup key := by
  unfold setMapping
  cases m.value rt env with
  | none => simp
  | some value =>
    show (dictSet config m.configKey value).lookup key = _
    rw [lookup_dictSet]
    rfl

theorem lookup_setMappings (mappings : List Mapping)
    (hkeys : (mappings.map Mapping.configKey).Nodup) (config : List (String × Py)) (key : String) :
    (mappings.foldl (setMapping rt env) config).lookup key =
      ((mappings.find? fun m => m.configKey = key).bind (Mapping.value rt env)).or
        (config.lookup key) := by
  induction mappings generalizing config with
  | nil => rfl
  | cons m ms ih =>
    rw [List.map_cons, List.nodup_cons] at hkeys
    rw [List.foldl_cons, ih hkeys.2, lookup_setMapping, List.find?_cons]
    by_cases hkey : m.configKey = key
    · have hnone : ms.find? (fun m => m.configKey = key) = none := by
        rw [List.find?_eq_none]
        intro other hother heq
        rw [decide_eq_true_eq] at heq
        exact hkeys.1 (List.mem_map.mpr ⟨other, hother, heq.trans hkey.symm⟩)
      rw [hnone, if_pos hkey.symm, decide_eq_true hkey]
      rfl
    · rw [if_neg (Ne.symm hkey), decide_eq_false hkey]

theorem nodup_load (mappings : List Mapping) :
    ((loadConfigFromEnvMapping rt env mappings).map Prod.fst).Nodup :=
  nodup_setMappings mappings List.nodup_nil

theorem nodup_sectionSettings (name : String) (mappings : List Mapping) :
    ((sectionSettings rt env name mappings).map Prod.fst).Nodup := by
  unfold sectionSettings loadLoggingConfigFromEnv
  split
  · dsimp only
    split
    · exact nodup_dictSet (nodup_load _)
    · exact nodup_load _
  · exact nodup_load mappings

/-! ## The overrides -/

/-- A section that is null becomes empty. -/
def normalized : Option Py → Option Py
  | some .none => some (.dict [])
  | x => x

theorem normalized_normalized (x : Option Py) : normalized (normalized x) = normalized x := by
  match x with
  | none => rfl
  | some .none => rfl
  | some (.bool _) | some (.int _) | some (.float _) | some (.str _) | some (.list _)
  | some (.dict _) => rfl

theorem lookup_normalizeSection (config : List (String × Py)) (name other : String) :
    (normalizeSection config name).lookup other =
      if other = name then normalized (config.lookup name) else config.lookup other := by
  unfold normalizeSection
  split
  · next hnull =>
    rw [lookup_dictSet, hnull]
    rfl
  · next hnot =>
    by_cases hname : other = name
    · subst hname
      rw [if_pos rfl]
      unfold normalized
      split
      · next hnull => exact absurd hnull hnot
      · rfl
    · rw [if_neg hname]

theorem lookup_normalizeSections (names : List String) (config : List (String × Py))
    (name : String) :
    (names.foldl normalizeSection config).lookup name =
      if name ∈ names then normalized (config.lookup name) else config.lookup name := by
  induction names generalizing config with
  | nil => rfl
  | cons n ns ih =>
    rw [List.foldl_cons, ih, lookup_normalizeSection]
    by_cases hname : name = n
    · subst hname
      simp [normalized_normalized]
    · simp [hname]

/-- A section of the configuration with settings over it. -/
def overlaid (settings : List (String × Py)) (old : Option Py) : Option Py :=
  if settings.isEmpty then old
  else
    match old with
    | none | some .none => some (.dict (dictUpdate [] settings))
    | some (.dict kvs) => some (.dict (dictUpdate kvs settings))
    | some x => some x

theorem lookup_applySection (config : List (String × Py)) (name : String)
    (settings : List (String × Py)) (other : String) :
    (applySection config name settings).lookup other =
      if other = name then overlaid settings (config.lookup name) else config.lookup other := by
  unfold applySection overlaid
  split
  · split
    · next hname => rw [hname]
    · rfl
  · split
    · exact lookup_dictSet config name _ other
    · exact lookup_dictSet config name _ other
    · exact lookup_dictSet config name _ other
    · next x hx =>
      by_cases hname : other = name
      · subst hname
        rw [if_pos rfl, hx]
      · rw [if_neg hname]

theorem lookup_applySections (tables : List (String × List Mapping))
    (hnames : (tables.map Prod.fst).Nodup) (config : List (String × Py)) (name : String) :
    (tables.foldl (fun config s => applySection config s.1 (sectionSettings rt env s.1 s.2))
      config).lookup name =
        match tables.lookup name with
        | some mappings => overlaid (sectionSettings rt env name mappings) (config.lookup name)
        | none => config.lookup name := by
  induction tables generalizing config with
  | nil => rfl
  | cons table tables ih =>
    obtain ⟨section', mappings⟩ := table
    rw [List.map_cons, List.nodup_cons] at hnames
    rw [List.foldl_cons, ih hnames.2, lookup_applySection, List.lookup_cons]
    by_cases hname : name = section'
    · subst hname
      have hnone : tables.lookup name = none := by
        rw [List.lookup_eq_none_iff]
        intro entry hentry
        have hne : name ≠ entry.1 := fun h => hnames.1 (List.mem_map.mpr ⟨entry, hentry, h.symm⟩)
        simpa using hne
      rw [hnone, beq_self_eq_true]
      simp
    · have hne : (name == section') = false := by simpa using hname
      rw [hne, if_neg hname]

/-! ## What the environment does -/

/-- What the environment sets for a key of a section. -/
def setting (rt : Builtins) (env : Env) (name key : String) : Option Py :=
  (envTables.lookup name).bind fun mappings =>
    (sectionSettings rt env name mappings).lookup key

/-- A value in a section of a configuration. -/
def valueIn (config : List (String × Py)) (name key : String) : Option Py :=
  (config.lookup name).bind fun x => x.key? key

/-- A section that is a mapping, null or absent. -/
def Settable (config : List (String × Py)) (name : String) : Prop :=
  config.lookup name = none ∨ config.lookup name = some .none ∨
    ∃ kvs, config.lookup name = some (.dict kvs)

/-- The configuration `result` is `config` with what the environment sets. -/
structure Overlay (rt : Builtins) (env : Env) (config result : List (String × Py)) : Prop where
  wins : ∀ name mappings m value, (name, mappings) ∈ envTables → m ∈ mappings →
    m.value rt env = some value → Settable config name →
    valueIn result name m.configKey = some value
  /-- A key that the environment does not set has the value that it had. -/
  keeps : ∀ name key, setting rt env name key = none →
    valueIn result name key = valueIn config name key
  /-- What is neither a mapping nor null is left as it is. -/
  leaves : ∀ name x, config.lookup name = some x → x ≠ .none → x.isDict = false →
    result.lookup name = some x
  /-- Sections that the environment does not know are only made empty when they are null. -/
  others : ∀ name, envTables.lookup name = none →
    (config.lookup name = some .none → name ∉ normalizableConfigSections) →
      result.lookup name = config.lookup name
  /-- An optional section that is null becomes a mapping with what the environment sets. -/
  emptied : ∀ name ∈ normalizableConfigSections, config.lookup name = some .none →
    ∃ kvs, result.lookup name = some (.dict kvs) ∧ ∀ key, kvs.lookup key = setting rt env name key
  noNull : ∀ name ∈ normalizableConfigSections, result.lookup name ≠ some .none
  /-- Every value that is set is legal for its variable, or turns the log file on. -/
  legal : ∀ name key value, setting rt env name key = some value →
    (∃ mappings m, (name, mappings) ∈ envTables ∧ m ∈ mappings ∧ m.configKey = key ∧
      Legal m.type value) ∨ (name = "logging" ∧ key = "log_to_file" ∧ value = .bool true)

theorem lookup_apply (rt : Builtins) (env : Env) (config : List (String × Py)) (name : String) :
    (applyEnvConfigOverrides rt env config).lookup name =
      let base := if name ∈ normalizableConfigSections then normalized (config.lookup name)
        else config.lookup name
      match envTables.lookup name with
      | some mappings => overlaid (sectionSettings rt env name mappings) base
      | none => base := by
  unfold applyEnvConfigOverrides normalizeOptionalDictSections
  rw [lookup_applySections envTables (by decide), lookup_normalizeSections]

theorem key?_overlaid {settings : List (String × Py)} (hnodup : (settings.map Prod.fst).Nodup)
    {old : Option Py} (hold : old = none ∨ old = some .none ∨ ∃ kvs, old = some (.dict kvs))
    (key : String) :
    ((overlaid settings old).bind fun x => x.key? key) =
      (settings.lookup key).or (old.bind fun x => x.key? key) := by
  unfold overlaid
  split
  · next hempty =>
    rw [List.isEmpty_iff.mp hempty]
    rfl
  · obtain rfl | rfl | ⟨kvs, rfl⟩ := hold
    · exact lookup_dictUpdate hnodup [] key
    · exact lookup_dictUpdate hnodup [] key
    · exact lookup_dictUpdate hnodup kvs key

theorem lookup_load {mappings : List Mapping} (hkeys : (mappings.map Mapping.configKey).Nodup)
    (key : String) :
    (loadConfigFromEnvMapping rt env mappings).lookup key =
      (mappings.find? fun m => m.configKey = key).bind (Mapping.value rt env) := by
  rw [load_eq, lookup_setMappings mappings hkeys, List.lookup_nil, Option.or_none]

theorem lookup_logging (key : String) : (loadLoggingConfigFromEnv rt env).lookup key =
      (loadConfigFromEnvMapping rt env loggingEnvVarMappings).lookup key ∨
    (key = "log_to_file" ∧ (loadLoggingConfigFromEnv rt env).lookup key = some (.bool true)) := by
  unfold loadLoggingConfigFromEnv
  dsimp only
  split
  · rw [lookup_dictSet]
    by_cases hkey : key = "log_to_file"
    · rw [if_pos hkey]
      exact .inr ⟨hkey, rfl⟩
    · rw [if_neg hkey]
      exact .inl rfl
  · exact .inl rfl

/-- The keys of a table are distinct, and none is the one that is derived. -/
theorem keys_envTables : ∀ t ∈ envTables, (t.2.map Mapping.configKey).Nodup ∧
    "log_to_file" ∉ t.2.map Mapping.configKey := by
  decide

theorem lookup_envTables {name : String} {mappings : List Mapping} :
    envTables.lookup name = some mappings ↔ (name, mappings) ∈ envTables :=
  lookup_eq_some_iff_mem (by decide)

theorem lookup_sectionSettings (rt : Builtins) (env : Env) {name : String}
    {mappings : List Mapping} (htable : (name, mappings) ∈ envTables) (key : String) :
    (sectionSettings rt env name mappings).lookup key =
        (mappings.find? fun m => m.configKey = key).bind (Mapping.value rt env) ∨
      (name = "logging" ∧ key = "log_to_file" ∧
        (sectionSettings rt env name mappings).lookup key = some (.bool true)) := by
  have hkeys := (keys_envTables _ htable).1
  unfold sectionSettings
  by_cases hname : name = "logging"
  · subst hname
    obtain rfl : loggingEnvVarMappings = mappings :=
      Option.some.inj (lookup_envTables.mpr htable)
    rw [if_pos rfl, ← lookup_load hkeys]
    exact (lookup_logging key).imp_right fun h => ⟨rfl, h⟩
  · rw [if_neg hname]
    exact .inl (lookup_load hkeys key)

theorem setting_of_mapping {name : String} {mappings : List Mapping} {m : Mapping}
    (htable : (name, mappings) ∈ envTables) (hm : m ∈ mappings) :
    setting rt env name m.configKey = m.value rt env := by
  obtain ⟨hkeys, hderived⟩ := keys_envTables _ htable
  have hfind : mappings.find? (fun other => other.configKey = m.configKey) = some m := by
    cases hfound : mappings.find? (fun other => other.configKey = m.configKey) with
    | none =>
      rw [List.find?_eq_none] at hfound
      exact absurd (decide_eq_true rfl) (hfound m hm)
    | some other =>
      have hsame := List.find?_some hfound
      rw [decide_eq_true_eq] at hsame
      rw [List.inj_on_of_nodup_map hkeys (List.mem_of_find?_eq_some hfound) hm hsame]
  unfold setting
  rw [lookup_envTables.mpr htable, Option.bind_some]
  obtain hlookup | ⟨-, hkey, -⟩ := lookup_sectionSettings rt env htable m.configKey
  · rw [hlookup, hfind, Option.bind_some]
  · exact absurd (hkey ▸ List.mem_map_of_mem hm) hderived

theorem setting_legal {name key : String} {value : Py} (h : setting rt env name key = some value) :
    (∃ mappings m, (name, mappings) ∈ envTables ∧ m ∈ mappings ∧ m.configKey = key ∧
      Legal m.type value) ∨ (name = "logging" ∧ key = "log_to_file" ∧ value = .bool true) := by
  obtain ⟨mappings, htable, hlookup⟩ := Option.bind_eq_some_iff.mp h
  obtain hfound | ⟨hname, hkey, htrue⟩ :=
    lookup_sectionSettings rt env (lookup_envTables.mp htable) key
  · rw [hfound] at hlookup
    obtain ⟨m, hm, hvalue⟩ := Option.bind_eq_some_iff.mp hlookup
    obtain ⟨raw, -, hraw⟩ := Option.bind_eq_some_iff.mp hvalue
    have hkey := List.find?_some hm
    rw [decide_eq_true_eq] at hkey
    exact .inl ⟨mappings, m, lookup_envTables.mp htable, List.mem_of_find?_eq_some hm, hkey,
      legal_of_convert hraw⟩
  · exact .inr ⟨hname, hkey, (Option.some.inj (htrue.symm.trans hlookup)).symm⟩

theorem Settable.normalized {config : List (String × Py)} {name : String}
    (h : Settable config name) (b : Bool) :
    let base := if b then Config.normalized (config.lookup name) else config.lookup name
    (base = none ∨ base = some .none ∨ ∃ kvs, base = some (.dict kvs)) ∧
      ∀ key, (base.bind fun x => x.key? key) = valueIn config name key := by
  unfold valueIn
  obtain h | h | ⟨kvs, h⟩ := h <;> rw [h] <;> cases b
  · exact ⟨.inl rfl, fun _ => rfl⟩
  · exact ⟨.inl rfl, fun _ => rfl⟩
  · exact ⟨.inr (.inl rfl), fun _ => rfl⟩
  · exact ⟨.inr (.inr ⟨[], rfl⟩), fun _ => rfl⟩
  · exact ⟨.inr (.inr ⟨kvs, rfl⟩), fun _ => rfl⟩
  · exact ⟨.inr (.inr ⟨kvs, rfl⟩), fun _ => rfl⟩

/-- What is neither null nor a mapping is not touched. -/
theorem lookup_apply_of_other {config : List (String × Py)} {name : String} {x : Py}
    (hx : config.lookup name = some x) (hnull : x ≠ .none) (hdict : x.isDict = false) :
    (applyEnvConfigOverrides rt env config).lookup name = some x := by
  have hbase : (if name ∈ normalizableConfigSections then normalized (config.lookup name)
      else config.lookup name) = some x := by
    rw [hx]
    split
    · cases x with
      | none => exact absurd rfl hnull
      | _ => rfl
    · rfl
  rw [lookup_apply]
  dsimp only
  rw [hbase]
  split
  · unfold overlaid
    split
    · rfl
    · cases x with
      | none => exact absurd rfl hnull
      | dict kvs => cases hdict
      | _ => rfl
  · rfl

theorem valueIn_apply {config : List (String × Py)} {name : String} (h : Settable config name)
    (key : String) : valueIn (applyEnvConfigOverrides rt env config) name key =
      (setting rt env name key).or (valueIn config name key) := by
  obtain ⟨hbase, hkeys⟩ := h.normalized (decide (name ∈ normalizableConfigSections))
  simp only [decide_eq_true_eq] at hbase hkeys
  unfold valueIn setting
  rw [lookup_apply]
  dsimp only
  cases htable : envTables.lookup name with
  | none => exact hkeys key
  | some mappings =>
    rw [Option.bind_some]
    exact (key?_overlaid (nodup_sectionSettings name mappings) hbase key).trans
      (congrArg _ (hkeys key))

theorem normalizeSections_of_noNull {names : List String} {config : List (String × Py)}
    (h : ∀ name ∈ names, config.lookup name ≠ some .none) :
    names.foldl normalizeSection config = config := by
  induction names with
  | nil => rfl
  | cons name names ih =>
    have hsame : normalizeSection config name = config := by
      unfold normalizeSection
      split
      · next hnull => exact absurd hnull (h name List.mem_cons_self)
      · rfl
    rw [List.foldl_cons, hsame]
    exact ih fun other hother => h other (List.mem_cons_of_mem name hother)

/-- Settings that lie over a section already change nothing. -/
theorem applySection_again {config : List (String × Py)} {name : String}
    {settings : List (String × Py)} (hnodup : (settings.map Prod.fst).Nodup) {old : Option Py}
    (h : config.lookup name = overlaid settings old) : applySection config name settings = config := by
  have hagain : ∀ kvs, config.lookup name = some (.dict (dictUpdate kvs settings)) →
      dictSet config name (.dict (dictUpdate (dictUpdate kvs settings) settings)) = config := by
    intro kvs hkvs
    rw [dictUpdate_again hnodup]
    exact dictSet_of_lookup hkvs
  unfold applySection
  split
  · rfl
  · next hempty =>
    unfold overlaid at h
    rw [if_neg hempty] at h
    split at h
    · rw [h]
      exact hagain [] h
    · rw [h]
      exact hagain [] h
    · next kvs =>
      rw [h]
      exact hagain kvs h
    · next x hnull hdict =>
      rw [h]
      cases x with
      | none => exact absurd rfl hnull
      | dict kvs => exact absurd rfl (hdict kvs)
      | _ => rfl

theorem noNull_apply {config : List (String × Py)} {name : String}
    (hname : name ∈ normalizableConfigSections) :
    (applyEnvConfigOverrides rt env config).lookup name ≠ some .none := by
  have hbase : normalized (config.lookup name) ≠ some .none := by
    unfold normalized
    split
    · nofun
    · next hnull => exact hnull
  rw [lookup_apply]
  dsimp only
  rw [if_pos hname]
  split
  · unfold overlaid
    split
    · exact hbase
    · split
      · nofun
      · nofun
      · nofun
      · next hnull _ _ => exact fun h => hnull (Option.some.inj h)
  · exact hbase

/-- A null section becomes a mapping. -/
theorem emptied_apply {config : List (String × Py)} {name : String}
    (hname : name ∈ normalizableConfigSections) (hnull : config.lookup name = some .none) :
    ∃ kvs, (applyEnvConfigOverrides rt env config).lookup name = some (.dict kvs) := by
  rw [lookup_apply]
  dsimp only
  rw [if_pos hname, hnull]
  unfold normalized overlaid
  split
  · split
    · exact ⟨[], rfl⟩
    · exact ⟨_, rfl⟩
  · exact ⟨[], rfl⟩

/-- **The environment lies over the file.** Every variable with a legal value goes before the
configuration; what the environment does not set, or sets to something else, stays; every value
that it sets is legal. -/
theorem overlay_apply (rt : Builtins) (env : Env) (config : List (String × Py)) :
    Overlay rt env config (applyEnvConfigOverrides rt env config) where
  wins name mappings m value htable hm hvalue hsettable := by
    rw [valueIn_apply hsettable, setting_of_mapping htable hm, hvalue]
    rfl
  keeps name key hnone := by
    cases hold : config.lookup name with
    | none => rw [valueIn_apply (.inl hold), hnone, Option.none_or]
    | some x =>
      cases x with
      | none => rw [valueIn_apply (.inr (.inl hold)), hnone, Option.none_or]
      | dict kvs => rw [valueIn_apply (.inr (.inr ⟨kvs, hold⟩)), hnone, Option.none_or]
      | bool b | int n | float y | str s | list xs =>
        unfold valueIn
        rw [lookup_apply_of_other hold nofun rfl, hold]
  leaves name x hx hnull hdict := lookup_apply_of_other hx hnull hdict
  others name htable hnull := by
    rw [lookup_apply, htable]
    dsimp only
    unfold normalized
    split
    · next hname =>
      split
      · next h => exact absurd hname (hnull h)
      · rfl
    · rfl
  emptied name hname hnull := by
    obtain ⟨kvs, hkvs⟩ := emptied_apply hname hnull
    refine ⟨kvs, hkvs, fun key => ?_⟩
    have hvalue : valueIn (applyEnvConfigOverrides rt env config) name key =
        (setting rt env name key).or (valueIn config name key) :=
      valueIn_apply (.inr (.inl hnull)) key
    have hold : valueIn config name key = none := by
      unfold valueIn
      rw [hnull]
      rfl
    rw [hold, Option.or_none] at hvalue
    rw [← hvalue]
    unfold valueIn
    rw [hkvs]
    rfl
  noNull _ hname := noNull_apply hname
  legal _ _ _ h := setting_legal h

/-- **The overrides are an overlay, and applying them again changes nothing**, whatever the
environment and the configuration are. -/
theorem env_overlays (rt : Builtins) (env : Env) (config : List (String × Py)) :
    Overlay rt env config (applyEnvConfigOverrides rt env config) ∧
      applyEnvConfigOverrides rt env (applyEnvConfigOverrides rt env config) =
        applyEnvConfigOverrides rt env config := by
  refine ⟨overlay_apply rt env config, ?_⟩
  set result := applyEnvConfigOverrides rt env config with hresult
  have hnormal : normalizeOptionalDictSections result = result :=
    normalizeSections_of_noNull fun _ hname => noNull_apply hname
  have hsection : ∀ t ∈ envTables,
      applySection result t.1 (sectionSettings rt env t.1 t.2) = result := by
    intro t ht
    have hlookup := lookup_apply rt env config t.1
    rw [lookup_envTables.mpr (show (t.1, t.2) ∈ envTables from ht)] at hlookup
    exact applySection_again (nodup_sectionSettings t.1 t.2) hlookup
  have hfold : ∀ tables : List (String × List Mapping), (∀ t ∈ tables, t ∈ envTables) →
      tables.foldl (fun config s => applySection config s.1 (sectionSettings rt env s.1 s.2))
        result = result := by
    intro tables htables
    induction tables with
    | nil => rfl
    | cons t tables ih =>
      rw [List.foldl_cons, hsection t (htables t List.mem_cons_self)]
      exact ih fun other hother => htables other (List.mem_cons_of_mem t hother)
  show envTables.foldl _ (normalizeOptionalDictSections result) = result
  rw [hnormal]
  exact hfold envTables fun _ ht => ht

end MMRelay.Config
