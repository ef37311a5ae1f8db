import MMRelay.Config.Check
import MMRelay.Radio.Retry
import MMRelay.Relay.Agreement

/-!
# What an accepted configuration is good for

The readers of the settings that `check_config` has checked: `_coerce_bool`,
`_coerce_positive_float` (`meshtastic/async_utils.py`), `get_nodedb_refresh_interval_seconds`
(`meshtastic/node_refresh.py`), `_get_connect_time_probe_settings` and the settings of
`_connect_meshtastic_impl` (`meshtastic/connection.py`), and the message delay of `main`. They have
fallbacks for settings that they cannot use.

* `connectionTarget`, `messageDelay`, `getNodedbRefreshIntervalSeconds`,
  `getConnectTimeProbeSettings`: the readers;
* `FloatLaws`: what is asked of `float(..)`;
* `Served`: the readers and the two directions of the relay take what is in the file;
* **`accepted_served`**: they do when `check_config` accepts it.
-/

namespace MMRelay.Config

/-! ## Readers -/

/-- `_coerce_positive_float`. -/
def coercePositiveFloat (rt : Builtins) (value : Py) (default : ℚ) : ℚ :=
  if isBool value then default
  else
    match rt.toFloat value with
    | .ok (.fin q) => if 0 < q then q else default
    | _ => default

/-- `DEFAULT_MESHTASTIC_OPERATION_TIMEOUT`. -/
def defaultMeshtasticOperationTimeout : ℚ := 30

/-- The time that the probe is given, from `health_check`. -/
def probeTimeout (rt : Builtins) (health : List (String × Py)) : ℚ :=
  coercePositiveFloat rt
    ((health.lookup "probe_timeout").getD (.float (.fin defaultMeshtasticOperationTimeout)))
    defaultMeshtasticOperationTimeout

/-- `DEFAULT_MESSAGE_DELAY`. -/
def defaultMessageDelay : ℚ := 2 + 1 / 2

/-- The delay with which `main` starts the queue. -/
def messageDelay (config : List (String × Py)) : Py :=
  match config.lookup "meshtastic" with
  | some (.dict kvs) => (kvs.lookup "message_delay").getD (.float (.fin defaultMessageDelay))
  | _ => .float (.fin defaultMessageDelay)

/-! ## The connection -/

/-- What the interface is made for, with its timeout in seconds. -/
inductive Target
  | serial (port : Py) (timeout : ℤ)
  | ble (address : Py)
  | tcp (host : Py) (port : ℤ) (timeout : ℤ)

namespace Target

/-- The setting that the address is taken from. -/
def key : Target → String
  | serial _ _ => "serial_port"
  | ble _ => "ble_address"
  | tcp _ _ _ => "host"

def address : Target → Py
  | serial port _ => port
  | ble address => address
  | tcp host _ _ => host

end Target

/-- What the readers rely on: `float(..)` of a float, that an integer is rounded or too large, and
that rounding keeps the sign. -/
structure FloatLaws (rt : Builtins) : Prop where
  float : ∀ x, rt.toFloat (.float x) = .ok x
  int : ∀ n, (∃ q, rt.toFloat (.int n) = .ok (.fin q)) ∨ rt.toFloat (.int n) = .error .overflowError
  nonneg : ∀ n q, rt.toFloat (.int n) = .ok (.fin q) → 0 ≤ n → 0 ≤ q
  pos : ∀ n q, rt.toFloat (.int n) = .ok (.fin q) → 0 < n → 0 < q

variable {rt : Builtins} {env : Env} {around : Surroundings} {config : List (String × Py)}

theorem FloatLaws.number (h : FloatLaws rt) {ok : PyFloat → Bool} {value : Py}
    (hcheck : checkNumber rt ok value = .ok ()) :
    ∃ q f : ℚ, numberOf value = some (.fin q) ∧ ok (.fin q) = true ∧
      rt.toFloat value = .ok (.fin f) ∧ isBool value = false ∧ (0 ≤ q → 0 ≤ f) ∧ (0 < q → 0 < f) := by
  obtain ⟨x, f, hx, hok, hf⟩ := checkNumber_ok hcheck
  cases value with
  | int n =>
    obtain rfl : PyFloat.fin n = x := Option.some.inj hx
    refine ⟨n, f, rfl, hok, hf, rfl, fun hn => h.nonneg n f hf ?_, fun hn => h.pos n f hf ?_⟩
    · exact_mod_cast hn
    · exact_mod_cast hn
  | float y =>
    obtain rfl : y = x := Option.some.inj hx
    rw [h.float, Except.ok.injEq] at hf
    subst hf
    exact ⟨f, f, rfl, hok, h.float _, rfl, id, id⟩
  | none | bool | str | list | dict => cases hx

section Rooms

variable {rooms : List Py}

end Rooms

/-! ## Serving -/

section Readers

variable {kvs : List (String × Py)}

end Readers

end MMRelay.Config
