import Tempio.Server.Mqtt

namespace Tempio.Server

open Tempio.Lib Tempio.Lib.Json

/-- What `from_mqtt_payload` relies on in pydantic, which is not part of the repository: the
fields of type `str`, `Optional[float]` and `Optional[int]`. `none` is a `ValidationError`. -/
structure Pydantic where
  str : Json → Option String
  optionalFloat : Json → Option (Option PyFloat)
  optionalInt : Json → Option (Option Int)
  str_str : ∀ s, str (.str s) = some s
  str_null : str .null = none
  optionalFloat_null : optionalFloat .null = some none
  optionalFloat_int : ∀ n : Int, n.natAbs < 2 ^ 53 → optionalFloat (.int n) = some (some (.ofInt n))
  optionalFloat_real : ∀ text, optionalFloat (.real text) = some (some (.ofText text))
  optionalInt_null : optionalInt .null = some none
  optionalInt_int : ∀ n : Int, n.natAbs < 2 ^ 53 → optionalInt (.int n) = some (some n)

structure SensorReport where
  hubId : String
  nodeId : String
  nodeType : String
  temperature : Option PyFloat
  humidity : Option PyFloat
  lux : Option PyFloat
  batteryVoltage : Option PyFloat
  bleRssi : Option Int
  wifiRssi : Option Int
  freeHeap : Option Int
  uptimeMs : Option Int
  timestamp : Option String

/-- `SensorReport.from_mqtt_payload`. A member that is missing is as one that is null, which only
`node_id` and `node_type` refuse. -/
def fromMqttPayload (py : Pydantic) (hubId : List Char) (data : List (String × Json)) (now : String) :
    Option SensorReport := do
  let nodeId ← py.str (getD data "node_id" .null)
  let nodeType ← py.str (getD data "node_type" .null)
  let temperature ← py.optionalFloat (getD data "temperature" .null)
  let humidity ← py.optionalFloat (getD data "humidity" .null)
  let lux ← py.optionalFloat (getD data "lux" .null)
  let batteryVoltage ← py.optionalFloat (getD data "battery_voltage" .null)
  let bleRssi ← py.optionalInt (getD data "ble_rssi" .null)
  let wifiRssi ← py.optionalInt (getD data "wifi_rssi" .null)
  let freeHeap ← py.optionalInt (getD data "free_heap" .null)
  let uptimeMs ← py.optionalInt (getD data "uptime_ms" .null)
  some ⟨String.ofList hubId, nodeId, nodeType, temperature, humidity, lux, batteryVoltage, bleRssi,
    wifiRssi, freeHeap, uptimeMs, some now⟩

/-- What the callback of `on_report` is called with for one message. -/
def reported (py : Pydantic) (topic payload : List Char) (now : String) : Option SensorReport :=
  match handleMessage topic payload with
  | .report hubId data => fromMqttPayload py hubId data now
  | _ => none

end Tempio.Server
