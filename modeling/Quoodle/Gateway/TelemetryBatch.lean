import Quoodle.Gateway.Received
import Quoodle.Gateway.Telemetry

-- The endpoint `/telemetry/batch`, which takes what the agents had to queue.
namespace Gateway.TelemetryBatch

open Json.Nlohmann (member member_mapNum)

structure Heartbeat where
  deviceId : String
  telemetryScope : String
  metrics : Value
  isDict : metrics.isDict

structure Batch where
  deviceId : String
  entries : List Heartbeat

structure Api where
  -- Models `TelemetryHeartbeatRequest.model_validate`.
  validateEntry : Value → Option Heartbeat
  isAuthorized : String → Bool
  readFloat : List Char → Option FloatRepr
  floatValue : FloatRepr → ℚ
  latestRollup : Batch → Value
  counters : Value

variable (api : Api)

-- The metrics are a dictionary, so that there is no other exception.
def validateKernelEntry (metrics : Value) (telemetryScope : String) : Option String :=
  if telemetryScope ≠ "kernel_event" then none
  else
    match validateKernelEventMetrics api.readFloat api.floatValue metrics with
    | .error (.valueError message) => some message
    | _ => none

def check (deviceId : String) (entry : Heartbeat) : Option String :=
  if entry.deviceId ≠ deviceId then some "device_id_mismatch"
  else validateKernelEntry api entry.metrics entry.telemetryScope

end Gateway.TelemetryBatch
