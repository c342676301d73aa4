import Quoodle.Gateway.AppLock
import Quoodle.Gateway.Loads
import Quoodle.Gateway.Reports

-- The validators of heartbeats and of telemetry.
namespace Gateway

namespace Value

def isNone (v : Value) : Bool :=
  v = .none

def isString (v : Value) : Bool :=
  match v.json with
  | .str _ => true
  | _ => false

def isList (v : Value) : Bool :=
  match v.json with
  | .arr _ => true
  | _ => false

-- Whether a value can be looked up in a set.
def isHashable (v : Value) : Bool :=
  match v.json with
  | .arr _ | .obj _ => false
  | _ => true

-- Models `any(v == s for s in strings)`.
def isOneOf (v : Value) (strings : List String) : Bool :=
  strings.any v.isStr

end Value

-- `floatValue` is the value of a `float`, by which it is compared with other numbers.
section Numbers

variable (floatValue : FloatRepr → ℚ)

def Number.value : Number → ℚ
  | .int n => n
  | .float x => floatValue x

-- Values that are equal to Python have the same image: booleans are numbers, and the order of the keys
-- of a dictionary does not matter.
def comparable (v : Json Number) : Json ℚ :=
  Json.normalize <| Json.fold
    (fun
      | .bool b => .num (if b then 1 else 0)
      | a => .leaf (a.mapNum (Number.value floatValue)))
    .arr .obj v

def Value.equals (v w : Value) : Bool :=
  comparable floatValue v.json = comparable floatValue w.json

-- The value of what is an `int` or a `float` to Python.
def Value.asNumber (v : Value) : Option ℚ :=
  match v.json with
  | .num n => some (n.value floatValue)
  | .bool b => some (if b then 1 else 0)
  | _ => Option.none

end Numbers

def validateHeartbeat (payload : Value) (expectedSession : String) : Except Raised Unit := do
  validateEnvelope "HEARTBEAT" "heartbeat" "Heartbeat" payload expectedSession
  let body := (← liftOption (payload.get "body" .none)).orElse (.dict [])
  raiseIf (!(← liftOption (body.contains "status"))) "Heartbeat body.status required"
  if ← liftOption (body.contains "policy_hash") then
    let policyHash ← liftOption (body.get "policy_hash" .none)
    raiseIf (!policyHash.isNone && !policyHash.isString) "Heartbeat body.policy_hash must be a string"

section Telemetry

variable (readFloat : List Char → Option FloatRepr) (floatValue : FloatRepr → ℚ)

def optionalStringFields : List String :=
  ["subtype", "severity", "decision", "reason_code", "policy_ref"]

def optionalNumberFields : List String :=
  ["duration_ms", "queue_depth", "drop_count"]

def kernelCategories : List String :=
  ["exec", "integrity", "attestation", "update", "runtime"]

def isCategory (s : String) : Bool :=
  kernelCategories.contains (.ofList ((strip s).toList.map Char.toLower))

def validateKernelPayload (payload : Value) : Except Raised Unit := do
  raiseIf (!payload.isDict) "kernel_payload_not_object"
  match (payload.getItem "category").map Value.json with
  | none | some .null => pure ()
  | some (.str s) => raiseIf (!isCategory s) "kernel_payload_invalid_category"
  | some _ => raiseIf true "kernel_payload_invalid_category"
  for field in optionalStringFields do
    raiseIf ((payload.getItem field).any fun v => !v.isNone && !v.isString)
      ("kernel_payload_invalid_" ++ field)
  for field in optionalNumberFields do
    raiseIf ((payload.getItem field).any fun v =>
        !v.isNone && !(v.asNumber floatValue).any fun x => decide (0 ≤ x))
      ("kernel_payload_invalid_" ++ field)
  raiseIf ((payload.getItem "masked_fields").any fun v => !v.isNone && !v.isList)
    "kernel_payload_invalid_masked_fields"

def validateKernelEventMetrics (metrics : Value) : Except Raised Unit := do
  let kernelEvent ← liftOption (metrics.get "kernel_event" .none)
  raiseIf (!kernelEvent.isDict) "kernel_event_missing"
  for field in ["event_id", "event_type", "event_timestamp_unix", "payload_json"] do
    raiseIf (kernelEvent.getItem field).isNone ("kernel_event_missing_" ++ field)
  for field in ["event_id", "event_type", "event_timestamp_unix"] do
    raiseIf (!((kernelEvent.getItem field).bind Value.asInt).any fun n => decide (0 ≤ n))
      ("kernel_event_invalid_" ++ field)
  match (kernelEvent.getItem "payload_json").map Value.json with
  | some (.str payloadJson) =>
    raiseIf (strip payloadJson = "") "kernel_event_invalid_payload_json"
    match Value.loads readFloat payloadJson.toList with
    | none => raiseIf true "kernel_payload_not_json"
    | some parsed => validateKernelPayload floatValue parsed
  | _ => raiseIf true "kernel_event_invalid_payload_json"

def validateTelemetry (payload : Value) (expectedSession : String) : Except Raised Unit := do
  validateEnvelope "TELEMETRY" "telemetry" "Telemetry" payload expectedSession
  let body := (← liftOption (payload.get "body" .none)).orElse (.dict [])
  for field in ["metrics", "telemetry_scope", "timestamp"] do
    raiseIf (!(← liftOption (body.contains field))) "Telemetry body missing required fields"
  for field in ["schema_version", "seq", "session_id", "masked_fields"] do
    raiseIf (!(← liftOption (body.contains field))) ("Telemetry body missing " ++ field)
  if ← liftOption (body.contains "policy_hash") then
    let policyHash ← liftOption (body.get "policy_hash" .none)
    raiseIf (!policyHash.isNone && !policyHash.isString) "Telemetry body.policy_hash must be a string"
  raiseIf (!(← liftOption (body.get "masked_fields" .none)).isList)
    "Telemetry body.masked_fields must be an array"
  raiseIf (!(← liftOption (body.get "session_id" .none)).equals floatValue
      (← liftOption (payload.get "session_id" .none)))
    "Telemetry body.session_id mismatch envelope session_id"
  raiseIf (!(← liftOption (body.get "seq" .none)).equals floatValue
      (← liftOption (payload.get "seq" .none)))
    "Telemetry body.seq mismatch envelope seq"
  raiseIf (!(← liftOption (body.get "schema_version" (.str "v1"))).isStr "v1")
    "Telemetry unsupported schema_version"
  let metrics := (← liftOption (body.get "metrics" .none)).orElse (.dict [])
  let scope ← liftOption (body.get "telemetry_scope" .none)
  if !scope.isHashable then .error .other
  else
    raiseIf (!scope.isOneOf ["telemetry_basic", "telemetry_extended", "kernel_event"])
      "Telemetry unsupported telemetry_scope"
    if scope.isStr "kernel_event" then validateKernelEventMetrics readFloat floatValue metrics
    else
      for field in ["cpu", "ram", "disk_usage", "network_tx", "network_rx"] do
        raiseIf (!(← liftOption (metrics.contains field))) ("Telemetry metrics missing " ++ field)

end Telemetry

end Gateway
