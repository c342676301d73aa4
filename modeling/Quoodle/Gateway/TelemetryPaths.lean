import Quoodle.Gateway.TelemetryBatch

-- What is forwarded of telemetry that arrives on the websocket, as a heartbeat or in a batch.
namespace Gateway.TelemetryPaths

open TelemetryBatch (Api Heartbeat validateKernelEntry check)

-- What is used of a request that has passed the validation of its schema.
structure Entry where
  deviceId : String
  telemetryScope : String
  metrics : List (String × Value)
  maskedFields : List String
  nodup : (Json.keys metrics).Nodup

structure Summary where
  metrics : List (String × Value)
  maskedFields : List Value
  riskScore : Nat
  deriving DecidableEq

-- The `float` of a text is represented by the numbers that it exceeds. Integers are compared as they
-- are, also those that are too large for a `float`.
variable (api : Api) (parseFloat : String → Option (Nat → Bool))

def toFloat (v : Value) : Option (Nat → Bool) :=
  match v.asNumber api.floatValue, v.json with
  | some x, _ => some fun n => (n : ℚ) < x
  | none, .str s => parseFloat (.ofList (s.toList.filter (· ≠ '%')))
  | none, _ => none

-- Models `RiskScorer.score`.
def score (metrics : List (String × Value)) : Nat :=
  let points := ["cpu", "ram", "disk_usage"].map fun k =>
    match (metrics.lookup k).bind (toFloat api parseFloat) with
    | none => 0
    | some val => if val 90 then 30 else if val 75 then 20 else if val 50 then 10 else 0
  min points.sum 100

def allowlistCommon : List String := [
  "cpu", "ram", "disk_usage", "network_tx", "network_rx", "risk_score", "battery_pct", "os_version",
  "os_build", "agent_version", "patch_level", "policy_in_sync", "compliance_status", "geo_hash"
]

def allowed (scope : String) : List String :=
  if scope = "kernel_event" then ["kernel_event"] else allowlistCommon

def filterMetrics (metrics : List (String × Value)) (scope : String) :
    List (String × Value) × List String :=
  (metrics.filter (·.1 ∈ allowed scope), Json.keys (metrics.filter (·.1 ∉ allowed scope)))

-- Models `sorted(set(xs))`.
def sortedSet (xs : List String) : List String :=
  xs.dedup.insertionSort (· ≤ ·)

def summary (e : Entry) : Summary :=
  let (filtered, dropped) := filterMetrics e.metrics e.telemetryScope
  ⟨filtered, (sortedSet (e.maskedFields ++ dropped)).map .str, score api parseFloat filtered⟩

def telemetryHeartbeat (e : Entry) : Option Summary :=
  match validateKernelEntry api (.dict e.metrics) e.telemetryScope with
  | some _ => none
  | none => some (summary api parseFloat e)

def telemetryBatch (deviceId : String) (entries : List Entry) : List Summary :=
  entries.filterMap fun e =>
    match check api deviceId ⟨e.deviceId, e.telemetryScope, .dict e.metrics, rfl⟩ with
    | some _ => none
    | none => some (summary api parseFloat e)

-- Fails where an exception is raised or the connection is closed.
def agentWs (message : Value) (session : String) : Option Summary := do
  match validateTelemetry api.readFloat api.floatValue message session with
  | .error _ => none
  | .ok _ =>
    let body ← message.get "body" (.dict [])
    let metrics ← (← body.get "metrics" (.dict [])).items
    let maskedFields ← (← body.get "masked_fields" .none).elements
    return ⟨metrics, maskedFields, score api parseFloat metrics⟩

def Carries (message : Value) (e : Entry) : Prop :=
  ∃ body, message.getItem "body" = some body ∧ body.getItem "metrics" = some (.dict e.metrics) ∧
    body.getItem "telemetry_scope" = some (.str e.telemetryScope) ∧
    body.getItem "masked_fields" = some (.list (e.maskedFields.map .str))

structure Accepted (message : Value) (session : String) (e : Entry) : Prop where
  carries : Carries message e
  websocket : validateTelemetry api.readFloat api.floatValue message session = .ok ()
  http : validateKernelEntry api (.dict e.metrics) e.telemetryScope = none

def Allowed (scope : String) (s : Summary) : Prop :=
  ∀ m ∈ s.metrics, m.1 ∈ allowed scope

-- The same is forwarded on every path, and nothing that is not allowed.
def Uniform (message : Value) (session : String) (e : Entry) : Prop :=
  ∃ s, Allowed e.telemetryScope s ∧ agentWs api parseFloat message session = some s ∧
    telemetryHeartbeat api parseFloat e = some s ∧
    ∀ before after, telemetryBatch api parseFloat e.deviceId (before ++ e :: after) =
      telemetryBatch api parseFloat e.deviceId before ++
        s :: telemetryBatch api parseFloat e.deviceId after

variable {api parseFloat} {message : Value} {session : String} {e : Entry}

theorem sortedSet_eq_self_iff (xs : List String) : sortedSet xs = xs ↔ xs.Pairwise (· < ·) := by
  constructor
  · intro h
    have hs : (sortedSet xs).Pairwise (· ≤ ·) := List.pairwise_insertionSort ..
    have hn : (sortedSet xs).Nodup := (List.perm_insertionSort ..).nodup_iff.mpr xs.nodup_dedup
    exact h ▸ (hs.and hn).imp fun h => lt_of_le_of_ne h.left h.right
  · intro h
    rw [sortedSet, List.Nodup.dedup (h.imp ne_of_lt)]
    exact List.Pairwise.insertionSort_eq (h.imp le_of_lt)

theorem agentWs_eq (h : Accepted api message session e) : agentWs api parseFloat message session =
    some ⟨e.metrics, e.maskedFields.map .str, score api parseFloat e.metrics⟩ := by
  obtain ⟨body, hb, hm, _, hf⟩ := h.carries
  simp only [agentWs, h.websocket, get_of_getItem hb, get_of_getItem hm, get_of_getItem hf,
    Option.bind_eq_bind, Option.bind_some, items_dict e.nodup, elements_list]
  rfl

theorem telemetryHeartbeat_eq (h : Accepted api message session e) :
    telemetryHeartbeat api parseFloat e = some (summary api parseFloat e) := by
  rw [telemetryHeartbeat, h.http]

theorem telemetryBatch_eq (h : Accepted api message session e) (before after : List Entry) :
    telemetryBatch api parseFloat e.deviceId (before ++ e :: after) =
      telemetryBatch api parseFloat e.deviceId before ++
        summary api parseFloat e :: telemetryBatch api parseFloat e.deviceId after := by
  have hc : check api e.deviceId ⟨e.deviceId, e.telemetryScope, .dict e.metrics, rfl⟩ = none := by
    rw [check, if_neg (not_not.mpr rfl)]
    exact h.http
  simp only [telemetryBatch, List.filterMap_append, List.filterMap_cons, hc]

theorem uniform_iff (h : Accepted api message session e) : Uniform api parseFloat message session e ↔
    (∀ m ∈ e.metrics, m.1 ∈ allowed e.telemetryScope) ∧ e.maskedFields.Pairwise (· < ·) := by
  have hstr : Function.Injective Value.str := fun a b h => by simpa [Value.str] using h
  -- If every metric is allowed, no field is masked by the gateway.
  have hd (ha : ∀ m ∈ e.metrics, m.1 ∈ allowed e.telemetryScope) : summary api parseFloat e =
      ⟨e.metrics, (sortedSet e.maskedFields).map .str, score api parseFloat e.metrics⟩ := by
    have h₁ : e.metrics.filter (·.1 ∈ allowed e.telemetryScope) = e.metrics := by simpa using ha
    have h₂ : e.metrics.filter (·.1 ∉ allowed e.telemetryScope) = [] := by simpa using ha
    simp only [summary, filterMetrics, h₁, h₂, Json.keys_nil, List.append_nil]
  constructor
  · rintro ⟨s, hs, hw, hh, -⟩
    obtain rfl := Option.some_inj.mp ((agentWs_eq h).symm.trans hw)
    rw [telemetryHeartbeat_eq h, hd hs, Option.some_inj, Summary.mk.injEq] at hh
    exact ⟨hs, (sortedSet_eq_self_iff _).mp (List.map_injective_iff.mpr hstr hh.right.left)⟩
  · rintro ⟨ha, hm⟩
    have hs := hd ha
    rw [(sortedSet_eq_self_iff _).mpr hm] at hs
    refine ⟨summary api parseFloat e, by rwa [hs], ?_, telemetryHeartbeat_eq h, telemetryBatch_eq h⟩
    rw [agentWs_eq h, hs]

def exampleApi : Api :=
  ⟨fun _ => none, fun _ => true, fun _ => none, fun _ => 0, fun _ => .none, .none⟩

def exampleMetrics : List (String × Value) := [
  ("cpu", .int 95), ("ram", .int 10), ("disk_usage", .int 10), ("network_tx", .int 0),
  ("network_rx", .int 0)
]

def exampleMessage (metrics : List (String × Value)) : Value :=
  .dict [
    ("type", .str "TELEMETRY"), ("from", .str "agent"), ("device_id", .str "device"),
    ("message_id", .str "m-1"), ("session_id", .str "session"), ("seq", .int 1),
    ("timestamp", .str "now"), ("sig", .str ""),
    ("body", .dict [
      ("schema_version", .str "v1"), ("session_id", .str "session"), ("timestamp", .str "now"),
      ("seq", .int 1), ("telemetry_scope", .str "telemetry_basic"), ("metrics", .dict metrics),
      ("masked_fields", .list [])])]

def exampleEntry (metrics : List (String × Value)) (hn : (Json.keys metrics).Nodup) : Entry :=
  ⟨"device", "telemetry_basic", metrics, [], hn⟩

theorem accepted_example (metrics : List (String × Value)) (hn : (Json.keys metrics).Nodup)
    (hv : validateTelemetry (fun _ => none) (fun _ => 0) (exampleMessage metrics) "session" = .ok ()) :
    Accepted exampleApi (exampleMessage metrics) "session" (exampleEntry metrics hn) where
  carries := ⟨_, Value.getItem_dict (by simp [Json.keys]) _,
    Value.getItem_dict (by simp [Json.keys]) _, Value.getItem_dict (by simp [Json.keys]) _,
    Value.getItem_dict (by simp [Json.keys]) _⟩
  websocket := hv
  http := rfl

theorem uniform_exampleMetrics :
    Uniform exampleApi (fun _ => none) (exampleMessage exampleMetrics) "session"
      (exampleEntry exampleMetrics (by decide)) :=
  (uniform_iff (accepted_example exampleMetrics (by decide) (by rfl))).mpr ⟨by decide, .nil⟩

def exampleSecret : List (String × Value) :=
  exampleMetrics ++ [("secret", .str "s")]

theorem not_uniform_exampleSecret :
    Accepted exampleApi (exampleMessage exampleSecret) "session"
      (exampleEntry exampleSecret (by decide)) ∧
    (∃ s, agentWs exampleApi (fun _ => none) (exampleMessage exampleSecret) "session" = some s ∧
      ("secret", .str "s") ∈ s.metrics) ∧
    ¬Uniform exampleApi (fun _ => none) (exampleMessage exampleSecret) "session"
      (exampleEntry exampleSecret (by decide)) := by
  have h := accepted_example exampleSecret (by decide) (by rfl)
  have hm : ("secret", .str "s") ∈ exampleSecret := List.mem_append_right _ List.mem_cons_self
  refine ⟨h, ⟨_, agentWs_eq h, hm⟩, ?_⟩
  rintro ⟨s, ha, hw, -⟩
  obtain rfl := Option.some_inj.mp ((agentWs_eq h).symm.trans hw)
  exact absurd (ha _ hm) (by decide)

end Gateway.TelemetryPaths
