import Quoodle.Data.Rows
import Quoodle.Gateway.Value

-- The `devices` table, and the handlers that write to it.
namespace ControlPlane

open Gateway (Value)

inductive Lifecycle where
  | pendingPairing | online | active | degraded | offline | quarantined | unknown
  deriving DecidableEq

-- A row of the table. Scores are in hundredths, as the column keeps them.
structure Device where
  deviceId : String
  userId : Option String
  deviceName : Option String
  lifecycleState : Lifecycle
  lastSeen : Option Int
  agentVersion : Option String
  osBuild : Option String
  policyHash : Option String
  reportedPolicyHash : Option String
  complianceStatus : String
  riskScore : Option Int

def Device.new (id : String) (name : Option String) (lifecycle : Lifecycle)
    (policyHash : Option String) : Device :=
  ⟨id, none, name, lifecycle, none, none, none, policyHash, none, "unknown", none⟩

-- The strings that count as true.
def isTruthy (s : String) : Bool :=
  s ≠ "" && s ≠ "0"

def isSpace (c : Char) : Bool :=
  c ∈ [' ', '\t', '\n', '\r', Char.ofNat 0, Char.ofNat 11]

def isBlank (s : String) : Bool :=
  s.toList.all isSpace

def trim (s : String) : String :=
  String.ofList ((s.toList.dropWhile isSpace).reverse.dropWhile isSpace).reverse

-- Models `a ?: b`.
def orElse (a b : Option String) : Option String :=
  if a.any isTruthy then a else b

structure User where
  id : String
  role : String
  twoFactorEnabled : Bool
  twoFactorSecret : Option String

structure Platform where
  -- The setting `policy.master_hash`.
  masterHash : String
  -- What a column of scores keeps of a value.
  toScore : Value → Option Int

-- The requests of the gateway once they have been validated. There is no time if it cannot be read
-- as one, and a field that may be null may also be missing.
structure OnlineData where
  deviceId : String
  sessionId : String
  agentVersion : Option (Option String)
  osBuild : Option String
  connectedAt : Option Int

structure ActivatedData where
  deviceId : String
  sessionId : String
  activatedAt : Option Int
  policyHash : Option (Option String)

structure OfflineData where
  deviceId : String
  sessionId : Option String
  lastSeen : Option Int
  reason : String

structure TelemetryData where
  deviceId : String
  timestamp : Option Int
  rollup : Value
  telemetryScope : Option String
  sessionId : Option String
  seq : Option Int
  metrics : Option Value
  presenceState : Option String

structure TelemetryEvent where
  deviceId : String
  telemetryScope : String
  sessionId : Option String
  seq : Option Int
  deriving DecidableEq

structure PairClaims where
  scope : Option String
  sub : Option String
  deviceName : Option String

structure PairSession where
  userId : String
  pairToken : String
  deviceLabel : Option String

structure ConfirmRequest where
  user : Option User
  pairToken : String
  -- There are none if the token cannot be decoded.
  claims : Option PairClaims
  -- What is found under the identifier of a pairing, if the request has one.
  session : Option (Option PairSession)

inductive Event where
  | online (data : OnlineData)
  | activated (data : ActivatedData)
  | offline (data : OfflineData)
  -- The database may refuse what is ingested, in which case nothing is written.
  | telemetry (data : TelemetryData) (now : Int) (ok : Bool)
  | confirm (request : ConfirmRequest)

structure Tables where
  devices : List Device
  telemetry : List TelemetryEvent

namespace Tables

def find (t : Tables) (id : String) : Option Device :=
  Rows.find Device.deviceId t.devices id

def create (t : Tables) (d : Device) : Tables :=
  { t with devices := t.devices ++ [d] }

def firstOrCreate (t : Tables) (d : Device) : Tables :=
  if (t.find d.deviceId).isSome then t else t.create d

def update (t : Tables) (id : String) (f : Device → Device) : Tables :=
  { t with devices := Rows.update Device.deviceId t.devices id f }

variable {t : Tables} {id id' : String} {f : Device → Device} {d : Device}

theorem find_update (hf : ∀ d, (f d).deviceId = d.deviceId) (h : t.find id = some d) :
    (t.update id' f).find id = some (if id' = id then f d else d) := by
  rw [find] at h
  rw [update, find, Rows.find_update fun d hd => (hf d).trans hd, h]
  split <;> rfl

theorem find_firstOrCreate (h : t.find id = some d) (d' : Device) :
    (t.firstOrCreate d').find id = some d := by
  unfold firstOrCreate
  split
  case isTrue => exact h
  rw [find] at h
  rw [create, find, Rows.find_append, h, Option.some_or]

theorem exists_find_firstOrCreate (t : Tables) (d' : Device) :
    ∃ d, (t.firstOrCreate d').find d'.deviceId = some d := by
  unfold firstOrCreate
  split
  case isTrue h => exact Option.isSome_iff_exists.mp h
  case isFalse h =>
    rw [Option.not_isSome_iff_eq_none, find] at h
    refine ⟨d', ?_⟩
    rw [create, find, Rows.find_append, h, Option.none_or]
    simp [Rows.find]

end Tables

-- Models `DevicePresenceWebhookController`.
namespace Presence

-- A missing field or a time that cannot be read is found after the row was created.
def online (p : Platform) (t : Tables) (data : OnlineData) : Tables :=
  if p.masterHash = "" then t
  else
    let t := t.firstOrCreate (.new data.deviceId data.deviceId .pendingPairing none)
    match data.agentVersion, data.connectedAt with
    | some agentVersion, some connectedAt =>
      t.update data.deviceId fun d => { d with
        lastSeen := connectedAt
        agentVersion := agentVersion
        policyHash := orElse d.policyHash p.masterHash
        lifecycleState := if data.sessionId = "unpaired" then .pendingPairing else .online
        osBuild := data.osBuild.or d.osBuild }
    | _, _ => t

def activated (t : Tables) (data : ActivatedData) : Tables :=
  let t := t.firstOrCreate (.new data.deviceId data.deviceId .pendingPairing none)
  match data.activatedAt, data.policyHash with
  | some activatedAt, some policyHash =>
    t.update data.deviceId fun d => { d with
      lastSeen := activatedAt
      policyHash := orElse policyHash d.policyHash
      lifecycleState := .online }
  | _, _ => t

def mentionsQuarantine (reason : String) : Bool :=
  "quarantine".toList <:+: reason.toList.map Char.toLower

def offline (t : Tables) (data : OfflineData) : Tables :=
  match data.lastSeen with
  | some lastSeen =>
    t.update data.deviceId fun d => { d with
      lastSeen := lastSeen
      lifecycleState := if mentionsQuarantine data.reason then .quarantined else .offline }
  | none => t

end Presence

-- Models `TelemetryIngestService`, behind `TelemetryWebhookController`.
namespace Telemetry

-- Models `d[k] ?? v`, where `none` stands for null.
def get (d : Value) (k : String) (v : Option Value) : Option Value :=
  match d.getItem k with
  | some x => if x.json matches .null then v else some x
  | none => v

def isTrue (v : Value) : Bool :=
  match v.json with
  | .null | .bool false | .num (.int 0) | .arr [] | .obj [] => false
  | .str s => isTruthy s
  | .num (.float x) => x.text ≠ "0.0".toList ∧ x.text ≠ "-0.0".toList
  | _ => true

def asNullableString (v : Option Value) : Option String :=
  match v.map Value.json with
  | some (.str s) => if isBlank s then none else some (trim s)
  | _ => none

inductive PresenceState where
  | online | stale | offline | reconnecting

def normalizePresenceState : Option String → Option PresenceState
  | some "online" => some .online
  | some "stale" => some .stale
  | some "offline" => some .offline
  | some "reconnecting" => some .reconnecting
  | _ => none

def presenceToLifecycleState : PresenceState → Lifecycle
  | .online => .active
  | .stale => .degraded
  | .offline => .offline
  | .reconnecting => .degraded

def scope (data : TelemetryData) : String :=
  data.telemetryScope.getD <|
    if (get data.rollup "kernel_event" none).any isTrue then "kernel_event"
    else "telemetry_extended"

def presenceState (data : TelemetryData) : Option PresenceState :=
  let state := normalizePresenceState <|
    asNullableString (get data.rollup "presence_state" (data.presenceState.map Value.str))
  state.or (if scope data = "kernel_event" then some .online else none)

def event (data : TelemetryData) : TelemetryEvent :=
  ⟨data.deviceId, scope data, data.sessionId, data.seq⟩

def findDuplicateEvent (t : Tables) (data : TelemetryData) : Option TelemetryEvent :=
  if data.seq.isNone then none
  else t.telemetry.find? (· = { event data with sessionId := data.sessionId.filter (!isBlank ·) })

-- Nothing is known about the build unless it is among the metrics. What was reported as score and
-- hash replaces what was known of them.
def ingest (p : Platform) (t : Tables) (data : TelemetryData) (now : Int) (ok : Bool) : Tables :=
  if (t.find data.deviceId).isNone ∨ (findDuplicateEvent t data).isSome ∨ !ok then t
  else
    let metrics := data.metrics.getD (.dict [])
    let t := { t with telemetry := t.telemetry ++ [event data] }
    t.update data.deviceId fun d => { d with
      lastSeen := data.timestamp.getD now
      riskScore := (get data.rollup "risk_score_avg" (get metrics "risk_score" none)).bind
        p.toScore
      reportedPolicyHash := asNullableString (get data.rollup "policy_hash" none)
      osBuild := ((asNullableString (get metrics "os_build" none)).filter isTruthy).or
        d.osBuild
      lifecycleState := ((presenceState data).map presenceToLifecycleState).getD
        d.lifecycleState }

end Telemetry

-- Models `PairingController::confirm`.
namespace Pairing

def authorize (p : Platform) (r : ConfirmRequest) : Option (User × String × PairClaims) := do
  let user ← r.user
  guard (p.masterHash ≠ "")
  let claims ← r.claims
  guard (claims.scope = some "pair_token")
  match r.session with
  | none => pure ()
  | some session =>
    let session ← session
    guard (session.userId = "" ∨ session.userId = user.id)
    guard (session.pairToken = "" ∨ session.pairToken = r.pairToken)
  let id ← claims.sub
  guard (id ≠ "")
  return (user, id, claims)

def isOwnedByAnother (user : User) (d : Device) : Bool :=
  d.userId.any fun id => isTruthy id && id ≠ user.id

def confirm (p : Platform) (t : Tables) (r : ConfirmRequest) : Tables :=
  match authorize p r with
  | some (user, id, claims) =>
    let t := t.firstOrCreate
      (.new id (claims.deviceName.getD "New Device") .offline (some p.masterHash))
    if (t.find id).any (isOwnedByAnother user) then t
    else
      t.update id fun d => { d with
        userId := user.id
        deviceName := (r.session.join.bind PairSession.deviceLabel).filter isTruthy |>.or
          (claims.deviceName.or d.deviceName)
        lifecycleState := if d.lifecycleState ∈ [.online, .active] then d.lifecycleState
          else .offline }
  | none => t

end Pairing

def Tables.handle (p : Platform) (t : Tables) : Event → Tables
  | .online data => Presence.online p t data
  | .activated data => Presence.activated t data
  | .offline data => Presence.offline t data
  | .telemetry data now ok => Telemetry.ingest p t data now ok
  | .confirm request => Pairing.confirm p t request

def examplePlatform : Platform :=
  ⟨"h1", fun _ => none⟩

end ControlPlane
