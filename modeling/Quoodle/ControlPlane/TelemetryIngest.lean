import Quoodle.ControlPlane.TelemetryRollup

-- What `TelemetryIngestService::ingest` writes, one call after the other.
namespace ControlPlane.Telemetry

open Gateway (Value)

structure Meter where
  toFloat : Value → Option ℚ
  -- What becomes of an event of the kernel that is an array.
  normalizeKernelEvent : Value → Value

structure Payload extends TelemetryData where
  schemaVersion : Option String
  maskedFields : Option Value
  connectionMode : Option String

structure Latest where
  deviceId : String
  telemetryScope : String
  schemaVersion : String
  sessionId : Option String
  seq : Option Int
  timestamp : Int
  metrics : CanonicalMetrics
  maskedFields : Value
  policyHash : Option String
  riskScore : Option Int
  presenceState : Option PresenceState
  connectionMode : Option String
  updatedAt : Int

structure Snapshot where
  deviceId : String
  timestamp : Int
  metrics : CanonicalMetrics

structure Store where
  tables : Tables
  latest : List Latest
  snapshots : List Snapshot
  rollups : List Rollup

inductive Status where
  | ingested | duplicateIgnored | rejected
  deriving DecidableEq

-- A call of `ingest`, with its time and whether the database takes what is written.
structure Ingest where
  payload : Payload
  now : Int
  ok : Bool

def isArray (v : Value) : Bool :=
  v.json matches .arr _ | .obj _

def normalizeMetrics (q : Meter) (rollup metrics : Value) : Metrics where
  cpu := (get metrics "cpu" (get rollup "avg_cpu" none)).bind q.toFloat
  ram := (get metrics "ram" (get rollup "avg_ram" none)).bind q.toFloat
  diskUsage := (get metrics "disk_usage" (get rollup "avg_disk" none)).bind q.toFloat
  networkTx := (get metrics "network_tx" (get rollup "avg_tx" none)).bind q.toFloat
  networkRx := (get metrics "network_rx" (get rollup "avg_rx" none)).bind q.toFloat
  riskScore := (get metrics "risk_score" (get rollup "risk_score_avg" none)).bind q.toFloat
  policyHash := asNullableString (get metrics "policy_hash" (get rollup "policy_hash" none))
  kernelEvent :=
    let kernelEvent := (get metrics "kernel_event" none).filter isArray
    ((kernelEvent.or (get rollup "kernel_event" none)).filter isArray).map q.normalizeKernelEvent
  others := (metrics.items.getD []).filter fun (k, _) =>
    k ∉ ["cpu", "ram", "disk_usage", "network_tx", "network_rx", "risk_score", "policy_hash",
      "kernel_event"]

namespace Ingest

variable (p : Platform) (q : Meter) (c : Ingest)

def timestamp : Int :=
  c.payload.timestamp.getD c.now

def rawMetrics : Value :=
  c.payload.metrics.getD (.dict [])

def metrics : CanonicalMetrics :=
  sanitizeMetricsForPersistence (normalizeMetrics q c.payload.rollup c.rawMetrics)

def policyHash : Option String :=
  asNullableString (get c.payload.rollup "policy_hash" none)

def riskScore : Option Int :=
  (get c.payload.rollup "risk_score_avg" (get c.rawMetrics "risk_score" none)).bind p.toScore

def connectionMode : Option String :=
  (asNullableString (get c.payload.rollup "connection_mode" (c.payload.connectionMode.map .str))).or
    (if scope c.payload.toTelemetryData = "kernel_event" then some "wss" else none)

def latest : Latest where
  deviceId := c.payload.deviceId
  telemetryScope := scope c.payload.toTelemetryData
  schemaVersion := c.payload.schemaVersion.getD "v1"
  sessionId := c.payload.sessionId
  seq := c.payload.seq
  timestamp := c.timestamp
  metrics := c.metrics q
  maskedFields := c.payload.maskedFields.getD (.list [])
  policyHash := c.policyHash
  riskScore := c.riskScore p
  presenceState := presenceState c.payload.toTelemetryData
  connectionMode := c.connectionMode
  updatedAt := c.now

def snapshot : Snapshot :=
  ⟨c.payload.deviceId, c.timestamp, c.metrics q⟩

def updateDevice (d : Device) : Device :=
  { d with
    lastSeen := c.timestamp
    riskScore := c.riskScore p
    reportedPolicyHash := c.policyHash
    osBuild := ((asNullableString (get c.rawMetrics "os_build" none)).filter isTruthy).or
      d.osBuild
    lifecycleState := ((presenceState c.payload.toTelemetryData).map
      presenceToLifecycleState).getD d.lifecycleState }

end Ingest

def updateOrCreate (rows : List Latest) (row : Latest) : List Latest :=
  if (Rows.find Latest.deviceId rows row.deviceId).isSome then
    Rows.update Latest.deviceId rows row.deviceId fun _ => row
  else rows ++ [row]

namespace Store

variable (p : Platform) (q : Meter)

def accept (s : Store) (c : Ingest) : Store where
  tables := ⟨Rows.update Device.deviceId s.tables.devices c.payload.deviceId (c.updateDevice p),
    s.tables.telemetry ++ [event c.payload.toTelemetryData]⟩
  latest := updateOrCreate s.latest (c.latest p q)
  snapshots := s.snapshots ++ [c.snapshot q]
  rollups := upsertRollup s.rollups c.payload.deviceId c.timestamp (c.metrics q)
    (presenceState c.payload.toTelemetryData)

def ingest (s : Store) (c : Ingest) : Store × Status :=
  if (findDuplicateEvent s.tables c.payload.toTelemetryData).isSome then (s, .duplicateIgnored)
  else if c.ok then (s.accept p q c, .ingested)
  else (s, .rejected)

def ingests (s : Store) (cs : List Ingest) : Store :=
  cs.foldl (fun s c => (s.ingest p q c).1) s

def accepted (deviceId : String) : Store → List Ingest → List Ingest
  | _, [] => []
  | s, c :: cs =>
    let (s', status) := s.ingest p q c
    if status = .ingested ∧ c.payload.deviceId = deviceId then c :: accepted deviceId s' cs
    else accepted deviceId s' cs

structure Shows (s : Store) (c : Ingest) : Prop where
  latest : Rows.find Latest.deviceId s.latest c.payload.deviceId = some (c.latest p q)
  lastSeen : ∀ d ∈ s.tables.find c.payload.deviceId, d.lastSeen = some c.timestamp
  riskScore : ∀ d ∈ s.tables.find c.payload.deviceId, d.riskScore = c.riskScore p
  reportedPolicyHash : ∀ d ∈ s.tables.find c.payload.deviceId, d.reportedPolicyHash = c.policyHash

-- What is shown is a sample that is not older than any other.
def ShowsNewest (deviceId : String) (s : Store) (cs : List Ingest) : Prop :=
  s.accepted p q deviceId cs ≠ [] → ∃ c ∈ s.accepted p q deviceId cs,
    (∀ c' ∈ s.accepted p q deviceId cs, c'.timestamp ≤ c.timestamp) ∧
      (s.ingests p q cs).Shows p q c

end Store

section Run

variable {p : Platform} {q : Meter} {s : Store} {deviceId : String} {c : Ingest} {cs : List Ingest}

theorem find_updateOrCreate (rows : List Latest) (row : Latest) (deviceId : String) :
    Rows.find Latest.deviceId (updateOrCreate rows row) deviceId =
      if row.deviceId = deviceId then some row else Rows.find Latest.deviceId rows deviceId := by
  unfold updateOrCreate
  split
  case isTrue h =>
    rw [Rows.find_update fun _ _ => rfl]
    split
    case isTrue hd =>
      obtain ⟨r, hr⟩ := Option.isSome_iff_exists.mp (hd ▸ h)
      rw [hr, Option.map_some]
    case isFalse => rfl
  case isFalse h =>
    rw [Rows.find_append]
    split
    case isTrue hd =>
      rw [← hd, Option.not_isSome_iff_eq_none.mp h, Option.none_or]
      exact List.find?_cons_of_pos (decide_eq_true rfl)
    case isFalse hd =>
      have hn : Rows.find Latest.deviceId [row] deviceId = none := by simp [Rows.find, hd]
      rw [hn, Option.or_none]

namespace Store

theorem ingest_cases (s : Store) (c : Ingest) :
    s.ingest p q c = (s.accept p q c, .ingested) ∨
      (s.ingest p q c).1 = s ∧ (s.ingest p q c).2 ≠ .ingested := by
  unfold ingest
  split
  case isTrue => exact .inr ⟨rfl, nofun⟩
  split
  case isTrue => exact .inl rfl
  case isFalse => exact .inr ⟨rfl, nofun⟩

theorem find_accept (s : Store) (c : Ingest) (deviceId : String) :
    (s.accept p q c).tables.find deviceId =
      if c.payload.deviceId = deviceId then (s.tables.find deviceId).map (c.updateDevice p)
      else s.tables.find deviceId :=
  Rows.find_update fun _ hd => hd

theorem shows_accept (s : Store) (c : Ingest) : (s.accept p q c).Shows p q c := by
  have hd (d : Device) (h : d ∈ (s.accept p q c).tables.find c.payload.deviceId) :
      ∃ d', d = c.updateDevice p d' := by
    rw [find_accept, if_pos rfl, Option.mem_def, Option.map_eq_some_iff] at h
    obtain ⟨d', -, he⟩ := h
    exact ⟨d', he.symm⟩
  refine ⟨?_, fun d h => ?_, fun d h => ?_, fun d h => ?_⟩
  case refine_1 => exact (find_updateOrCreate ..).trans (if_pos rfl)
  all_goals
    obtain ⟨d', rfl⟩ := hd d h
    rfl

theorem Shows.accept_of_ne {c' : Ingest} (h : s.Shows p q c)
    (hd : c'.payload.deviceId ≠ c.payload.deviceId) : (s.accept p q c').Shows p q c := by
  have hf := (find_accept (p := p) (q := q) s c' c.payload.deviceId).trans (if_neg hd)
  refine ⟨?_, hf ▸ h.lastSeen, hf ▸ h.riskScore, hf ▸ h.reportedPolicyHash⟩
  exact (find_updateOrCreate ..).trans ((if_neg hd).trans h.latest)

theorem ingests_concat (s : Store) (cs : List Ingest) (c : Ingest) :
    s.ingests p q (cs ++ [c]) = ((s.ingests p q cs).ingest p q c).1 :=
  List.foldl_concat ..

theorem accepted_concat (s : Store) (cs : List Ingest) (c : Ingest) :
    s.accepted p q deviceId (cs ++ [c]) = s.accepted p q deviceId cs ++
      if ((s.ingests p q cs).ingest p q c).2 = .ingested ∧ c.payload.deviceId = deviceId then [c]
      else [] := by
  induction cs generalizing s
  case nil => rfl
  case cons c' cs hi =>
    simp only [accepted, ingests, List.cons_append, List.foldl_cons, hi]
    split <;> rfl

theorem deviceId_of_mem_accepted (h : c ∈ s.accepted p q deviceId cs) :
    c.payload.deviceId = deviceId := by
  induction cs generalizing s
  case nil => cases h
  case cons c' cs hi =>
    simp only [accepted] at h
    split at h
    case isTrue hc =>
      cases h
      case head => exact hc.right
      case tail h => exact hi h
    case isFalse => exact hi h

theorem shows_of_getLast? (h : c ∈ (s.accepted p q deviceId cs).getLast?) :
    (s.ingests p q cs).Shows p q c := by
  induction cs using List.reverseRecOn
  case nil => cases h
  case append_singleton cs c' hi =>
    rw [ingests_concat]
    rw [accepted_concat] at h
    obtain he | ⟨he, hn⟩ := ingest_cases (p := p) (q := q) (s.ingests p q cs) c'
    case inr =>
      rw [if_neg fun hc => hn hc.left, List.append_nil] at h
      rw [he]
      exact hi h
    case inl =>
      rw [he] at h ⊢
      by_cases hd : c'.payload.deviceId = deviceId
      case pos =>
        rw [if_pos ⟨rfl, hd⟩, List.getLast?_concat] at h
        cases h
        exact shows_accept ..
      case neg =>
        rw [if_neg fun hc => hd hc.right, List.append_nil] at h
        have hc := deviceId_of_mem_accepted (List.mem_of_getLast? h)
        exact (hi h).accept_of_ne (hc ▸ hd)

-- The sample that arrived last is not older than any other.
def InOrder (p : Platform) (q : Meter) (deviceId : String) (s : Store) (cs : List Ingest) : Prop :=
  ∀ c ∈ (s.accepted p q deviceId cs).getLast?, ∀ c' ∈ s.accepted p q deviceId cs,
    c'.timestamp ≤ c.timestamp

theorem showsNewest_iff_inOrder :
    s.ShowsNewest p q deviceId cs ↔ s.InOrder p q deviceId cs := by
  constructor
  case mp =>
    intro h c hc c' hc'
    obtain ⟨n, hm, hn, hs⟩ := h (List.ne_nil_of_mem hc')
    have hd : n.payload.deviceId = c.payload.deviceId :=
      (deviceId_of_mem_accepted hm).trans (deviceId_of_mem_accepted (List.mem_of_getLast? hc)).symm
    -- The rows have the times of their samples.
    have hr := (shows_of_getLast? hc).latest
    rw [← hd, hs.latest, Option.some_inj] at hr
    have ht : n.timestamp = c.timestamp := congrArg Latest.timestamp hr
    exact ht ▸ hn c' hc'
  case mpr =>
    intro h hn
    have hl := List.getLast?_eq_some_getLast hn
    exact ⟨_, List.getLast_mem hn, h _ hl, shows_of_getLast? hl⟩

end Store

end Run

def exampleIngest (seq timestamp : Int) : Ingest :=
  ⟨⟨⟨"d", some timestamp, .dict [], none, some "s", some seq, none, none⟩, none, none, none⟩, 100,
    true⟩

def exampleMeter : Meter :=
  ⟨fun _ => none, id⟩

-- A sample that was queued is replayed after a newer one.
theorem replayed_shown : ¬Store.ShowsNewest examplePlatform exampleMeter "d"
    ⟨⟨[.new "d" none .online none], []⟩, [], [], []⟩ [exampleIngest 2 50, exampleIngest 1 20] := by
  intro h
  obtain ⟨c, hm, hn, hs⟩ := h (by decide)
  have hl : (50 : Int) ≤ c.timestamp := hn (exampleIngest 2 50) (.head _)
  have hr := hs.latest
  rw [Store.deviceId_of_mem_accepted hm] at hr
  have ht : some (20 : Int) = some c.timestamp := congrArg (Option.map Latest.timestamp) hr
  rw [← Option.some_inj.mp ht] at hl
  exact absurd hl (by decide)

end ControlPlane.Telemetry
