import Quoodle.Data.RunningMean
import Quoodle.ControlPlane.Devices

-- The rows of `telemetry_rollups`, which summarize the samples of five minutes.
namespace ControlPlane.Telemetry

open Gateway (Value)
open RunningMean (average average_concat mean push)

def networkMetricMax : ℚ :=
  1000000000000

def sanitizeNetworkMetric : Option ℚ → Option ℚ
  | none => none
  | some v => if v < 0 then some 0 else some (min v networkMetricMax)

@[simp]
theorem sanitizeNetworkMetric_sanitizeNetworkMetric (v : Option ℚ) :
    sanitizeNetworkMetric (sanitizeNetworkMetric v) = sanitizeNetworkMetric v := by
  cases v
  case none => rfl
  case some v =>
    by_cases hv : v < 0
    case pos => simp [sanitizeNetworkMetric, hv, networkMetricMax]
    have hm : ¬min v networkMetricMax < 0 :=
      not_lt.mpr (le_min (not_lt.mp hv) (by norm_num [networkMetricMax]))
    simp [sanitizeNetworkMetric, hv, hm]

structure Metrics where
  cpu : Option ℚ
  ram : Option ℚ
  diskUsage : Option ℚ
  networkTx : Option ℚ
  networkRx : Option ℚ
  riskScore : Option ℚ
  policyHash : Option String
  kernelEvent : Option Value
  others : List (String × Value)
  deriving DecidableEq

structure CanonicalMetrics extends Metrics where
  sanitizedTx : sanitizeNetworkMetric networkTx = networkTx
  sanitizedRx : sanitizeNetworkMetric networkRx = networkRx
  deriving DecidableEq

def sanitizeMetricsForPersistence (m : Metrics) : CanonicalMetrics where
  toMetrics := { m with
    networkTx := sanitizeNetworkMetric m.networkTx
    networkRx := sanitizeNetworkMetric m.networkRx }
  sanitizedTx := sanitizeNetworkMetric_sanitizeNetworkMetric m.networkTx
  sanitizedRx := sanitizeNetworkMetric_sanitizeNetworkMetric m.networkRx

-- A row of the table, whose columns keep numbers as they are.
structure Rollup where
  deviceId : String
  bucketStart : Int
  bucketMinutes : Nat
  samples : Nat
  avgCpu : Option ℚ
  avgRam : Option ℚ
  avgDiskUsage : Option ℚ
  avgNetworkTx : Option ℚ
  avgNetworkRx : Option ℚ
  avgRiskScore : Option ℚ
  maxCpu : Option ℚ
  presenceState : Option PresenceState

def weightedAvg (existing : Option ℚ) (samples : Nat) (next : Option ℚ) : Option ℚ :=
  match next, existing with
  | none,      _ => existing
  | some next, none => some next
  | some next, some existing =>
    if samples = 0 then some next else some ((existing * samples + next) / (samples + 1))

def bucketStart (timestamp : Int) : Int :=
  timestamp / 3600 * 3600 + timestamp / 60 % 60 / 5 * 5 * 60

namespace Rollup

def key (r : Rollup) : String × Int × Nat :=
  (r.deviceId, r.bucketStart, r.bucketMinutes)

def new (deviceId : String) (bucketStart : Int) (metrics : CanonicalMetrics)
    (presenceState : Option PresenceState) : Rollup where
  deviceId := deviceId
  bucketStart := bucketStart
  bucketMinutes := 5
  samples := 1
  avgCpu := metrics.cpu
  avgRam := metrics.ram
  avgDiskUsage := metrics.diskUsage
  avgNetworkTx := sanitizeNetworkMetric metrics.networkTx
  avgNetworkRx := sanitizeNetworkMetric metrics.networkRx
  avgRiskScore := metrics.riskScore
  maxCpu := metrics.cpu
  presenceState := presenceState

def add (r : Rollup) (metrics : CanonicalMetrics) (presenceState : Option PresenceState) : Rollup :=
  let prevSamples := r.samples
  { r with
    samples := prevSamples + 1
    avgCpu := weightedAvg r.avgCpu prevSamples metrics.cpu
    avgRam := weightedAvg r.avgRam prevSamples metrics.ram
    avgDiskUsage := weightedAvg r.avgDiskUsage prevSamples metrics.diskUsage
    avgNetworkTx := weightedAvg r.avgNetworkTx prevSamples (sanitizeNetworkMetric metrics.networkTx)
    avgNetworkRx := weightedAvg r.avgNetworkRx prevSamples (sanitizeNetworkMetric metrics.networkRx)
    avgRiskScore := weightedAvg r.avgRiskScore prevSamples metrics.riskScore
    maxCpu := match metrics.cpu with
      | none => r.maxCpu
      | some candidate => some (r.maxCpu.elim candidate (max · candidate))
    presenceState := presenceState }

end Rollup

-- Nobody else writes to the table in between, so that there is no conflict and no second attempt.
def upsertRollup (rows : List Rollup) (deviceId : String) (timestamp : Int)
    (metrics : CanonicalMetrics) (presenceState : Option PresenceState) : List Rollup :=
  let key := (deviceId, bucketStart timestamp, 5)
  match Rows.find Rollup.key rows key with
  | none => rows ++ [.new deviceId (bucketStart timestamp) metrics presenceState]
  | some _ => Rows.update Rollup.key rows key (·.add metrics presenceState)

structure Sample where
  timestamp : Int
  metrics : CanonicalMetrics
  presenceState : Option PresenceState

def upsertRollups (rows : List Rollup) (deviceId : String) (xs : List Sample) : List Rollup :=
  xs.foldl (fun rows x => upsertRollup rows deviceId x.timestamp x.metrics x.presenceState) rows

inductive Metric where
  | cpu | ram | diskUsage | networkTx | networkRx | riskScore
  deriving DecidableEq

def Metrics.get (m : Metrics) : Metric → Option ℚ
  | .cpu => m.cpu
  | .ram => m.ram
  | .diskUsage => m.diskUsage
  | .networkTx => m.networkTx
  | .networkRx => m.networkRx
  | .riskScore => m.riskScore

def Rollup.avg (r : Rollup) : Metric → Option ℚ
  | .cpu => r.avgCpu
  | .ram => r.avgRam
  | .diskUsage => r.avgDiskUsage
  | .networkTx => r.avgNetworkTx
  | .networkRx => r.avgNetworkRx
  | .riskScore => r.avgRiskScore

def values (m : Metric) (xs : List Sample) : List (Option ℚ) :=
  xs.map (·.metrics.get m)

structure Rollup.Summarizes (r : Rollup) (xs : List Sample) : Prop where
  samples : r.samples = xs.length
  avg : ∀ m, r.avg m = mean (values m xs).reduceOption
  maxCpu : r.maxCpu = (values .cpu xs).reduceOption.max?

-- The row summarizes the samples, in whatever order they come.
def Means (rows : List Rollup) (deviceId : String) (bucketStart : Int) (xs : List Sample) : Prop :=
  ∀ ys, ys.Perm xs →
    (Rows.find Rollup.key (upsertRollups rows deviceId ys) (deviceId, bucketStart, 5)).elim
      (xs = []) (·.Summarizes xs)

section Run

variable {rows : List Rollup} {deviceId : String} {b : Int} {xs : List Sample}

theorem weightedAvg_eq_push (existing : Option ℚ) (samples : Nat) (next : Option ℚ) :
    weightedAvg existing samples next = push samples existing next := by
  cases existing <;> cases next <;> rfl

theorem Rollup.avg_new (metrics : CanonicalMetrics) (state : Option PresenceState) (m : Metric) :
    (Rollup.new deviceId b metrics state).avg m = metrics.get m := by
  cases m
  case networkTx => exact metrics.sanitizedTx
  case networkRx => exact metrics.sanitizedRx
  all_goals rfl

theorem Rollup.avg_add (r : Rollup) (metrics : CanonicalMetrics) (state : Option PresenceState)
    (m : Metric) :
    (r.add metrics state).avg m = weightedAvg (r.avg m) r.samples (metrics.get m) := by
  cases m
  case networkTx => exact congrArg (weightedAvg r.avgNetworkTx r.samples) metrics.sanitizedTx
  case networkRx => exact congrArg (weightedAvg r.avgNetworkRx r.samples) metrics.sanitizedRx
  all_goals rfl

-- What a row holds after samples in the order in which they came.
structure Rollup.Collects (r : Rollup) (xs : List Sample) : Prop where
  samples : r.samples = xs.length
  avg : ∀ m, r.avg m = average (values m xs)
  maxCpu : r.maxCpu = (values .cpu xs).reduceOption.max?

theorem max?_concat (vs : List ℚ) (v : ℚ) : (vs ++ [v]).max? = some (vs.max?.elim v (max · v)) := by
  cases vs
  case nil => rfl
  case cons w vs => simp [List.max?]

theorem max?_perm {vs ws : List ℚ} (h : vs.Perm ws) : vs.max? = ws.max? := by
  refine Option.ext fun v => ?_
  simp only [List.max?_eq_some_iff, h.mem_iff]

theorem values_concat (m : Metric) (xs : List Sample) (x : Sample) :
    values m (xs ++ [x]) = values m xs ++ [x.metrics.get m] := by
  simp [values]

theorem Rollup.collects_new (x : Sample) :
    (Rollup.new deviceId b x.metrics x.presenceState).Collects [x] where
  samples := rfl
  avg m := by
    rw [avg_new, values, List.map_singleton, ← List.nil_append [_], average_concat]
    cases x.metrics.get m <;> rfl
  maxCpu := by
    change x.metrics.cpu = [x.metrics.cpu].reduceOption.max?
    cases x.metrics.cpu <;> rfl

theorem Rollup.Collects.add {r : Rollup} (h : r.Collects xs) (x : Sample) :
    (r.add x.metrics x.presenceState).Collects (xs ++ [x]) where
  samples := by
    rw [List.length_append, ← h.samples]
    rfl
  avg m := by
    rw [avg_add, weightedAvg_eq_push, h.avg, h.samples, values_concat, average_concat,
      values, List.length_map]
  maxCpu := by
    rw [values_concat, ← List.concat_eq_append, List.reduceOption_concat]
    change (match x.metrics.cpu with
      | none => r.maxCpu
      | some candidate => some (r.maxCpu.elim candidate (max · candidate))) = _
    rw [h.maxCpu]
    change _ = ((values .cpu xs).reduceOption ++ x.metrics.cpu.toList).max?
    cases x.metrics.cpu
    case none => simp
    case some v => rw [Option.toList_some, max?_concat]

theorem find_upsertRollup (rows : List Rollup) (deviceId : String) (x : Sample) :
    Rows.find Rollup.key (upsertRollup rows deviceId x.timestamp x.metrics x.presenceState)
        (deviceId, bucketStart x.timestamp, 5) =
      some ((Rows.find Rollup.key rows (deviceId, bucketStart x.timestamp, 5)).elim
        (.new deviceId (bucketStart x.timestamp) x.metrics x.presenceState)
        (·.add x.metrics x.presenceState)) := by
  unfold upsertRollup
  cases h : Rows.find Rollup.key rows (deviceId, bucketStart x.timestamp, 5)
  case none =>
    simp only [h, Rows.find_append, Option.none_or]
    exact List.find?_cons_of_pos (decide_eq_true rfl)
  case some r =>
    have hk (r : Rollup) (hr : r.key = (deviceId, bucketStart x.timestamp, 5)) :
        (r.add x.metrics x.presenceState).key = (deviceId, bucketStart x.timestamp, 5) := hr
    simp only [h, Rows.find_update hk, if_pos, Option.map_some, Option.elim_some]

theorem find_upsertRollups (hb : ∀ x ∈ xs, bucketStart x.timestamp = b)
    (hr : Rows.find Rollup.key rows (deviceId, b, 5) = none) :
    (Rows.find Rollup.key (upsertRollups rows deviceId xs) (deviceId, b, 5)).elim (xs = [])
      (·.Collects xs) := by
  induction xs using List.reverseRecOn
  case nil => simp [upsertRollups, hr]
  case append_singleton xs x hi =>
    have hi := hi fun y hy => hb y (List.mem_append_left _ hy)
    have hx : bucketStart x.timestamp = b := hb x (by simp)
    have hf := find_upsertRollup (upsertRollups rows deviceId xs) deviceId x
    rw [hx] at hf
    have hc : upsertRollups rows deviceId (xs ++ [x]) =
        upsertRollup (upsertRollups rows deviceId xs) deviceId x.timestamp x.metrics
          x.presenceState := List.foldl_concat ..
    rw [hc, hf]
    cases h : Rows.find Rollup.key (upsertRollups rows deviceId xs) (deviceId, b, 5)
    case none =>
      rw [h] at hi
      rw [show xs = [] from hi]
      exact Rollup.collects_new x
    case some r =>
      rw [h] at hi
      exact Rollup.Collects.add hi x

-- The averages of a row depend on the order in which its samples came, and nothing else does.
theorem Rollup.Collects.summarizes_iff {r : Rollup} {ys : List Sample} (h : r.Collects ys)
    (hp : ys.Perm xs) : r.Summarizes xs ↔
      ∀ m, average (values m ys) = mean (values m xs).reduceOption := by
  constructor
  case mp => exact fun hs m => (h.avg m).symm.trans (hs.avg m)
  case mpr =>
    intro ha
    have hv : (values .cpu ys).Perm (values .cpu xs) := hp.map _
    refine ⟨h.samples.trans hp.length_eq, fun m => (h.avg m).trans (ha m), ?_⟩
    exact h.maxCpu.trans (max?_perm (hv.filterMap id))

theorem means_iff_average (hb : ∀ x ∈ xs, bucketStart x.timestamp = b)
    (hr : Rows.find Rollup.key rows (deviceId, b, 5) = none) :
    Means rows deviceId b xs ↔ ∀ m ys, ys.Perm xs →
      average (values m ys) = mean (values m xs).reduceOption := by
  have hf (ys : List Sample) (hp : ys.Perm xs) :
      (Rows.find Rollup.key (upsertRollups rows deviceId ys) (deviceId, b, 5)).elim (xs = [])
        (·.Summarizes xs) ↔
      ∀ m, average (values m ys) = mean (values m xs).reduceOption := by
    have hy (x : Sample) (hx : x ∈ ys) : bucketStart x.timestamp = b := hb x (hp.mem_iff.mp hx)
    have h := find_upsertRollups hy hr
    cases hq : Rows.find Rollup.key (upsertRollups rows deviceId ys) (deviceId, b, 5)
    case none =>
      rw [hq] at h
      rw [show ys = [] from h] at hp ⊢
      simp [List.nil_perm.mp hp, values]
    case some r =>
      rw [hq] at h
      exact Rollup.Collects.summarizes_iff h hp
  constructor
  case mp => exact fun h m ys hp => (hf ys hp).mp (h ys hp) m
  case mpr => exact fun h ys hp => (hf ys hp).mpr fun m => h m ys hp

-- A permutation of the values comes from one of the samples.
theorem forall_perm_values_iff {m : Metric} {P : List (Option ℚ) → Prop} :
    (∀ ys, ys.Perm xs → P (values m ys)) ↔ ∀ vs, vs.Perm (values m xs) → P vs := by
  constructor
  case mp =>
    intro h vs hp
    have hf : List.Forall₂ (fun v (x : Sample) => v = x.metrics.get m) (values m xs) xs :=
      List.forall₂_map_left_iff.mpr (List.forall₂_same.mpr fun _ _ => rfl)
    obtain ⟨ys, hy, hq⟩ := List.perm_comp_forall₂ hp hf
    have hv : List.Forall₂ (· = ·) vs (values m ys) := List.forall₂_map_right_iff.mpr hy
    rw [List.forall₂_eq_eq_eq] at hv
    exact hv ▸ h ys hq
  case mpr => exact fun h ys hp => h _ (hp.map _)

-- No sample lacks the metric, or those that have it agree on it.
def Steady (m : Metric) (xs : List Sample) : Prop :=
  none ∉ values m xs ∨ ∀ v w, some v ∈ values m xs → some w ∈ values m xs → v = w

theorem means_iff_steady (hb : ∀ x ∈ xs, bucketStart x.timestamp = b)
    (hr : Rows.find Rollup.key rows (deviceId, b, 5) = none) :
    Means rows deviceId b xs ↔ ∀ m, Steady m xs := by
  rw [means_iff_average hb hr]
  refine forall_congr' fun m => ?_
  rw [forall_perm_values_iff (P := (average · = _))]
  exact RunningMean.forall_perm_average_iff

end Run

def exampleSample (cpu : Option ℚ) : Sample :=
  ⟨0, sanitizeMetricsForPersistence ⟨cpu, none, none, none, none, none, none, none, []⟩, none⟩

theorem means_iff_steady_two :
    Means [] "d" 0 [exampleSample (some 10), exampleSample (some 40)] ↔
      ∀ m, Steady m [exampleSample (some 10), exampleSample (some 40)] :=
  means_iff_steady (by decide) rfl

-- The load that was not reported counts as the mean of what was reported before.
theorem missing_weighted :
    ¬Means [] "d" 0 [exampleSample (some 10), exampleSample none, exampleSample (some 40)] := by
  intro h
  have hf : (Rows.find Rollup.key (upsertRollups [] "d" [exampleSample (some 10), exampleSample none,
      exampleSample (some 40)]) ("d", 0, 5)).map (·.avg .cpu) = some (some 20) := by decide +kernel
  obtain ⟨r, hr, ha⟩ := Option.map_eq_some_iff.mp hf
  have hs := h _ (.refl _)
  rw [hr] at hs
  have hm := ha.symm.trans (Rollup.Summarizes.avg hs .cpu)
  revert hm
  decide +kernel

end ControlPlane.Telemetry
