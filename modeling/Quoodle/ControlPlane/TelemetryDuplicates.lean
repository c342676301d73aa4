import Quoodle.Data.Overlap
import Quoodle.ControlPlane.TelemetryIngest

-- Calls of `ingest` whose transactions overlap. A transaction sees what was committed when it
-- began, and what it writes is seen by the others when it commits.
namespace ControlPlane.Telemetry

open Transition (Steps)

def Ingest.event (c : Ingest) : TelemetryEvent :=
  Telemetry.event c.payload.toTelemetryData

structure Lookup where
  call : Ingest
  found : Bool

structure Journal where
  store : Store
  log : List (Ingest × Status)

namespace Journal

def answer (s : Journal) (c : Ingest) (status : Status) : Journal :=
  { s with log := s.log ++ [(c, status)] }

def ingested (s : Journal) : List Ingest :=
  (s.log.filter (·.2 = .ingested)).map Prod.fst

end Journal

abbrev Calls := Overlap.State Journal Lookup

abbrev CallAction := Overlap.Action Ingest Unit Empty

section Source

variable (p : Platform) (q : Meter)

def beginIngest (s : Journal) (c : Ingest) : Lookup :=
  ⟨c, (findDuplicateEvent s.store.tables c.payload.toTelemetryData).isSome⟩

-- A row of the rollups that another transaction has created in the meantime is found by the second
-- attempt, so that it does not matter when it was created.
def commitIngest (s : Journal) (t : Lookup) : Journal :=
  if t.found then s.answer t.call .duplicateIgnored
  else if t.call.ok then { s with store := s.store.accept p q t.call }.answer t.call .ingested
  else s.answer t.call .rejected

def calls : Overlap.System Journal Lookup Ingest Unit Empty where
  begin s c := (s, some (beginIngest s c))
  resume s t _ := (commitIngest p q s t, none)
  change s _ := s

end Source

def totalSamples (rows : List Rollup) : Nat :=
  (rows.map Rollup.samples).sum

-- Every call that was accepted, and no other one, has left an event, a snapshot and a sample.
structure Records (q : Meter) (s₀ : Store) (s : Journal) : Prop where
  events : s.store.tables.telemetry = s₀.tables.telemetry ++ s.ingested.map Ingest.event
  snapshots : s.store.snapshots = s₀.snapshots ++ s.ingested.map (Ingest.snapshot q)
  samples : totalSamples s.store.rollups = totalSamples s₀.rollups + s.ingested.length

-- One call for an event was accepted, unless all of them were rejected.
structure Once (e : TelemetryEvent) (s : Journal) : Prop where
  atMost : (s.ingested.map Ingest.event).count e ≤ 1
  exact : (∃ x ∈ s.log, x.1.event = e ∧ x.2 ≠ .rejected) →
    (s.ingested.map Ingest.event).count e = 1

structure Idempotent (q : Meter) (s₀ : Store) (e : TelemetryEvent) (s : Journal) : Prop where
  records : Records q s₀ s
  once : Once e s

-- No call for an event begins before the last one has ended.
def Serial (e : TelemetryEvent) (s : Calls) : CallAction → Prop
  | .begin _ c => c.event = e → ∀ k t, s.tasks k = some t → t.call.event ≠ e
  | _ => True

structure HasKey (e : TelemetryEvent) : Prop where
  seq : e.seq.isSome
  sessionId : ∀ session ∈ e.sessionId, ¬isBlank session

def Indexed (rows : List Rollup) : Prop :=
  (rows.map Rollup.key).Nodup

section Rollups

variable {rows : List Rollup} {deviceId : String} {timestamp : Int} {metrics : CanonicalMetrics}
variable {state : Option PresenceState}

theorem Indexed.upsertRollup (h : Indexed rows) :
    Indexed (upsertRollup rows deviceId timestamp metrics state) := by
  unfold Telemetry.upsertRollup Indexed
  cases hf : Rows.find Rollup.key rows (deviceId, bucketStart timestamp, 5)
  case none =>
    simp only [hf]
    rw [List.map_append, List.map_singleton, ← List.concat_eq_append, List.nodup_concat]
    refine ⟨fun hm => ?_, h⟩
    obtain ⟨r, hr, hk⟩ := List.mem_map.mp hm
    exact List.find?_eq_none.mp hf r hr (decide_eq_true hk)
  case some r =>
    simp only [hf]
    have hk (r : Rollup) : (r.add metrics state).key = r.key := rfl
    rwa [Rows.map_key_update hk]

theorem totalSamples_upsertRollup (h : Indexed rows) :
    totalSamples (upsertRollup rows deviceId timestamp metrics state) = totalSamples rows + 1 := by
  unfold upsertRollup totalSamples
  cases hf : Rows.find Rollup.key rows (deviceId, bucketStart timestamp, 5)
  case none => simp [hf, Rollup.new]
  case some r =>
    have hs := Rows.sum_update (g := Rollup.samples) (f := (·.add metrics state)) h hf
    have ha : (r.add metrics state).samples = r.samples + 1 := rfl
    simp only [hf]
    omega

end Rollups

section Run

variable {p : Platform} {q : Meter} {s₀ : Store} {e : TelemetryEvent} {s s' : Calls} {j : Journal}
variable {t : Lookup}

@[simp]
theorem Journal.ingested_answer (s : Journal) (c : Ingest) (status : Status) :
    (s.answer c status).ingested = s.ingested ++ if status = .ingested then [c] else [] := by
  unfold ingested answer
  rw [List.filter_append, List.map_append]
  congr 1
  split
  case isTrue h => simp [h]
  case isFalse h => simp [h]

theorem commitIngest_cases (p : Platform) (q : Meter) (s : Journal) (t : Lookup) :
    (t.found ∧ commitIngest p q s t = s.answer t.call .duplicateIgnored) ∨
    (!t.found ∧ commitIngest p q s t = s.answer t.call .rejected) ∨
    (!t.found ∧ commitIngest p q s t =
      { s with store := s.store.accept p q t.call }.answer t.call .ingested) := by
  unfold commitIngest
  split
  case isTrue hf => exact .inl ⟨hf, rfl⟩
  case isFalse hf =>
    have hf : !t.found := by simpa using hf
    split
    case isTrue => exact .inr (.inr ⟨hf, rfl⟩)
    case isFalse => exact .inr (.inl ⟨hf, rfl⟩)

structure Kept (q : Meter) (s₀ : Store) (s : Journal) : Prop where
  indexed : Indexed s.store.rollups
  records : Records q s₀ s

theorem Kept.answer {status : Status} (h : Kept q s₀ j) (hn : status ≠ .ingested) (c : Ingest) :
    Kept q s₀ (j.answer c status) := by
  have hi : (j.answer c status).ingested = j.ingested := by
    rw [Journal.ingested_answer, if_neg hn, List.append_nil]
  refine ⟨h.indexed, ⟨?_, ?_, ?_⟩⟩
  case refine_1 => exact hi.symm ▸ h.records.events
  case refine_2 => exact hi.symm ▸ h.records.snapshots
  case refine_3 => exact hi.symm ▸ h.records.samples

theorem Kept.accept (h : Kept q s₀ j) (c : Ingest) :
    Kept q s₀ ({ j with store := j.store.accept p q c }.answer c .ingested) := by
  have hi : ({ j with store := j.store.accept p q c }.answer c .ingested).ingested =
      j.ingested ++ [c] := Journal.ingested_answer ..
  refine ⟨h.indexed.upsertRollup, ⟨?_, ?_, ?_⟩⟩
  case refine_1 =>
    rw [hi, List.map_append, ← List.append_assoc, ← h.records.events]
    rfl
  case refine_2 =>
    rw [hi, List.map_append, ← List.append_assoc, ← h.records.snapshots]
    rfl
  case refine_3 =>
    rw [hi, List.length_append, ← Nat.add_assoc, ← h.records.samples]
    exact totalSamples_upsertRollup h.indexed

theorem Kept.commit (h : Kept q s₀ j) (t : Lookup) :
    Kept q s₀ (commitIngest p q j t) := by
  obtain ⟨-, he⟩ | ⟨-, he⟩ | ⟨-, he⟩ := commitIngest_cases p q j t
  case inl | inr.inl => exact he ▸ h.answer (by decide) _
  case inr.inr => exact he ▸ h.accept _

def recorded (e : TelemetryEvent) (s : Journal) : Nat :=
  (s.ingested.map Ingest.event).count e

theorem recorded_answer {status : Status} (hn : status ≠ .ingested) (c : Ingest) :
    recorded e (j.answer c status) = recorded e j := by
  rw [recorded, Journal.ingested_answer, if_neg hn, List.append_nil, recorded]

theorem recorded_accept (c : Ingest) :
    recorded e ({ j with store := j.store.accept p q c }.answer c .ingested) =
      recorded e j + if c.event = e then 1 else 0 := by
  rw [recorded, Journal.ingested_answer, if_pos rfl, List.map_append, List.count_append,
    List.map_singleton, List.count_singleton]
  simp only [beq_iff_eq]
  rfl

theorem log_commitIngest (p : Platform) (q : Meter) (j : Journal) (t : Lookup) :
    ∃ status, (commitIngest p q j t).log = j.log ++ [(t.call, status)] := by
  obtain ⟨-, hc⟩ | ⟨-, hc⟩ | ⟨-, hc⟩ := commitIngest_cases p q j t
  all_goals exact ⟨_, congrArg Journal.log hc⟩

theorem recorded_commitIngest_of_ne (h : t.call.event ≠ e) :
    recorded e (commitIngest p q j t) = recorded e j := by
  obtain ⟨-, he⟩ | ⟨-, he⟩ | ⟨-, he⟩ := commitIngest_cases p q j t
  case inr.inr => rw [he, recorded_accept, if_neg h, Nat.add_zero]
  all_goals exact he ▸ recorded_answer (by decide) _

theorem Once.commit_of_ne (h : Once e j) (hn : t.call.event ≠ e) :
    Once e (commitIngest p q j t) := by
  have hr := recorded_commitIngest_of_ne (p := p) (q := q) (j := j) hn
  refine ⟨hr.trans_le h.atMost, fun ⟨x, hx, he, hs⟩ => hr.trans (h.exact ⟨x, ?_, he, hs⟩)⟩
  obtain ⟨status, hl⟩ := log_commitIngest p q j t
  rw [hl, List.mem_append, List.mem_singleton] at hx
  obtain hx | rfl := hx
  case inl => exact hx
  case inr => exact absurd he hn

theorem Once.commit (h : Once e j) (hc : t.call.event = e) (hf : t.found ↔ recorded e j = 1) :
    Once e (commitIngest p q j t) := by
  have hm : recorded e j ≤ 1 := h.atMost
  obtain ⟨hf', he⟩ | ⟨-, he⟩ | ⟨hf', he⟩ := commitIngest_cases p q j t
  case inl =>
    have hr : recorded e (commitIngest p q j t) = 1 :=
      he ▸ (recorded_answer (by decide) _).trans (hf.mp hf')
    exact ⟨hr.le, fun _ => hr⟩
  case inr.inl =>
    have hr : recorded e (commitIngest p q j t) = recorded e j := he ▸ recorded_answer (by decide) _
    refine ⟨hr.trans_le hm, fun ⟨x, hx, hxe, hs⟩ => hr.trans (h.exact ⟨x, ?_, hxe, hs⟩)⟩
    rw [he] at hx
    obtain hx | hx := List.mem_append.mp hx
    case inl => exact hx
    case inr =>
      cases List.mem_singleton.mp hx
      exact absurd rfl hs
  case inr.inr =>
    have hz : recorded e j ≠ 1 := fun hr => by simp [hf.mpr hr] at hf'
    have hr : recorded e (commitIngest p q j t) = 1 := by
      rw [he, recorded_accept, if_pos hc]
      omega
    exact ⟨hr.le, fun _ => hr⟩

theorem found_beginIngest {c : Ingest} (hk : HasKey e) (hc : c.event = e) :
    (beginIngest j c).found ↔ e ∈ j.store.tables.telemetry := by
  subst hc
  have hs : c.payload.seq.isSome := hk.seq
  have hb : c.payload.sessionId.filter (!isBlank ·) = c.payload.sessionId := by
    cases h : c.payload.sessionId
    case none => rfl
    case some session =>
      have hn : ¬isBlank session := hk.sessionId session h
      simp [hn]
  unfold beginIngest findDuplicateEvent
  dsimp only
  rw [if_neg (by simp [Option.isSome_iff_ne_none.mp hs]), hb, List.find?_isSome]
  simp only [decide_eq_true_eq]
  exact exists_eq_right

-- The calls for an event do not overlap, and each of them knows whether the event was recorded.
structure Guarded (q : Meter) (s₀ : Store) (e : TelemetryEvent) (s : Calls) : Prop where
  kept : Kept q s₀ s.shared
  once : Once e s.shared
  apart : ∀ {k k' t t'}, s.tasks k = some t → s.tasks k' = some t' → t.call.event = e →
    t'.call.event = e → k = k'
  held : ∀ {k t}, s.tasks k = some t → t.call.event = e → (t.found ↔ recorded e s.shared = 1)

theorem Guarded.put_none {k : Nat} (h : Guarded q s₀ e s) (hk : Kept q s₀ j) (ho : Once e j)
    (hr : ∀ {k' t}, k' ≠ k → s.tasks k' = some t → t.call.event = e →
      recorded e j = recorded e s.shared) : Guarded q s₀ e (s.put k (j, none)) := by
  have ht {k' : Nat} {t : Lookup} (h : (s.put k (j, none)).tasks k' = some t) :
      k' ≠ k ∧ s.tasks k' = some t := by
    by_cases hn : k' = k
    case pos =>
      rw [hn, Overlap.State.tasks_put_self] at h
      cases h
    case neg => exact ⟨hn, by rwa [Overlap.State.tasks_put_of_ne hn] at h⟩
  refine ⟨hk, ho, fun h₁ h₂ => h.apart (ht h₁).right (ht h₂).right, fun h₁ he => ?_⟩
  obtain ⟨hn, h₁⟩ := ht h₁
  rw [Overlap.State.shared_put, hr hn h₁ he]
  exact h.held h₁ he

theorem mem_telemetry_iff (hk : Kept q s₀ j) (ho : Once e j) (h₀ : e ∉ s₀.tables.telemetry) :
    e ∈ j.store.tables.telemetry ↔ recorded e j = 1 := by
  have hm : recorded e j ≤ 1 := ho.atMost
  have hp : 0 < recorded e j ↔ e ∈ j.ingested.map Ingest.event := List.count_pos_iff
  rw [hk.records.events, List.mem_append, or_iff_right h₀, ← hp]
  omega

theorem Guarded.step {a : CallAction} (hk : HasKey e) (h₀ : e ∉ s₀.tables.telemetry)
    (h : Guarded q s₀ e s) (hc : Serial e s a) (ha : Overlap.step (calls p q) s a = some s') :
    Guarded q s₀ e s' := by
  cases a
  case begin k c =>
    obtain ⟨-, rfl⟩ := Overlap.step_begin ha
    have hb (he : c.event = e) :=
      (found_beginIngest hk he).trans (mem_telemetry_iff h.kept h.once h₀)
    have hp {k' : Nat} {t : Lookup}
        (ht : (s.put k ((calls p q).begin s.shared c)).tasks k' = some t) :
        k' = k ∧ t = beginIngest s.shared c ∨ s.tasks k' = some t := by
      by_cases hn : k' = k
      case pos =>
        rw [hn, Overlap.State.tasks_put_self] at ht
        exact .inl ⟨hn, (Option.some.inj ht).symm⟩
      case neg => exact .inr (by rwa [Overlap.State.tasks_put_of_ne hn] at ht)
    refine ⟨h.kept, h.once, fun {k₁ k₂ t₁ t₂} h₁ h₂ he₁ he₂ => ?_, fun {k' t} ht he => ?_⟩
    case refine_1 =>
      obtain ⟨hk₁, rfl⟩ | h₁ := hp h₁
      case inl =>
        obtain ⟨hk₂, -⟩ | h₂ := hp h₂
        case inl => exact hk₁.trans hk₂.symm
        case inr => exact absurd he₂ (hc he₁ k₂ t₂ h₂)
      case inr =>
        obtain ⟨-, rfl⟩ | h₂ := hp h₂
        case inl => exact absurd he₁ (hc he₂ k₁ t₁ h₁)
        case inr => exact h.apart h₁ h₂ he₁ he₂
    case refine_2 =>
      obtain ⟨-, rfl⟩ | ht := hp ht
      case inl => exact hb he
      case inr => exact h.held ht he
  case resume k o =>
    obtain ⟨t, ht, rfl⟩ := Overlap.step_resume ha
    by_cases he : t.call.event = e
    case pos =>
      refine h.put_none (h.kept.commit t) (h.once.commit he (h.held ht he)) ?_
      exact fun hn ht' he' => absurd (h.apart ht' ht he' he) hn
    case neg =>
      refine h.put_none (h.kept.commit t) (h.once.commit_of_ne he) ?_
      exact fun _ _ _ => recorded_commitIngest_of_ne he
  case fail k =>
    obtain rfl := Overlap.step_fail ha
    exact h.put_none h.kept h.once fun _ _ _ => rfl
  case change e' => exact e'.elim

theorem Guarded.idle (h₀ : Indexed s₀.rollups) : Guarded q s₀ e (.idle ⟨s₀, []⟩) where
  kept := ⟨h₀, ⟨(List.append_nil _).symm, (List.append_nil _).symm, rfl⟩⟩
  once := ⟨Nat.zero_le 1, fun ⟨_, hx, _⟩ => nomatch hx⟩
  apart := nofun
  held := nofun

theorem idempotent_of_serial {as : List CallAction} (hk : HasKey e) (h₀ : e ∉ s₀.tables.telemetry)
    (hi : Indexed s₀.rollups)
    (h : Steps (Overlap.step (calls p q)) (Serial e) (.idle ⟨s₀, []⟩) as s) :
    Idempotent q s₀ e s.shared := by
  have hg : Guarded q s₀ e s := h.invariant (fun hg hc ha => hg.step hk h₀ hc ha) (.idle hi)
  exact ⟨hg.kept.records, hg.once⟩

end Run

def exampleStore : Store :=
  ⟨⟨[.new "d" none .online none], []⟩, [], [], []⟩

def exampleCall (sessionId : Option String) : Ingest :=
  ⟨⟨⟨"d", some 20, .dict [], none, sessionId, some 1, none, none⟩, none, none, none⟩, 100, true⟩

theorem idempotent_twice : ∃ s, Steps (Overlap.step (calls examplePlatform exampleMeter))
      (Serial (exampleCall (some "s")).event) (.idle ⟨exampleStore, []⟩)
      [.begin 0 (exampleCall (some "s")), .resume 0 (), .begin 1 (exampleCall (some "s")),
        .resume 1 ()] s ∧
    Idempotent exampleMeter exampleStore (exampleCall (some "s")).event s.shared := by
  have hb (k : Nat) (s : Journal) : Serial (exampleCall (some "s")).event (.idle s)
      (.begin k (exampleCall (some "s"))) := fun _ _ _ ht => nomatch ht
  have ha (k : Nat) (s : Journal) : Steps (Overlap.step (calls examplePlatform exampleMeter))
      (Serial (exampleCall (some "s")).event) (.idle s)
      (.begin k (exampleCall (some "s")) :: [()].map (.resume k))
      (.idle (commitIngest examplePlatform exampleMeter s (beginIngest s (exampleCall (some "s"))))) :=
    Overlap.steps_of_alone (D := fun _ _ => True) (hb k) (fun _ _ => trivial) rfl
  have h := (ha 0 ⟨exampleStore, []⟩).trans (ha 1 _)
  exact ⟨_, h, idempotent_of_serial ⟨rfl, by decide⟩ (by decide) .nil h⟩

-- A session that is blank is stored as it is and looked up as none, and two calls may look up an
-- event before either of them has recorded it.
theorem recorded_twice :
    (∃ s, Transition.run (Overlap.step (calls examplePlatform exampleMeter))
        (.idle ⟨exampleStore, []⟩) [.begin 0 (exampleCall (some "")), .resume 0 (),
          .begin 1 (exampleCall (some "")), .resume 1 ()] = some s ∧
      ¬Idempotent exampleMeter exampleStore (exampleCall (some "")).event s.shared) ∧
    ∃ s, Transition.run (Overlap.step (calls examplePlatform exampleMeter))
        (.idle ⟨exampleStore, []⟩) [.begin 0 (exampleCall none), .begin 1 (exampleCall none),
          .resume 0 (), .resume 1 ()] = some s ∧
      ¬Idempotent exampleMeter exampleStore (exampleCall none).event s.shared := by
  refine ⟨⟨_, rfl, fun h => ?_⟩, ⟨_, rfl, fun h => ?_⟩⟩
  all_goals
    have hm := h.once.atMost
    revert hm
    decide

end ControlPlane.Telemetry
