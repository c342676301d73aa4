import Quoodle.ControlPlane.Devices
import Quoodle.Data.Transition

-- The `scheduled_jobs` and `scheduled_job_runs` tables. Times are in seconds.
namespace ControlPlane

-- The library that reads cron expressions. It may throw an exception.
structure Cron where
  isValid : String → Bool
  isValidTimezone : String → Bool
  nextRunDate : String → String → Int → Option Int
  lt_nextRunDate : ∀ {e z now next}, nextRunDate e z now = some next → now < next

structure ScheduledJob where
  id : String
  cronExpression : String
  timezone : String
  enabled : Bool
  lastRunAt : Option Int
  nextRunAt : Option Int

inductive Trigger where
  | schedule | manual

structure ScheduledJobRun where
  jobId : String
  trigger : Trigger
  scheduledFor : Int
  startedAt : Int

structure SchedulePatch where
  cronExpression : Option String
  timezone : Option String
  enabled : Option Bool

structure Schedules where
  jobs : List ScheduledJob
  runs : List ScheduledJobRun

namespace Schedules

def find (s : Schedules) (id : String) : Option ScheduledJob :=
  Rows.find ScheduledJob.id s.jobs id

def save (s : Schedules) (job : ScheduledJob) : Schedules :=
  { s with jobs := Rows.update ScheduledJob.id s.jobs job.id fun _ => job }

def hasRun (s : Schedules) (id : String) (t : Int) : Bool :=
  s.runs.any fun r => r.jobId = id && r.scheduledFor = t

def addRun (s : Schedules) (run : ScheduledJobRun) : Schedules :=
  { s with runs := s.runs ++ [run] }

-- Models `ScheduledExecutionService::claimDueRun`, which fails if an exception is thrown.
def claimDueRun (cron : Cron) (s : Schedules) (id : String) (now : Int) : Option Schedules :=
  match s.find id with
  | none => some s
  | some job =>
    match job.nextRunAt with
    | none => some s
    | some scheduledFor =>
      if !job.enabled ∨ scheduledFor > now then some s
      else if s.hasRun job.id scheduledFor then some s
      else do
        let next ← cron.nextRunDate job.cronExpression job.timezone now
        return (s.addRun ⟨job.id, .schedule, scheduledFor, now⟩).save
          { job with lastRunAt := some now, nextRunAt := some next }

-- The first one of ten seconds that is not taken, or else the one after them.
def ensureUniqueScheduledFor (s : Schedules) (id : String) (base : Int) : Int :=
  go 10 base
where
  go : Nat → Int → Int
    | 0, candidate => candidate
    | n + 1, candidate => if s.hasRun id candidate then go n (candidate + 1) else candidate

-- Models `ScheduledExecutionService::runNow`. No two runs of a job are scheduled for the same time.
def runNow (s : Schedules) (id : String) (now : Int) : Option Schedules := do
  let job ← s.find id
  let scheduledFor := s.ensureUniqueScheduledFor id now
  guard (!s.hasRun id scheduledFor)
  return (s.addRun ⟨id, .manual, scheduledFor, now⟩).save { job with lastRunAt := some now }

def newJob (cron : Cron) (id cronExpression timezone : String) (enabled : Bool) (now : Int) :
    Option ScheduledJob := do
  let cronExpression := trim cronExpression
  let timezone := trim timezone
  guard (cron.isValid cronExpression && cron.isValidTimezone timezone)
  let nextRunAt ←
    (if enabled then (cron.nextRunDate cronExpression timezone now).map some else some none)
  return ⟨id, cronExpression, timezone, enabled, none, nextRunAt⟩

def patchJob (cron : Cron) (job : ScheduledJob) (patch : SchedulePatch) (now : Int) :
    Option ScheduledJob := do
  let cronExpression := patch.cronExpression.elim job.cronExpression trim
  let timezone := patch.timezone.elim job.timezone trim
  let enabled := patch.enabled.getD job.enabled
  guard (cron.isValid cronExpression && cron.isValidTimezone timezone)
  let scheduleChanged :=
    patch.enabled.isSome || patch.cronExpression.isSome || patch.timezone.isSome
  let nextRunAt ←
    (if !enabled then some none
    else if scheduleChanged || job.nextRunAt.all (· ≤ now) then
      (cron.nextRunDate cronExpression timezone now).map some
    else some job.nextRunAt)
  return { job with cronExpression, timezone, enabled, nextRunAt }

inductive Action where
  | store (id cronExpression timezone : String) (enabled : Bool) (now : Int)
  | update (id : String) (patch : SchedulePatch) (now : Int)
  | destroy (id : String)
  | runNow (id : String) (now : Int)
  | claim (id : String) (now : Int)

-- A request that fails changes nothing, except that identifiers are not used twice. The runs of a
-- job are deleted with it.
def step (cron : Cron) (s : Schedules) : Action → Option Schedules
  | .store id cronExpression timezone enabled now =>
    if (s.find id).isSome ∨ s.runs.any (·.jobId = id) then none
    else
      match newJob cron id cronExpression timezone enabled now with
      | some job => some { s with jobs := s.jobs ++ [job] }
      | none => some s
  | .update id patch now =>
    match (s.find id).bind (patchJob cron · patch now) with
    | some job => some (s.save job)
    | none => some s
  | .destroy id =>
    some ⟨Rows.delete ScheduledJob.id s.jobs id, Rows.delete ScheduledJobRun.jobId s.runs id⟩
  | .runNow id now => some ((s.runNow id now).getD s)
  | .claim id now => some ((s.claimDueRun cron id now).getD s)

-- Whenever a job is due and is claimed without an exception, it is due later.
def Advances (cron : Cron) (s : Schedules) : Prop :=
  ∀ id, ∀ job ∈ s.find id, job.enabled → ∀ t ∈ job.nextRunAt, ∀ now ≥ t,
    ∀ s' ∈ s.claimDueRun cron id now, ∃ job' ∈ s'.find id, ∃ t' ∈ job'.nextRunAt, now < t'

def IsOpen (s : Schedules) (id : String) : Prop :=
  ∀ job ∈ s.find id, job.enabled → ∀ t ∈ job.nextRunAt, ¬s.hasRun id t

-- A job is not run by hand at the time of its next run, and its next run is not set to the time of a
-- run that it has had.
def Apart (cron : Cron) (s : Schedules) : Action → Prop
  | .store _ _ _ _ _ => True
  | .update id patch now =>
    ∀ job ∈ s.find id, ∀ job' ∈ patchJob cron job patch now, job'.enabled →
      ∀ t ∈ job'.nextRunAt, ¬s.hasRun id t
  | .destroy _ => True
  | .runNow id now =>
    ∀ job ∈ s.find id, job.enabled → job.nextRunAt ≠ some (s.ensureUniqueScheduledFor id now)
  | .claim id now =>
    ∀ job ∈ s.find id, job.enabled → ∀ t ∈ job.nextRunAt, t ≤ now →
      ∀ next ∈ cron.nextRunDate job.cronExpression job.timezone now, ¬s.hasRun id next

variable {cron : Cron} {s s' : Schedules} {id : String} {job job' : ScheduledJob} {now : Int}

theorem id_of_find (h : s.find id = some job) : job.id = id :=
  Rows.key_of_find h

theorem find_save (h : s.find id = some job) (hi : job'.id = id) :
    (s.save job').find id = some job' := by
  rw [find] at h
  rw [save, find, Rows.find_update fun _ _ => rfl, if_pos hi, h, Option.map_some]

theorem find_save_of_ne (hi : job'.id ≠ id) : (s.save job').find id = s.find id := by
  rw [save, find, Rows.find_update fun _ _ => rfl, if_neg hi, find]

@[simp]
theorem hasRun_save (t : Int) : (s.save job).hasRun id t = s.hasRun id t :=
  rfl

@[simp]
theorem find_addRun (run : ScheduledJobRun) : (s.addRun run).find id = s.find id :=
  rfl

theorem hasRun_addRun (run : ScheduledJobRun) (t : Int) :
    (s.addRun run).hasRun id t = (s.hasRun id t || (run.jobId = id && run.scheduledFor = t)) := by
  simp [addRun, hasRun]

theorem claimDueRun_of_hasRun {t : Int} (hj : s.find id = some job) (hn : job.nextRunAt = some t)
    (hr : s.hasRun id t) : s.claimDueRun cron id now = some s := by
  simp [claimDueRun, hj, hn, id_of_find hj, hr]

theorem claimDueRun_of_not_due
    (h : ¬∃ job ∈ s.find id, job.enabled ∧ ∃ t ∈ job.nextRunAt, t ≤ now) :
    s.claimDueRun cron id now = some s := by
  unfold claimDueRun
  split
  case h_1 => rfl
  case h_2 job hj =>
    split
    case h_1 => rfl
    case h_2 t hn =>
      refine if_pos ?_
      by_contra hd
      simp only [Bool.not_eq_eq_eq_not, Bool.not_true, gt_iff_lt, not_or, Bool.not_eq_false,
        not_lt] at hd
      exact h ⟨job, hj, hd.1, t, hn, hd.2⟩

theorem claimDueRun_of_not_hasRun {t : Int} (hj : s.find id = some job) (he : job.enabled)
    (hn : job.nextRunAt = some t) (ht : t ≤ now) (hr : ¬s.hasRun id t) :
    s.claimDueRun cron id now =
      (cron.nextRunDate job.cronExpression job.timezone now).map fun next =>
        (s.addRun ⟨id, .schedule, t, now⟩).save
          { job with lastRunAt := some now, nextRunAt := some next } := by
  simp [claimDueRun, hj, hn, id_of_find hj, hr, he, ht, Option.map_eq_bind]

theorem advances_iff : s.Advances cron ↔ ∀ id, s.IsOpen id := by
  constructor
  · intro h id job hj he t hn hr
    obtain ⟨job', hj', t', hn', ht⟩ :=
      h id job hj he t hn t le_rfl s (claimDueRun_of_hasRun hj hn hr)
    cases hj.symm.trans hj'
    cases hn.symm.trans hn'
    exact lt_irrefl _ ht
  · intro h id job hj he t hn now ht s' hs
    rw [claimDueRun_of_not_hasRun hj he hn ht (h id job hj he t hn)] at hs
    obtain ⟨next, hx, rfl⟩ := Option.map_eq_some_iff.mp hs
    have hi : job.id = id := id_of_find hj
    exact ⟨_, find_save hj hi, next, rfl, cron.lt_nextRunDate hx⟩

theorem forall_isOpen_iff (id : String) (h : ∀ id, s.IsOpen id)
    (hn : ∀ id' ≠ id, s'.find id' = s.find id' ∧ ∀ t, s'.hasRun id' t = s.hasRun id' t) :
    (∀ id, s'.IsOpen id) ↔ s'.IsOpen id := by
  refine ⟨fun ho => ho id, fun ho id' => ?_⟩
  by_cases hi : id' = id
  case pos => exact hi ▸ ho
  intro job hj he t ht
  obtain ⟨hf, hr⟩ := hn id' hi
  rw [hr]
  exact h id' job (hf ▸ hj) he t ht

theorem isOpen_iff (hj : s.find id = some job) :
    s.IsOpen id ↔ (job.enabled → ∀ t ∈ job.nextRunAt, ¬s.hasRun id t) := by
  simp [IsOpen, hj]

theorem forall_isOpen_save_iff (h : ∀ id, s.IsOpen id) (hj : s.find id = some job)
    (hi : job'.id = id) :
    (∀ id, (s.save job').IsOpen id) ↔ (job'.enabled → ∀ t ∈ job'.nextRunAt, ¬s.hasRun id t) := by
  rw [forall_isOpen_iff id h fun id' hn => ⟨find_save_of_ne (hi.trans_ne hn.symm), fun _ => rfl⟩,
    isOpen_iff (find_save hj hi)]
  simp only [hasRun_save]

theorem forall_isOpen_addRun_iff (h : ∀ id, s.IsOpen id) (hj : s.find id = some job)
    (hi : job'.id = id) {r : ScheduledJobRun} (hr : r.jobId = id) :
    (∀ id, ((s.addRun r).save job').IsOpen id) ↔
      (job'.enabled → ∀ t ∈ job'.nextRunAt, ¬s.hasRun id t ∧ t ≠ r.scheduledFor) := by
  have hn : ∀ id' ≠ id, ((s.addRun r).save job').find id' = s.find id' ∧
      ∀ t, ((s.addRun r).save job').hasRun id' t = s.hasRun id' t := by
    intro id' hn
    have hne : r.jobId ≠ id' := hr.trans_ne hn.symm
    exact ⟨find_save_of_ne (hi.trans_ne hn.symm), fun t => by simp [hasRun_addRun, hne]⟩
  have hf : ((s.addRun r).save job').find id = some job' := find_save hj hi
  rw [forall_isOpen_iff id h hn, isOpen_iff hf]
  simp [hasRun_addRun, hr, ne_comm (b := r.scheduledFor)]

theorem id_of_patchJob {patch : SchedulePatch} (h : patchJob cron job patch now = some job') :
    job'.id = job.id := by
  obtain ⟨_, _, h⟩ := Option.bind_eq_some_iff.mp h
  have ⟨_, _, h⟩ := Option.bind_eq_some_iff.mp h
  cases h
  rfl

theorem id_of_newJob {e z : String} {enabled : Bool}
    (h : newJob cron id e z enabled now = some job) : job.id = id := by
  obtain ⟨_, _, h⟩ := Option.bind_eq_some_iff.mp h
  have ⟨_, _, h⟩ := Option.bind_eq_some_iff.mp h
  cases h
  rfl

theorem apart_update_iff (h : ∀ id, s.IsOpen id) {patch : SchedulePatch}
    (hs : s.step cron (.update id patch now) = some s') :
    s.Apart cron (.update id patch now) ↔ ∀ id, s'.IsOpen id := by
  simp only [step] at hs
  split at hs <;> cases hs
  case h_1 job' hp =>
    obtain ⟨job, hj, hp⟩ := Option.bind_eq_some_iff.mp hp
    rw [forall_isOpen_save_iff h hj ((id_of_patchJob hp).trans (id_of_find hj))]
    simp [Apart, hj, hp]
  case h_2 hp =>
    refine iff_of_true (fun job hj job' hj' => ?_) h
    rw [Option.mem_def.mp hj, Option.bind_some, Option.mem_def.mp hj'] at hp
    cases hp

theorem runNow_of_hasRun (hr : s.hasRun id (s.ensureUniqueScheduledFor id now)) :
    s.runNow id now = none := by
  simp [runNow, hr]

theorem runNow_of_not_hasRun (hj : s.find id = some job)
    (hr : ¬s.hasRun id (s.ensureUniqueScheduledFor id now)) :
    s.runNow id now = some ((s.addRun
      ⟨id, .manual, s.ensureUniqueScheduledFor id now, now⟩).save
        { job with lastRunAt := some now }) := by
  simp [runNow, hj, hr]

theorem apart_runNow_iff (h : ∀ id, s.IsOpen id) (hs : s.step cron (.runNow id now) = some s') :
    s.Apart cron (.runNow id now) ↔ ∀ id, s'.IsOpen id := by
  obtain rfl := Option.some.inj hs
  cases hj : s.find id
  case none => simp [Apart, hj, runNow, h]
  case some job =>
    simp only [Apart, hj, Option.mem_some_iff, forall_eq']
    by_cases hr : s.hasRun id (s.ensureUniqueScheduledFor id now)
    case pos =>
      rw [runNow_of_hasRun hr, Option.getD_none]
      exact iff_of_true (fun he hn => h id job hj he _ hn hr) h
    case neg =>
      rw [runNow_of_not_hasRun hj hr, Option.getD_some, forall_isOpen_addRun_iff h hj]
      case hi => exact (id_of_find hj :)
      case hr => rfl
      constructor
      · refine fun ha he t ht => ⟨h id job hj he t ht, ?_⟩
        rintro rfl
        exact ha he ht
      · exact fun ho he hn => (ho he _ hn).2 rfl

theorem apart_claim_iff (h : ∀ id, s.IsOpen id) (hs : s.step cron (.claim id now) = some s') :
    s.Apart cron (.claim id now) ↔ ∀ id, s'.IsOpen id := by
  obtain rfl := Option.some.inj hs
  by_cases hd : ∃ job ∈ s.find id, job.enabled ∧ ∃ t ∈ job.nextRunAt, t ≤ now
  case pos =>
    obtain ⟨job, hj, he, t, hn, ht⟩ := hd
    rw [claimDueRun_of_not_hasRun hj he hn ht (h id job hj he t hn)]
    have ha : s.Apart cron (.claim id now) ↔
        ∀ next ∈ cron.nextRunDate job.cronExpression job.timezone now, ¬s.hasRun id next := by
      simp [Apart, Option.mem_def.mp hj, Option.mem_def.mp hn, he, ht]
    rw [ha]
    cases hx : cron.nextRunDate job.cronExpression job.timezone now
    case none => simpa using h
    case some next =>
      rw [Option.map_some, Option.getD_some, forall_isOpen_addRun_iff h hj]
      case hi => exact (id_of_find hj :)
      case hr => rfl
      have hne : next ≠ t := (ht.trans_lt (cron.lt_nextRunDate hx)).ne'
      simp [he, hne]
  case neg =>
    rw [claimDueRun_of_not_due hd, Option.getD_some]
    exact iff_of_true (fun job hj he t hn ht => absurd ⟨job, hj, he, t, hn, ht⟩ hd) h

theorem isOpen_store (h : ∀ id, s.IsOpen id) {e z : String} {enabled : Bool}
    (hs : s.step cron (.store id e z enabled now) = some s') : ∀ id, s'.IsOpen id := by
  simp only [step, Option.ite_none_left_eq_some, not_or] at hs
  obtain ⟨⟨hf, hr⟩, hs⟩ := hs
  split at hs <;> cases hs
  case h_1 job hn =>
    -- No run of the new job exists, and the other jobs are as they were.
    have hi : job.id = id := id_of_newJob hn
    refine (forall_isOpen_iff id h fun id' hne => ?_).mpr fun _ _ _ t _ ht => ?_
    · have hf : Rows.find ScheduledJob.id [job] id' = none := by
        simp [Rows.find, hi, hne.symm]
      exact ⟨by rw [find, Rows.find_append, hf, Option.or_none, find], fun _ => rfl⟩
    · obtain ⟨r, hm, ht⟩ := List.any_eq_true.mp ht
      simp only [Bool.and_eq_true, decide_eq_true_eq] at ht
      exact hr (List.any_eq_true.mpr ⟨r, hm, by simpa using ht.1⟩)
  case h_2 => exact h

theorem isOpen_destroy (h : ∀ id, s.IsOpen id) (hs : s.step cron (.destroy id) = some s') :
    ∀ id, s'.IsOpen id := by
  obtain rfl := Option.some.inj hs
  refine (forall_isOpen_iff id h fun id' hn => ⟨?_, fun t => ?_⟩).mpr fun job hj => ?_
  · rw [find, Rows.find_delete, if_neg hn.symm, find]
  · simp only [hasRun, Rows.delete, List.any_filter]
    congr 1
    funext r
    by_cases hr : r.jobId = id' <;> simp [hr, hn]
  · rw [find, Rows.find_delete, if_pos rfl] at hj
    cases hj

theorem apart_iff {a : Action} (h : ∀ id, s.IsOpen id) (hs : s.step cron a = some s') :
    s.Apart cron a ↔ ∀ id, s'.IsOpen id := by
  cases a
  case store => exact iff_of_true trivial (isOpen_store h hs)
  case update => exact apart_update_iff h hs
  case destroy => exact iff_of_true trivial (isOpen_destroy h hs)
  case runNow => exact apart_runNow_iff h hs
  case claim => exact apart_claim_iff h hs

-- A claim always advances a job that is due exactly in the histories in which no job is given a run
-- at the time that is its next one.
theorem forall_advances_iff_apart {as : List Action}
    (hr : Transition.run (step cron) ⟨[], []⟩ as = some s) :
    (∀ before after s₁, as = before ++ after →
        Transition.run (step cron) ⟨[], []⟩ before = some s₁ → s₁.Advances cron) ↔
      Transition.Steps (step cron) (Apart cron) ⟨[], []⟩ as s := by
  simp only [advances_iff]
  refine (Transition.Steps.iff_forall_run (I := fun s => ∀ id, s.IsOpen id) apart_iff ?_ hr).symm
  intro id job hj
  cases hj

instance (s : Schedules) : DecidablePred (Apart cron s)
  | .store _ _ _ _ _ | .destroy _ => isTrue trivial
  | .update id patch now => inferInstanceAs <| Decidable <|
    ∀ job ∈ s.find id, ∀ job' ∈ patchJob cron job patch now, job'.enabled →
      ∀ t ∈ job'.nextRunAt, ¬s.hasRun id t
  | .runNow id now => inferInstanceAs <| Decidable <|
    ∀ job ∈ s.find id, job.enabled → job.nextRunAt ≠ some (s.ensureUniqueScheduledFor id now)
  | .claim id now => inferInstanceAs <| Decidable <|
    ∀ job ∈ s.find id, job.enabled → ∀ t ∈ job.nextRunAt, t ≤ now →
      ∀ next ∈ cron.nextRunDate job.cronExpression job.timezone now, ¬s.hasRun id next

def everyMinute : Cron where
  isValid _ := true
  isValidTimezone _ := true
  nextRunDate _ _ now := some (now - now % 60 + 60)
  lt_nextRunDate h := by
    cases h
    omega

def backup : Action :=
  .store "backup" "* * * * *" "UTC" true 0

theorem forall_advances_backup :
    ∃ s, Transition.run (step everyMinute) ⟨[], []⟩
        [backup, .runNow "backup" 30, .claim "backup" 60] = some s ∧
      ∀ before after s₁, [backup, .runNow "backup" 30, .claim "backup" 60] = before ++ after →
        Transition.run (step everyMinute) ⟨[], []⟩ before = some s₁ → s₁.Advances everyMinute :=
  ⟨_, rfl, (forall_advances_iff_apart rfl).mpr (.of_run rfl)⟩

-- A job that is run by hand when it is due, is not claimed then or later.
theorem claimed_without_advance :
    ∃ s job, Transition.run (step everyMinute) ⟨[], []⟩ [backup, .runNow "backup" 60] = some s ∧
      s.find "backup" = some job ∧ job.enabled ∧ job.nextRunAt = some 60 ∧
      s.claimDueRun everyMinute "backup" 60 = some s ∧
      s.claimDueRun everyMinute "backup" 3600 = some s :=
  ⟨_, _, rfl, rfl, rfl, rfl, rfl, rfl⟩

end Schedules

end ControlPlane
