import Quoodle.Data.Overlap
import Quoodle.ControlPlane.Scheduling

-- The runs of scheduled jobs: how they are claimed and dispatched to devices, and what becomes of
-- them. Any number of schedulers, manual triggers and reconciliations go on at the same time.
namespace ControlPlane.ScheduledRuns

inductive RunStatus where
  | pending | running | success | failed
  deriving DecidableEq

inductive ItemStatus where
  | pending | running | success | failed
  deriving DecidableEq

inductive Outcome where
  | success | failed | running
  deriving DecidableEq

structure Run extends ScheduledJobRun where
  id : String
  status : RunStatus
  totalTargets : Nat
  dispatchedCount : Nat
  failedCount : Nat
  errorMessage : Option String

-- What is written to a row that was loaded before and has been changed since. Columns that are set
-- to what they were are not written.
def Run.save (loaded changed current : Run) : Run :=
  { current with
    status := Rows.merge loaded.status changed.status current.status
    totalTargets := Rows.merge loaded.totalTargets changed.totalTargets current.totalTargets
    dispatchedCount :=
      Rows.merge loaded.dispatchedCount changed.dispatchedCount current.dispatchedCount
    failedCount := Rows.merge loaded.failedCount changed.failedCount current.failedCount
    errorMessage := Rows.merge loaded.errorMessage changed.errorMessage current.errorMessage }

structure Item where
  runId : String
  deviceId : String
  commandId : Option String
  status : ItemStatus

def Item.key (item : Item) : String × String :=
  (item.runId, item.deviceId)

structure JobCommand where
  id : String
  clientMessageId : String
  deviceId : String
  state : String
  executionState : Option String

def JobCommand.key (c : JobCommand) : String × String :=
  (c.clientMessageId, c.deviceId)

-- The texts that the identifiers of messages are made of.
structure Texts where
  iso8601 : Int → String
  sha256 : String → String

@[irreducible]
def deterministicClientMessageId (txt : Texts) (jobId : String) (scheduledFor : Int)
    (deviceId : String) : String :=
  "sched-" ++ txt.sha256 (jobId ++ "|" ++ txt.iso8601 scheduledFor ++ "|" ++ deviceId)

-- The devices are taken once each, in the order in which they come first.
def uniqueDeviceIds (deviceIds : List String) : List String :=
  deviceIds.foldl (fun ids id => if id ∈ ids then ids else ids ++ [id]) []

structure Board where
  jobs : List ScheduledJob
  runs : List Run
  items : List Item
  commands : List JobCommand
  -- The jobs, times and devices for which a command was created.
  created : List (String × Int × String)

namespace Board

variable (b : Board)

def run (id : String) : Option Run :=
  Rows.find Run.id b.runs id

def command (id : String) : Option JobCommand :=
  Rows.find JobCommand.id b.commands id

def itemsOf (runId : String) : List Item :=
  b.items.filter (·.runId = runId)

def updateRun (id : String) (f : Run → Run) : Board :=
  { b with runs := Rows.update Run.id b.runs id f }

def saveRun (loaded changed : Run) : Board :=
  b.updateRun loaded.id (loaded.save changed)

def updateItem (runId deviceId : String) (f : Item → Item) : Board :=
  { b with items := Rows.update Item.key b.items (runId, deviceId) f }

def schedules : Schedules :=
  ⟨b.jobs, b.runs.map Run.toScheduledJobRun⟩

def register (s : Schedules) (id : String) : Option (Board × Run) := do
  let r ← (s.runs.drop b.runs.length).head?
  guard (b.run id).isNone
  let run : Run := ⟨r, id, .running, 0, 0, 0, none⟩
  return ({ b with jobs := s.jobs, runs := b.runs ++ [run] }, run)

end Board

structure Dispatch where
  run : Run
  -- Whether an exception is caught by the caller, which is `dispatchDueJobs` then.
  caught : Bool
  total : Nat
  remaining : List String
  accepted : Nat
  failed : Nat

def Dispatch.messageId (txt : Texts) (d : Dispatch) (deviceId : String) : String :=
  deterministicClientMessageId txt d.run.jobId d.run.scheduledFor deviceId

inductive Task where
  | claimed (runId : String) (caught : Bool)
  | items (d : Dispatch)
  -- `enqueue` for a device, before and after it has looked for an existing command.
  | lookup (d : Dispatch) (deviceId : String)
  | create (d : Dispatch) (deviceId : String)
  -- The command that was accepted, or the reason for which there is none.
  | record (d : Dispatch) (deviceId : String) (result : Option String)
  | reconcile (runs : List Run)
  | write (run : Run) (entries : List (Item × Option JobCommand)) (runs : List Run)

inductive Call where
  | claim (jobId : String) (now : Int) (runId : String)
  | runNow (jobId : String) (now : Int) (runId : String)
  -- `dispatchRunItems` for a run that there is already.
  | again (runId : String)
  | reconcile (limit : Nat)

-- What `enqueue` does for a command that it has not found.
inductive Verdict where
  | refuse
  | create (id : String)
  -- There is an exception, possibly after the command was created.
  | throws (created : Option String)

inductive Input where
  -- The devices that are found, and why the method cannot be scheduled.
  | targets (deviceIds : List String) (reason : Option String)
  | verdict (v : Verdict)
  | next

inductive Change where
  | command (id : String) (state : String) (executionState : Option String)
  | other (c : JobCommand)
  | jobs (jobs : List ScheduledJob)

section Source

variable (cron : Cron) (txt : Texts)

def startRun (b : Board) (s : Option Schedules) (runId : String) (caught : Bool) :
    Board × Option Task :=
  match s.bind (b.register · runId) with
  | none => (b, none)
  | some (b, run) => (b, some (.claimed run.id caught))

-- The runs that are looked at, the oldest first.
def openRuns (b : Board) (limit : Nat) : List Run :=
  ((b.runs.filter fun r => r.status = .pending ∨ r.status = .running).insertionSort
    fun r r' => r.startedAt ≤ r'.startedAt).take (max 1 (min limit 1000))

def begin (b : Board) : Call → Board × Option Task
  | .claim jobId now runId => startRun b (b.schedules.claimDueRun cron jobId now) runId true
  | .runNow jobId now runId => startRun b (b.schedules.runNow jobId now) runId false
  | .again runId => (b, some (.claimed runId false))
  | .reconcile limit => (b, some (.reconcile (openRuns b limit)))

def Run.fail (r : Run) (reason : String) (total failed : Nat) : Run :=
  { r with status := .failed, errorMessage := some reason, totalTargets := total,
           dispatchedCount := 0, failedCount := failed }

def startItems (b : Board) (run : Run) (caught : Bool) (deviceIds : List String)
    (reason : Option String) : Board × Option Task :=
  let ids := uniqueDeviceIds deviceIds
  if ids = [] then (b.saveRun run (run.fail "no_target_devices" 0 0), none)
  else
    match reason with
    | some reason => (b.saveRun run (run.fail reason ids.length ids.length), none)
    | none => (b, some (.items ⟨run, caught, ids.length, ids, 0, 0⟩))

def Dispatch.finished (d : Dispatch) : Run :=
  { d.run with
    status := if d.accepted > 0 then .running else .failed
    totalTargets := d.total
    dispatchedCount := d.accepted
    failedCount := d.failed
    errorMessage := if d.accepted > 0 then none else some "all_dispatches_failed" }

def nextItem (b : Board) (d : Dispatch) : Board × Option Task :=
  match d.remaining with
  | [] => (b.saveRun d.run d.finished, none)
  | id :: rest =>
    let d := { d with remaining := rest }
    if b.items.any (·.key = (d.run.id, id)) then (b, some (.items d))
    else ({ b with items := b.items ++ [⟨d.run.id, id, none, .pending⟩] }, some (.lookup d id))

def interrupt (b : Board) (d : Dispatch) : Board × Option Task :=
  if d.caught then
    (b.updateRun d.run.id fun r =>
      { r with status := .failed, errorMessage := some "dispatch_exception" }, none)
  else (b, none)

def lookupCommand (b : Board) (d : Dispatch) (deviceId : String) : Board × Option Task :=
  match b.commands.find? (·.key = (d.messageId txt deviceId, deviceId)) with
  | some c => (b, some (.record d deviceId (some c.id)))
  | none => (b, some (.create d deviceId))

def Board.insert (b : Board) (c : JobCommand) : Option Board :=
  if b.commands.any (fun c' => c'.key = c.key ∨ c'.id = c.id) then none
  else some { b with commands := b.commands ++ [c] }

def Board.createCommand (b : Board) (d : Dispatch) (deviceId id : String) : Option Board :=
  (b.insert ⟨id, d.messageId txt deviceId, deviceId, "queued", some "queued"⟩).map fun b =>
    { b with created := b.created ++ [(d.run.jobId, d.run.scheduledFor, deviceId)] }

def enqueue (b : Board) (d : Dispatch) (deviceId : String) : Verdict → Board × Option Task
  | .refuse => (b, some (.record d deviceId none))
  | .create id =>
    match b.createCommand txt d deviceId id with
    | some b => (b, some (.record d deviceId (some id)))
    | none => interrupt b d
  | .throws none => interrupt b d
  | .throws (some id) => interrupt ((b.createCommand txt d deviceId id).getD b) d

def recordItem (b : Board) (d : Dispatch) (deviceId : String) :
    Option String → Board × Option Task
  | some id =>
    (b.updateItem d.run.id deviceId fun i => { i with status := .running, commandId := some id },
      some (.items { d with accepted := d.accepted + 1 }))
  | none =>
    (b.updateItem d.run.id deviceId fun i => { i with status := .failed },
      some (.items { d with failed := d.failed + 1 }))

-- The strings that count as false are skipped.
def JobCommand.effectiveState (c : JobCommand) : String :=
  (orElse c.executionState (orElse (some c.state) none)).getD "queued"

def JobCommand.outcome (c : JobCommand) : Outcome :=
  if c.effectiveState = "completed" then .success
  else if c.effectiveState ∈ ["failed", "expired", "rejected"] then .failed
  else .running

def deriveItemState (item : Item) (command : Option JobCommand) : Outcome :=
  match command with
  | some c => c.outcome
  | none => if item.status = .failed then .failed else .running

def Board.entries (b : Board) (runId : String) : List (Item × Option JobCommand) :=
  (b.itemsOf runId).map fun i => (i, i.commandId.bind b.command)

def readRun (b : Board) (run : Run) (runs : List Run) : Board × Option Task :=
  if b.entries run.id = [] then (b, some (.reconcile runs))
  else (b, some (.write run (b.entries run.id) runs))

def Outcome.status : Outcome → ItemStatus
  | .success => .success
  | .failed => .failed
  | .running => .running

def count (o : Outcome) (entries : List (Item × Option JobCommand)) : Nat :=
  entries.countP fun e => deriveItemState e.1 e.2 = o

def nextRunStatus (entries : List (Item × Option JobCommand)) : RunStatus :=
  if count .running entries > 0 then .running
  else if count .failed entries > 0 then .failed
  else .success

-- The update of an item that was loaded before.
def refresh (entries : List (Item × Option JobCommand)) (i : Item) : Item :=
  match entries.find? (·.1.key = i.key) with
  | some e => { i with status := Rows.merge e.1.status (deriveItemState e.1 e.2).status i.status }
  | none => i

def writeItems (b : Board) (entries : List (Item × Option JobCommand)) : Board :=
  { b with items := b.items.map (refresh entries) }

def Run.reconciled (r : Run) (entries : List (Item × Option JobCommand)) : Run :=
  { r with
    status := nextRunStatus entries
    totalTargets := count .success entries + count .failed entries + count .running entries
    dispatchedCount := count .success entries + count .running entries
    failedCount := count .failed entries }

def resume (b : Board) (t : Task) (i : Input) : Board × Option Task :=
  match t, i with
  | .claimed id caught, .targets deviceIds reason =>
    match b.run id with
    | some run => startItems b run caught deviceIds reason
    | none => (b, none)
  | .items d, .next => nextItem b d
  | .lookup d deviceId, .next => lookupCommand txt b d deviceId
  | .create d deviceId, .verdict v => enqueue txt b d deviceId v
  | .record d deviceId result, .next => recordItem b d deviceId result
  | .reconcile [], .next => (b, none)
  | .reconcile (run :: runs), .next => readRun b run runs
  | .write run entries runs, .next =>
    ((writeItems b entries).saveRun run (run.reconciled entries), some (.reconcile runs))
  | t, _ => (b, some t)

def change (b : Board) : Change → Board
  | .command id state executionState =>
    { b with commands := Rows.update JobCommand.id b.commands id fun c =>
      { c with state := state, executionState := executionState } }
  | .other c => (b.insert c).getD b
  | .jobs jobs => { b with jobs := jobs }

def system : Overlap.System Board Task Call Input Change :=
  ⟨begin cron, resume txt, change⟩

end Source

section Targets

theorem nodup_foldl_insert {ids seen : List String} (h : seen.Nodup) :
    (ids.foldl (fun ids id => if id ∈ ids then ids else ids ++ [id]) seen).Nodup := by
  induction ids generalizing seen
  case nil => exact h
  case cons id ids hi =>
    rw [List.foldl_cons]
    split
    case isTrue => exact hi h
    case isFalse hn => exact hi (Rows.nodup_append_singleton hn h)

theorem nodup_uniqueDeviceIds (deviceIds : List String) : (uniqueDeviceIds deviceIds).Nodup :=
  nodup_foldl_insert List.nodup_nil

end Targets

structure Once (txt : Texts) (b : Board) : Prop where
  keys : (b.commands.map JobCommand.key).Nodup
  nodup : b.created.Nodup
  created : ∀ e ∈ b.created,
    (deterministicClientMessageId txt e.1 e.2.1 e.2.2, e.2.2) ∈ b.commands.map JobCommand.key

section Once

variable {cron : Cron} {txt : Texts} {b b' : Board} {d : Dispatch} {deviceId id : String}

theorem insert_eq_some {c : JobCommand} (h : b.insert c = some b') :
    c.key ∉ b.commands.map JobCommand.key ∧ b' = { b with commands := b.commands ++ [c] } := by
  obtain ⟨hn, h⟩ := Option.ite_none_left_eq_some.mp h
  refine ⟨fun hm => hn ?_, (Option.some.inj h).symm⟩
  obtain ⟨c', hc, hk⟩ := List.mem_map.mp hm
  exact List.any_eq_true.mpr ⟨c', hc, by simp [hk]⟩

theorem Once.of_eq (h : Once txt b) (hc : b'.commands = b.commands)
    (hr : b'.created = b.created) : Once txt b' :=
  ⟨hc ▸ h.keys, hr ▸ h.nodup, hc ▸ hr ▸ h.created⟩

theorem Once.insert {c : JobCommand} (h : Once txt b) (hc : b.insert c = some b') :
    Once txt b' := by
  obtain ⟨hn, rfl⟩ := insert_eq_some hc
  refine ⟨?_, h.nodup, fun e he => ?_⟩
  · rw [List.map_append]
    exact Rows.nodup_append_singleton hn h.keys
  · rw [List.map_append]
    exact List.mem_append_left _ (h.created e he)

theorem Once.createCommand (h : Once txt b) (hc : b.createCommand txt d deviceId id = some b') :
    Once txt b' := by
  obtain ⟨b'', hi, rfl⟩ := Option.map_eq_some_iff.mp hc
  have ho := h.insert hi
  obtain ⟨hn, rfl⟩ := insert_eq_some hi
  rw [JobCommand.key, Dispatch.messageId] at hn
  refine ⟨ho.keys, ?_, fun e he => ?_⟩
  · exact Rows.nodup_append_singleton (fun hm => hn (h.created _ hm)) h.nodup
  · cases List.mem_append.mp he
    case inl he => exact ho.created e he
    case inr he =>
      obtain rfl := List.mem_singleton.mp he
      rw [List.map_append]
      exact List.mem_append_right _ (List.mem_singleton.mpr rfl)

theorem once_begin (h : Once txt b) (c : Call) : Once txt (begin cron b c).1 := by
  have hs {s : Option Schedules} {runId : String} {caught : Bool} :
      Once txt (startRun b s runId caught).1 := by
    unfold startRun
    split
    case h_1 => exact h
    case h_2 hr =>
      simp only [Board.register, Option.bind_eq_bind, Option.bind_eq_some_iff, Option.pure_def,
        Option.some.injEq, Prod.mk.injEq] at hr
      obtain ⟨_, _, _, _, _, _, rfl, _⟩ := hr
      exact h.of_eq rfl rfl
  cases c
  case claim => exact hs
  case runNow => exact hs
  case again => exact h
  case reconcile => exact h

theorem once_interrupt (h : Once txt b) (d : Dispatch) : Once txt (interrupt b d).1 := by
  unfold interrupt
  split <;> exact h.of_eq rfl rfl

theorem once_enqueue (h : Once txt b) (d : Dispatch) (deviceId : String) (v : Verdict) :
    Once txt (enqueue txt b d deviceId v).1 := by
  cases v
  case refuse => exact h
  case create id =>
    simp only [enqueue]
    split
    case h_1 hc => exact h.createCommand hc
    case h_2 => exact once_interrupt h d
  case throws created =>
    cases created
    case none => exact once_interrupt h d
    case some id =>
      refine once_interrupt ?_ d
      cases hc : b.createCommand txt d deviceId id
      case none => exact h
      case some b => exact h.createCommand hc

theorem once_resume (h : Once txt b) (t : Task) (i : Input) : Once txt (resume txt b t i).1 := by
  unfold resume
  split
  case h_1 =>
    split
    case h_1 =>
      unfold startItems
      dsimp only
      split
      case isTrue => exact h.of_eq rfl rfl
      case isFalse => split <;> exact h.of_eq rfl rfl
    case h_2 => exact h
  case h_2 =>
    unfold nextItem
    split
    case h_1 => exact h.of_eq rfl rfl
    case h_2 => dsimp only; split <;> exact h.of_eq rfl rfl
  case h_3 =>
    unfold lookupCommand
    split <;> exact h
  case h_4 => exact once_enqueue h _ _ _
  case h_5 result =>
    cases result <;> exact h.of_eq rfl rfl
  case h_6 => exact h
  case h_7 =>
    unfold readRun
    split <;> exact h
  case h_8 => exact h.of_eq rfl rfl
  case h_9 => exact h

theorem once_change (h : Once txt b) (c : Change) : Once txt (change b c) := by
  cases c
  case command id state executionState =>
    have hk : (change b (.command id state executionState)).commands.map JobCommand.key =
        b.commands.map JobCommand.key := Rows.map_update fun _ => rfl
    exact ⟨hk ▸ h.keys, h.nodup, fun e he => hk ▸ h.created e he⟩
  case other c =>
    simp only [change]
    cases hc : b.insert c
    case none => exact h
    case some b => exact h.insert hc
  case jobs => exact h.of_eq rfl rfl

theorem once_step {s s' : Overlap.State Board Task} {a : Overlap.Action Call Input Change}
    (h : Once txt s.shared) (hs : Overlap.step (system cron txt) s a = some s') :
    Once txt s'.shared := by
  cases a
  case begin k c =>
    obtain ⟨_, rfl⟩ := Overlap.step_begin hs
    exact once_begin h c
  case resume k i =>
    obtain ⟨t, _, rfl⟩ := Overlap.step_resume hs
    exact once_resume h t i
  case fail k =>
    obtain rfl := Overlap.step_fail hs
    exact h
  case change c =>
    obtain rfl := Overlap.step_change hs
    exact once_change h c

end Once

-- However the calls overlap, no two commands are created for the same job, time and device, and no
-- device is among the targets of a run twice.
theorem created_once (cron : Cron) (txt : Texts) (jobs : List ScheduledJob)
    (as : List (Overlap.Action Call Input Change)) (s : Overlap.State Board Task)
    (h : Transition.run (Overlap.step (system cron txt)) (.idle ⟨jobs, [], [], [], []⟩) as = some s) :
    s.shared.created.Nodup ∧
      (∀ jobId scheduledFor deviceId, (s.shared.commands.map JobCommand.key).count
        (deterministicClientMessageId txt jobId scheduledFor deviceId, deviceId) ≤ 1) ∧
      ∀ deviceIds, (uniqueDeviceIds deviceIds).Nodup := by
  have hi : Once txt (Overlap.State.idle ⟨jobs, [], [], [], []⟩ : Overlap.State Board Task).shared :=
    ⟨List.nodup_nil, List.nodup_nil, nofun⟩
  have ho := Transition.run_invariant (I := fun s => Once txt s.shared) once_step h hi
  exact ⟨ho.nodup, fun _ _ _ => List.nodup_iff_count_le_one.mp ho.keys _, nodup_uniqueDeviceIds⟩

def exampleTexts : Texts :=
  ⟨fun t => String.ofList (Nat.toDigits 10 t.toNat), id⟩

def backupJob : ScheduledJob :=
  ⟨"backup", "* * * * *", "UTC", true, none, some 60⟩

-- Two schedulers find the job due at the same time, and the run that one of them claims is
-- dispatched a second time, to a list of devices that has one of them twice.
def twiceDispatched : List (Overlap.Action Call Input Change) := [
  .begin 0 (.claim "backup" 60 "run-1"), .begin 1 (.claim "backup" 60 "run-2"),
  .begin 2 (.again "run-1"),
  .resume 0 (.targets ["dev-1"] none), .resume 2 (.targets ["dev-1", "dev-2", "dev-1"] none),
  .resume 0 .next, .resume 2 .next, .resume 2 .next, .resume 0 .next, .resume 2 .next,
  .resume 0 (.verdict (.create "c-1")), .resume 2 (.verdict (.create "c-2"))
]

theorem created_once_twice_dispatched :
    ∃ s, Transition.run (Overlap.step (system Schedules.everyMinute exampleTexts))
        (.idle ⟨[backupJob], [], [], [], []⟩) twiceDispatched = some s ∧
      s.shared.created = [("backup", 60, "dev-1"), ("backup", 60, "dev-2")] ∧
      s.shared.created.Nodup := by
  have h : (Transition.run (Overlap.step (system Schedules.everyMinute exampleTexts))
      (.idle ⟨[backupJob], [], [], [], []⟩) twiceDispatched).any
        (·.shared.created = [("backup", 60, "dev-1"), ("backup", 60, "dev-2")]) := by
    decide +kernel
  obtain ⟨s, hs, hc⟩ := Transition.exists_of_any h
  exact ⟨s, hs, hc, (created_once _ _ _ _ s hs).left⟩

end ControlPlane.ScheduledRuns
