import Quoodle.ControlPlane.Commands
import Quoodle.Gateway.Reports

-- The way of an agent's report from its websocket to the `commands` table.
namespace ControlPlane

open Gateway (Value WebhookEvent Session Checks)

-- What the framework makes of the values in a request.
structure Framework (ρ : Type) where
  -- Strings are trimmed, and nothing is left of empty ones.
  clean : String → Option String
  toInteger : Value → Option Int
  parseTime : String → Option Int
  encode : Value → ρ

namespace Framework

variable {ρ : Type} (fw : Framework ρ)

def requiredString (v : Value) : Option String :=
  match v.json with
  | .str s => fw.clean s
  | _ => none

def nullableString (data : Value) (field : String) : Option (Option String) :=
  match (data.getItem field).map Value.json with
  | none | some .null => some none
  | some (.str s) => some (fw.clean s)
  | _ => none

def nullableInteger (data : Value) (field : String) : Option (Option Int) :=
  match data.getItem field with
  | none => some none
  | some v => if v.json matches .null then some none else (fw.toInteger v).map some

-- The rules `required` and `array`. Dictionaries become arrays, and empty arrays count as missing.
def requiredArray (data : Value) (field : String) : Option ρ := do
  let v ← data.getItem field
  match v.json with
  | .arr (_ :: _) | .obj (_ :: _) => some (fw.encode v)
  | _ => none

def validateResult (data : Value) : Option (ResultData ρ) := do
  return {
    commandId := ← (data.getItem "command_id").bind fw.requiredString
    deviceId := ← (data.getItem "device_id").bind fw.requiredString
    traceId := ← (data.getItem "trace_id").bind fw.requiredString
    executionState := ← (data.getItem "execution_state").bind fw.requiredString
    result := ← fw.requiredArray data "result"
    errorCode := ← fw.nullableInteger data "error_code"
    errorMessage := ← fw.nullableString data "error_message"
    timestamp := fw.parseTime (← (data.getItem "timestamp").bind fw.requiredString)
  }

def validateAck (data : Value) : Option AckData := do
  return {
    commandId := ← (data.getItem "command_id").bind fw.requiredString
    deviceId := ← (data.getItem "device_id").bind fw.requiredString
    status := ← (data.getItem "status").bind fw.requiredString
    reason := ← fw.nullableString data "reason"
    timestamp := fw.parseTime (← (data.getItem "timestamp").bind fw.requiredString)
  }

def read (commands : List (Command ρ)) (isDuplicate : Bool) :
    WebhookEvent → Option (String × Task ρ)
  | .commandResult data => do
    let d ← fw.validateResult data
    let command ← commands.find? (·.id = d.commandId)
    return (command.id, ← commandResultStore d isDuplicate command)
  | .commandAck data => do
    let d ← fw.validateAck data
    let command ← commands.find? (·.id = d.commandId)
    return (command.id, ← commandAckStore d isDuplicate command)

def eventCommand (event : WebhookEvent) : Option String :=
  (event.data.getItem "command_id").bind fw.requiredString

def reportedCommand (message : Value) : Option String :=
  (Gateway.commandMessageId message).bind fw.requiredString

end Framework

-- One session of a device and everything that it can set off. Webhooks are kept in the outbox, from
-- which they are delivered any number of times and in any order.
structure World (ρ : Type) where
  session : Session
  outbox : List WebhookEvent
  commands : List (Command ρ)
  tasks : List (String × Task ρ)

namespace World

inductive Action where
  | receive (message : Value)
  | deliver (i : Nat) (isDuplicate : Bool)
  | write (i : Nat)

variable {ρ : Type}

def writeTo [DecidableEq ρ] (id : String) (t : Task ρ) (commands : List (Command ρ)) :
    List (Command ρ) :=
  commands.map fun c => if c.id = id then t.write ⟨none, none⟩ 0 c else c

def step [DecidableEq ρ] (fw : Framework ρ) (checks : Checks) (w : World ρ) :
    Action → Option (World ρ)
  | .receive message =>
    let result := w.session.receive checks message
    some { w with session := result.1, outbox := w.outbox ++ result.2 }
  | .deliver i isDuplicate =>
    w.outbox[i]?.map fun event =>
      match fw.read w.commands isDuplicate event with
      | some t => { w with tasks := w.tasks ++ [t] }
      | none => w
  | .write i =>
    w.tasks[i]?.map fun t =>
      { w with commands := writeTo t.1 t.2 w.commands, tasks := w.tasks.eraseIdx i }

def others (w : World ρ) (deviceId : String) : List (Command ρ) :=
  w.commands.filter (·.deviceId ≠ deviceId)

-- All rows with this key belong to the device.
def Owns (deviceId : String) (commands : List (Command ρ)) (id : String) : Prop :=
  ∀ c ∈ commands, c.id = id → c.deviceId = deviceId

def Honest (fw : Framework ρ) (w : World ρ) : Action → Prop
  | .receive message =>
    ∀ id ∈ fw.reportedCommand message, Owns w.session.deviceId w.commands id
  | _ => True

-- Nothing that is under way in a session of the device is about the command of another one.
structure Confined (fw : Framework ρ) (deviceId : String) (w : World ρ) : Prop where
  session : w.session.deviceId = deviceId
  outbox : ∀ e ∈ w.outbox, ∀ id ∈ fw.eventCommand e, Owns deviceId w.commands id
  tasks : ∀ t ∈ w.tasks, Owns deviceId w.commands t.1

end World

namespace Framework

variable {ρ : Type} {fw : Framework ρ} {e : WebhookEvent}

theorem eventCommand_of_mem_receive {checks : Checks} {s : Session} {message : Value}
    (h : e ∈ (s.receive checks message).2) : fw.eventCommand e = fw.reportedCommand message := by
  rw [eventCommand, Session.getItem_of_mem_receive h, reportedCommand]

theorem commandId_of_validateResult {data : Value} {d : ResultData ρ}
    (h : fw.validateResult data = some d) :
    (data.getItem "command_id").bind fw.requiredString = some d.commandId := by
  simp only [validateResult, bind, Option.bind_eq_some_iff] at h
  obtain ⟨id, hi, _, _, _, _, _, _, _, _, _, _, _, _, _, _, h⟩ := h
  cases h
  exact Option.bind_eq_some_iff.mpr hi

theorem commandId_of_validateAck {data : Value} {d : AckData} (h : fw.validateAck data = some d) :
    (data.getItem "command_id").bind fw.requiredString = some d.commandId := by
  simp only [validateAck, bind, Option.bind_eq_some_iff] at h
  obtain ⟨id, hi, _, _, _, _, _, _, _, _, h⟩ := h
  cases h
  exact Option.bind_eq_some_iff.mpr hi

theorem eventCommand_of_read {commands : List (Command ρ)} {isDuplicate : Bool}
    {t : String × Task ρ} (h : fw.read commands isDuplicate e = some t) :
    fw.eventCommand e = some t.1 := by
  have hf {id : String} {c : Command ρ} (h : commands.find? (·.id = id) = some c) : c.id = id := by
    simpa using List.find?_some h
  cases e <;> simp only [read, bind, Option.bind_eq_some_iff] at h
  case commandResult data =>
    obtain ⟨d, hd, c, hc, _, _, he⟩ := h
    cases he
    exact (commandId_of_validateResult hd).trans (congrArg some (hf hc).symm)
  case commandAck data =>
    obtain ⟨d, hd, c, hc, _, _, he⟩ := h
    cases he
    exact (commandId_of_validateAck hd).trans (congrArg some (hf hc).symm)

end Framework

theorem Task.id_write {ρ : Type} [DecidableEq ρ] (t : Task ρ) (response : DispatchResponse)
    (now : Int) (row : Command ρ) : (t.write response now row).id = row.id := by
  cases t
  case acknowledge reason =>
    simp only [Task.write, Command.acknowledged]
    split <;> rfl
  all_goals rfl

theorem Task.deviceId_write {ρ : Type} [DecidableEq ρ] (t : Task ρ) (response : DispatchResponse)
    (now : Int) (row : Command ρ) : (t.write response now row).deviceId = row.deviceId := by
  cases t
  case acknowledge reason =>
    simp only [Task.write, Command.acknowledged]
    split <;> rfl
  all_goals rfl

namespace World

variable {ρ : Type} [DecidableEq ρ] {fw : Framework ρ} {checks : Checks} {w w' : World ρ}
variable {a : Action} {commands : List (Command ρ)}

theorem owns_writeTo {deviceId id id' : String} {t : Task ρ}
    (h : Owns deviceId commands id) : Owns deviceId (writeTo id' t commands) id := by
  refine List.forall_mem_map.mpr fun c hc => ?_
  split
  · rw [t.id_write, t.deviceId_write]
    exact h c hc
  · exact h c hc

theorem filter_writeTo {deviceId id : String} (t : Task ρ) (h : Owns deviceId commands id) :
    (writeTo id t commands).filter (·.deviceId ≠ deviceId) =
      commands.filter (·.deviceId ≠ deviceId) := by
  induction commands
  case nil => rfl
  case cons c cs hi =>
    have hc := h c (.head _)
    have hi := hi fun d hd => h d (.tail _ hd)
    simp only [writeTo, List.map_cons, List.filter_cons] at hi ⊢
    by_cases he : c.id = id
    case pos =>
      have hd : ¬(t.write ⟨none, none⟩ 0 c).deviceId ≠ deviceId := by
        rw [t.deviceId_write, hc he, ne_eq, not_not]
      have hd' : ¬c.deviceId ≠ deviceId := by rw [hc he, ne_eq, not_not]
      simp only [if_pos he, hd, hd', decide_false, Bool.false_eq_true, if_false, hi]
    case neg => simp only [if_neg he, hi]

variable {deviceId : String}

theorem Confined.step (h : Confined fw deviceId w) (ha : Honest fw w a)
    (hs : step fw checks w a = some w') : Confined fw deviceId w' := by
  cases a
  case receive message =>
    refine Option.some.inj hs ▸
      ⟨Session.deviceId_receive.trans h.session, fun e he id hid => ?_, h.tasks⟩
    cases List.mem_append.mp he
    case inl he => exact h.outbox e he id hid
    case inr he =>
      rw [Framework.eventCommand_of_mem_receive he] at hid
      exact h.session ▸ ha id hid
  case deliver i isDuplicate =>
    have ⟨e, he, hs⟩ := Option.map_eq_some_iff.mp hs
    split at hs <;> subst hs
    case h_2 => exact h
    case h_1 t ht =>
      refine ⟨h.session, h.outbox, fun u hu => ?_⟩
      cases List.mem_append.mp hu
      case inl hu => exact h.tasks u hu
      case inr hu =>
        rw [List.mem_singleton.mp hu]
        exact h.outbox e (List.mem_of_getElem? he) t.1 (Framework.eventCommand_of_read ht)
  case write i =>
    have ⟨t, ht, hs⟩ := Option.map_eq_some_iff.mp hs
    subst hs
    refine ⟨h.session, fun e he id hid => owns_writeTo (h.outbox e he id hid), fun u hu => ?_⟩
    exact owns_writeTo (h.tasks u (List.mem_of_mem_eraseIdx hu))

theorem others_step (h : Confined fw deviceId w) (hs : step fw checks w a = some w') :
    w'.others deviceId = w.others deviceId := by
  cases a
  case receive message => exact Option.some.inj hs ▸ rfl
  case deliver i isDuplicate =>
    have ⟨e, he, hs⟩ := Option.map_eq_some_iff.mp hs
    split at hs <;> exact hs ▸ rfl
  case write i =>
    have ⟨t, ht, hs⟩ := Option.map_eq_some_iff.mp hs
    exact hs ▸ filter_writeTo t.2 (h.tasks t (List.mem_of_getElem? ht))

-- No report of a device changes the commands of another one.
theorem others_eq {as : List Action} (ho : w.outbox = []) (ht : w.tasks = [])
    (h : Transition.Steps (step fw checks) (Honest fw) w as w') :
    w'.others w.session.deviceId = w.others w.session.deviceId := by
  refine (h.invariant (I := fun v => Confined fw w.session.deviceId v ∧
    v.others w.session.deviceId = w.others w.session.deviceId) ?_ ⟨⟨rfl, ?_, ?_⟩, rfl⟩).right
  · intro _ _ _ ⟨hc, hr⟩ ha hs
    exact ⟨hc.step ha hs, (others_step hc hs).trans hr⟩
  · simp [ho]
  · simp [ht]

instance (deviceId : String) (commands : List (Command ρ)) (id : String) :
    Decidable (Owns deviceId commands id) :=
  inferInstanceAs (Decidable (∀ c ∈ commands, _ → _))

instance (w : World ρ) : DecidablePred (Honest fw w)
  | .receive message =>
    inferInstanceAs <| Decidable <|
      ∀ id ∈ fw.reportedCommand message, Owns w.session.deviceId w.commands id
  | .deliver _ _ | .write _ => isTrue trivial

def plainFramework : Framework String where
  clean s := if s = "" then none else some s
  toInteger := Value.asInt
  parseTime := fun _ => some 20
  encode := fun _ => "done"

def allChecks : Checks :=
  ⟨true, fun _ => true, fun _ => true, fun _ => true⟩

def twoDevices : World String where
  session := ⟨"dev-1", "s-1", 0, true⟩
  outbox := []
  commands := [
    ⟨"c-1", "dev-1", .dispatched, "dispatched", none, none, none, none, some 10, none, some 300⟩,
    ⟨"c-2", "dev-2", .dispatched, "dispatched", none, none, none, none, some 10, none, some 300⟩
  ]
  tasks := []

def completed (commandMessageId : String) : Value :=
  .dict [
    ("type", .str "COMMAND_RESULT"), ("from", .str "agent"), ("device_id", .str "dev-1"),
    ("message_id", .str "m-1"), ("session_id", .str "s-1"), ("timestamp", .str "now"),
    ("seq", .int 1), ("sig", .str "valid"),
    ("body", .dict [
      ("command_message_id", .str commandMessageId), ("execution_state", .str "completed"),
      ("result", .dict [("status", .str "ok")])
    ])
  ]

theorem others_eq_own_command :
    ∃ w, Transition.Steps (step plainFramework allChecks) (Honest plainFramework) twoDevices
        [.receive (completed "c-1"), .deliver 0 false, .write 0] w ∧
      w.commands.map Command.state = [.completed, .dispatched] ∧
      w.others "dev-1" = twoDevices.others "dev-1" := by
  have h : Transition.Steps (step plainFramework allChecks) (Honest plainFramework) twoDevices
      [.receive (completed "c-1"), .deliver 0 false, .write 0] _ := .of_run rfl
  exact ⟨_, h, rfl, others_eq rfl rfl h⟩

-- The first device completes the command of the second one.
theorem foreign_command_completed :
    ∃ w, Transition.run (step plainFramework allChecks) twoDevices
        [.receive (completed "c-2"), .deliver 0 false, .write 0] = some w ∧
      w.commands.map Command.state = [.dispatched, .completed] ∧
      w.others "dev-1" ≠ twoDevices.others "dev-1" := by
  refine ⟨_, rfl, rfl, ?_⟩
  decide

end World

end ControlPlane
