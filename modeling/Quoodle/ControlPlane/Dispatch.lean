import Quoodle.ControlPlane.CommandService
import Quoodle.Data.Calendar
import Quoodle.Gateway.Sessions

-- How a command that was queued is dispatched to the gateway.
namespace ControlPlane

open Gateway (Value CommandDispatchRequest)

-- The format `Y-m-d\TH:i:sP`, in UTC.
def toIso8601String (t : Int) : String :=
  .ofList <| Calendar.print (Calendar.isoDateTime ++ "+00:00".toList.map .literal) (.ofSeconds t)

structure Dispatcher where
  policyVersion : String
  policyHash : String
  signJsonValue : Value → String

namespace Dispatcher

-- PHP does not tell an empty object from an empty list.
def normalizeParams (params : Value) : Value :=
  match params.json with
  | .arr [] => .dict []
  | _ => params

def header (command : QueuedCommand) (now : Int) : Value :=
  .dict [
    ("version", .str "1.1"),
    ("timestamp", .str (toIso8601String now)),
    ("ttl_seconds", .int command.ttlSeconds),
    ("priority", .str "normal"),
    ("requires_ack", .bool true),
    ("long_running", .bool false)
  ]

def envelope (d : Dispatcher) (command : QueuedCommand) (now : Int) : List (String × Value) :=
  let unsigned := [
    ("header", header command now),
    ("body", .dict [
      ("method", .str command.method),
      ("params", normalizeParams command.params),
      ("sensitive", .bool command.sensitive)
    ]),
    ("meta", .dict [
      ("origin_user_id", .str "user-unknown"),
      ("enc", .str "none"),
      ("enc_key_id", .none),
      ("policy_version", .str d.policyVersion),
      ("policy_hash", .str d.policyHash),
      ("device_id", .str command.deviceId)
    ])
  ]
  unsigned ++ [("sig", .str (d.signJsonValue (.dict unsigned)))]

-- The request that `dispatch` makes, unless the gateway does not take it for one.
def request (d : Dispatcher) (command : QueuedCommand)
    (policyDecision compliance : List (String × Value)) (seq now : Int) : Option CommandDispatchRequest := do
  let params ← (normalizeParams command.params).items
  if h : command.method ≠ "" then
    some {
      commandId := command.id
      deviceId := command.deviceId
      traceId := command.traceId
      seq
      method := command.method
      params
      sensitive := command.sensitive
      envelope := d.envelope command now
      policy := some <| Json.assign "policy_hash" (.str d.policyHash) <|
        Json.assign "policy_version" (.str d.policyVersion) policyDecision
      compliance := some compliance
      methodNotEmpty := h }
  else none

variable {d : Dispatcher} {command : QueuedCommand} {now : Int}

theorem getItem_envelope : (Value.dict (d.envelope command now)).getItem "header" =
    some (header command now) := by
  rw [Gateway.Value.getItem_dict (by simp [envelope, Json.keys])]
  rfl

theorem getItem_header : (header command now).getItem "timestamp" =
    some (.str (toIso8601String now)) := by
  rw [header, Gateway.Value.getItem_dict (by simp [Json.keys])]
  rfl

theorem getItem_request {policyDecision compliance : List (String × Value)} {seq : Int}
    {r : CommandDispatchRequest} (h : d.request command policyDecision compliance seq now = some r) :
    r.modelDump.getItem "command_id" = some (.str command.id) ∧
      r.modelDump.getItem "seq" = some (.int seq) ∧
      r.modelDump.getItem "envelope" = some (.dict (d.envelope command now)) := by
  obtain ⟨_, _, h⟩ := Option.bind_eq_some_iff.mp h
  split at h <;> cases h
  exact Gateway.getItem_modelDump _

end Dispatcher

-- The job `DispatchCommandToFastApi` of one command, and the other handlers of that command.
namespace DispatchJob

def tries : Nat :=
  120

inductive Phase where
  | waiting (availableAt : Int)
  -- An attempt has found the command, and has not sent its request yet.
  | found (snapshot : Command Value)
  | sent (snapshot : Command Value)

structure Job where
  attempts : Nat
  phase : Phase

structure Request where
  seq : Int
  timestamp : Int
  ttlSeconds : Int
  state : CommandState

structure State where
  command : QueuedCommand
  tasks : List (Task Value)
  job : Option Job
  counter : Int
  requests : List Request

inductive Action where
  | handler (a : ControlPlane.Action Value)
  | reserve (now : Int)
  | send (seq now : Int)
  | answer (response : DispatchResponse) (now : Int)
  -- An attempt ends with an exception, or with its worker.
  | fail (availableAt : Int)

def isDispatch : ControlPlane.Action Value → Bool
  | .read .dispatchCommandToFastApi => true
  | _ => false

def step (s : State) : Action → Option State
  | .handler a =>
    if isDispatch a then none
    else
      (ControlPlane.step ⟨s.command.toCommand, s.tasks⟩ a).map fun e =>
        { s with command := { s.command with toCommand := e.row }, tasks := e.tasks }
  | .reserve now =>
    match s.job with
    | some ⟨n, .waiting t⟩ =>
      if t ≤ now then
        some { s with job := if n < tries then some ⟨n + 1, .found s.command.toCommand⟩ else none }
      else none
    | _ => none
  | .send seq now =>
    match s.job with
    | some ⟨n, .found c⟩ =>
      if s.counter < seq then
        some { s with
          job := some ⟨n, .sent c⟩
          counter := seq
          requests := s.requests ++ [⟨seq, now, s.command.ttlSeconds, s.command.state⟩] }
      else none
    | _ => none
  | .answer response now =>
    match s.job with
    | some ⟨n, .sent c⟩ =>
      some { s with
        command := { s.command with
          toCommand := s.command.toCommand.save c (c.dispatched response now) }
        job :=
          if response.status = some "queued_offline" ∧ c.expiresAt.any (now < ·) then
            some ⟨n, .waiting (now + 5)⟩
          else none }
    | _ => none
  | .fail availableAt =>
    match s.job with
    | some ⟨n, .found _⟩ | some ⟨n, .sent _⟩ =>
      some { s with job := if n < tries then some ⟨n, .waiting availableAt⟩ else none }
    | _ => none

def enqueued (svc : Services) (fresh : Fresh) (user : User) (r : CommandRequest) (counter : Int) :
    State where
  command := CommandService.newCommand svc fresh user r
  tasks := []
  job := some ⟨0, .waiting fresh.now⟩
  counter
  requests := []

def Phase.IsFound : Phase → Prop
  | .found _ => True
  | .waiting _ | .sent _ => False

-- An attempt starts only while the command has not ended, no handler ends it before the attempt has
-- sent its request, and the request is sent at the time at which the command was queued.
def Timely (s : State) : Action → Prop
  | .handler (.write i response _) =>
    ∀ t ∈ s.tasks[i]?, t.Ends response → ∀ j ∈ s.job, ¬j.phase.IsFound
  | .handler (.read _) | .handler (.abort _) => True
  | .reserve _ => ¬s.command.IsTerminal
  | .send _ now => now ≤ s.command.queuedAt
  | .answer _ _ | .fail _ => True

def Request.Lives (r : Request) (expiresAt : Option Int) : Prop :=
  r.state ∉ CommandState.terminal ∧ ∀ t ∈ expiresAt, r.timestamp + r.ttlSeconds ≤ t

structure Live (s : State) : Prop where
  expiresAt : s.command.expiresAt = some (s.command.queuedAt + s.command.ttlSeconds)
  found : ∀ j ∈ s.job, j.phase.IsFound → ¬s.command.IsTerminal
  requests : ∀ r ∈ s.requests, r.Lives s.command.expiresAt

variable {s s' : State}

theorem expiresAt_write (t : Task Value) (response : DispatchResponse) (now : Int)
    (c : Command Value) : (t.write response now c).expiresAt = c.expiresAt := by
  cases t
  case dispatch => rfl
  case update => rfl
  case acknowledge =>
    simp only [Task.write, Command.acknowledged]
    split <;> rfl

theorem step_handler {a : ControlPlane.Action Value} (h : step s (.handler a) = some s') :
    ∃ e, ControlPlane.step ⟨s.command.toCommand, s.tasks⟩ a = some e ∧
      s' = { s with command := { s.command with toCommand := e.row }, tasks := e.tasks } := by
  obtain ⟨_, h⟩ := Option.ite_none_left_eq_some.mp h
  obtain ⟨e, he, h⟩ := Option.map_eq_some_iff.mp h
  exact ⟨e, he, h.symm⟩

theorem not_isFound_of_waiting {P : Prop} [Decidable P] {n : Nat} {t : Int} {j : Job}
    (h : j ∈ if P then some ⟨n, .waiting t⟩ else none) : ¬j.phase.IsFound := by
  obtain ⟨_, h⟩ := Option.ite_none_right_eq_some.mp h
  cases h
  exact id

namespace Live

theorem update (h : Live s) (row : Command Value) (tasks : List (Task Value)) (job : Option Job)
    (he : row.expiresAt = s.command.expiresAt)
    (hf : ∀ j ∈ job, j.phase.IsFound → ¬row.IsTerminal) :
    Live { s with command := { s.command with toCommand := row }, tasks, job } where
  expiresAt := he.trans h.expiresAt
  found := hf
  requests r hr := by
    rw [show _ = s.command.expiresAt from he]
    exact h.requests r hr

theorem handler (h : Live s) {a : ControlPlane.Action Value} (ha : Timely s (.handler a))
    (hs : step s (.handler a) = some s') : Live s' := by
  obtain ⟨e, he, rfl⟩ := step_handler hs
  cases a
  case read hd =>
    simp only [ControlPlane.step] at he
    split at he <;> cases he <;> exact h.update _ _ _ rfl h.found
  case write i response now =>
    obtain ⟨t, ht, rfl⟩ := Option.map_eq_some_iff.mp he
    refine h.update _ _ _ (expiresAt_write ..) fun j hj hf hc => ?_
    exact ha t ht (Task.ends_of_write (h.found j hj hf) hc) j hj hf
  case abort i =>
    obtain ⟨_, he⟩ := Option.ite_none_right_eq_some.mp he
    cases he
    exact h.update _ _ _ rfl h.found

theorem send (h : Live s) {n : Nat} {c : Command Value} {seq now : Int}
    (hj : s.job = some ⟨n, .found c⟩) (hn : now ≤ s.command.queuedAt) :
    Live { s with
      job := some ⟨n, .sent c⟩
      counter := seq
      requests := s.requests ++ [⟨seq, now, s.command.ttlSeconds, s.command.state⟩] } where
  expiresAt := h.expiresAt
  found j hj hf := by
    cases hj
    exact hf.elim
  requests r hr := by
    obtain hr | hr := List.mem_append.mp hr
    · exact h.requests r hr
    · cases List.mem_singleton.mp hr
      refine ⟨h.found _ hj trivial, fun t ht => ?_⟩
      cases ht.symm.trans h.expiresAt
      exact Int.add_le_add_right hn _

theorem step {a : Action} (h : Live s) (ha : Timely s a) (hs : step s a = some s') : Live s' := by
  cases a
  case handler a => exact h.handler ha hs
  case reserve now =>
    simp only [DispatchJob.step] at hs
    split at hs
    case h_1 n t hj =>
      obtain ⟨_, hs⟩ := Option.ite_none_right_eq_some.mp hs
      cases hs
      exact h.update _ _ _ rfl fun _ _ _ => ha
    case h_2 => cases hs
  case send seq now =>
    simp only [DispatchJob.step] at hs
    split at hs
    case h_1 n c hj =>
      obtain ⟨_, hs⟩ := Option.ite_none_right_eq_some.mp hs
      cases hs
      exact h.send hj ha
    case h_2 => cases hs
  case answer response now =>
    simp only [DispatchJob.step] at hs
    split at hs <;> cases hs
    case h_1 n c hj =>
      exact h.update _ _ _ rfl fun j hj hf => absurd hf (not_isFound_of_waiting hj)
  case fail availableAt =>
    simp only [DispatchJob.step] at hs
    split at hs <;> cases hs
    all_goals exact h.update _ _ _ rfl fun j hj hf => absurd hf (not_isFound_of_waiting hj)

end Live

-- A request is sent only while the command has not ended, and what it asks for ends when the command
-- does.
theorem requests_live {svc : Services} {fresh : Fresh} {user : User} {r : CommandRequest}
    {counter : Int} {as : List Action}
    (h : Transition.Steps step Timely (enqueued svc fresh user r counter) as s) :
    ∀ q ∈ s.requests, q.Lives s.command.expiresAt := by
  refine (h.invariant Live.step ⟨rfl, ?_, ?_⟩).requests
  · intro j hj hf
    cases hj
    exact hf.elim
  · intro q hq
    cases hq

instance : DecidablePred Phase.IsFound
  | .found _ => isTrue trivial
  | .waiting _ | .sent _ => isFalse id

instance (s : State) : DecidablePred (Timely s)
  | .handler (.write i response _) => inferInstanceAs <| Decidable <|
    ∀ t ∈ s.tasks[i]?, t.Ends response → ∀ j ∈ s.job, ¬j.phase.IsFound
  | .handler (.read _) | .handler (.abort _) | .answer _ _ | .fail _ => isTrue trivial
  | .reserve _ => inferInstanceAs (Decidable ¬s.command.IsTerminal)
  | .send _ now => inferInstanceAs (Decidable (now ≤ s.command.queuedAt))

def lockScreen : State :=
  enqueued exampleServices ⟨"c-1", "t-1", 0⟩ ⟨"u-1", "operator", false, none⟩ lockScreenRequest 0

def lockedReport : ResultData Value :=
  ⟨"c-1", "dev-1", "t-1", "completed", .dict [("locked", .bool true)], none, none, some 3⟩

-- A command is dispatched as soon as it is queued, and completed.
theorem requests_live_dispatched :
    ∃ s, Transition.Steps step Timely lockScreen
        [.reserve 0, .send 1 0, .answer ⟨some "dispatched", none⟩ 1,
          .handler (.read (.commandResultStore lockedReport false)),
          .handler (.write 0 ⟨none, none⟩ 3)] s ∧
      s.requests.length = 1 ∧ ∀ q ∈ s.requests, q.Lives s.command.expiresAt := by
  have h : Transition.Steps step Timely lockScreen
      [.reserve 0, .send 1 0, .answer ⟨some "dispatched", none⟩ 1,
        .handler (.read (.commandResultStore lockedReport false)),
        .handler (.write 0 ⟨none, none⟩ 3)] _ := .of_run rfl
  exact ⟨_, h, rfl, requests_live h⟩

-- The gateway has queued the command, which the device completes as soon as it has connected. The
-- command is dispatched once more, and for longer than it lives.
theorem dispatched_after_completed :
    ∃ s q, Transition.run step lockScreen
        [.reserve 0, .send 1 0, .answer ⟨some "queued_offline", none⟩ 0,
          .handler (.read (.commandResultStore lockedReport false)),
          .handler (.write 0 ⟨none, none⟩ 3), .reserve 5, .send 2 5] = some s ∧
      s.requests.getLast? = some q ∧ q.state = .completed ∧ s.command.expiresAt = some 300 ∧
      q.timestamp + q.ttlSeconds = 305 :=
  ⟨_, _, rfl, rfl, rfl, rfl, rfl⟩

end DispatchJob

end ControlPlane
