import Quoodle.Gateway.Value

-- What an agent reports on its websocket, up to what is handed to the webhook outbox.
namespace Gateway

namespace Value

-- Models the truth value of `v` in a condition.
def truthy (v : Value) : Bool :=
  match v.json with
  | .null => false
  | .bool b => b
  | .num (.int n) => n ≠ 0
  | .num (.float x) => x.text ∉ ["0.0".toList, "-0.0".toList]
  | .str s => s ≠ ""
  | .arr vs => !vs.isEmpty
  | .obj ms => !ms.isEmpty

def isStr (v : Value) (s : String) : Bool :=
  match v.json with
  | .str t => t = s
  | _ => false

-- Models `k in v`, which fails if `v` is neither a collection nor a string.
def contains (v : Value) (k : String) : Option Bool :=
  match v.json with
  | .obj ms => some ((Json.keys ms).contains k)
  | .arr vs => some (vs.any fun | .str s => s = k | _ => false)
  | .str s => some (k.toList <:+: s.toList)
  | _ => .none

-- Models `isinstance(v, int)`, which also holds of booleans.
def asInt (v : Value) : Option Int :=
  match v.json with
  | .num (.int n) => some n
  | .bool b => some b.toInt
  | _ => .none

-- Models `v or default`.
def orElse (v default : Value) : Value :=
  if v.truthy then v else default

end Value

-- An invalid message ends the session, and any other exception is ignored.
inductive Raised where
  | valueError (message : String)
  | other

-- Results of Python functions that fail with an exception that no handler distinguishes.
def liftOption {α : Type} : Option α → Except Raised α
  | some a => .ok a
  | none => .error .other

def raiseIf (c : Bool) (message : String) : Except Raised Unit :=
  if c then .error (.valueError message) else .ok ()

section Checks

variable {α β ε : Type}

theorem bind_eq_ok_iff {x : Except ε α} {f : α → Except ε β} {b : β} :
    (x >>= f) = .ok b ↔ ∃ a, x = .ok a ∧ f a = .ok b := by
  cases x
  case error e => exact ⟨fun h => (by cases h), fun ⟨_, h, _⟩ => (by cases h)⟩
  case ok a =>
    refine ⟨fun h => ⟨a, rfl, h⟩, ?_⟩
    rintro ⟨_, h, hf⟩
    cases h
    exact hf

theorem liftOption_eq_ok_iff {o : Option α} {a : α} : liftOption o = .ok a ↔ o = some a := by
  cases o <;> simp [liftOption]

theorem raiseIf_eq_ok_iff {c : Bool} {message : String} {u : Unit} :
    raiseIf c message = .ok u ↔ c = false := by
  cases c <;> simp [raiseIf]

theorem requiredFields_eq_ok_iff {fields : List String} {payload : Value} {u : PUnit} :
    (forIn fields PUnit.unit fun field _ => do
        let b ← liftOption (payload.contains field)
        raiseIf (!b) ("Missing required field: " ++ field)
        pure (ForInStep.yield PUnit.unit)) = .ok u ↔
      ∀ f ∈ fields, payload.contains f = some true := by
  induction fields
  case nil => simp [pure, Except.pure]
  case cons f fs hi =>
    rw [List.forIn_cons, List.forall_mem_cons]
    simp only [bind_eq_ok_iff, liftOption_eq_ok_iff, raiseIf_eq_ok_iff, Bool.not_eq_eq_eq_not,
      Bool.not_false]
    constructor
    · rintro ⟨s, ⟨b, hb, _, rfl, hs⟩, h⟩
      cases hs
      exact ⟨hb, hi.mp h⟩
    · intro ⟨hb, h⟩
      exact ⟨_, ⟨true, hb, (), rfl, rfl⟩, hi.mpr h⟩

end Checks

namespace Value

variable {v : Value} {k s : String}

theorem isStr_iff : v.isStr s ↔ v = .str s := by
  rw [Value.ext_iff]
  unfold isStr
  split
  case h_1 t ht => simp [ht, str]
  case h_2 hn =>
    simp only [Bool.false_eq_true, str, false_iff]
    exact hn s

theorem isSome_getItem_iff {ms : List (String × Json Number)} (hv : v.json = .obj ms) :
    (v.getItem k).isSome ↔ (ms.lookup k).isSome := by
  simp only [Option.isSome_iff_exists, getItem_eq_some_iff, hv, Json.obj.injEq, exists_eq_left']
  refine ⟨fun ⟨w, hw⟩ => ⟨w.json, hw⟩, fun ⟨w, hw⟩ => ⟨⟨w, ?_⟩, hw⟩⟩
  exact (Json.Distinct.obj_iff.mp (hv ▸ v.distinct)).right _ (Json.mem_of_lookup_eq_some hw)

theorem contains_of_isDict (h : v.isDict) : v.contains k = some (v.getItem k).isSome := by
  obtain ⟨j, hj⟩ := v
  cases j
  case obj ms =>
    rw [contains, Option.some.injEq, Bool.eq_iff_iff, isSome_getItem_iff rfl, List.lookup_isSome_iff]
    simp [Json.keys]
  all_goals cases h

theorem contains_eq_true_iff (h : v.isDict) : v.contains k = some true ↔ (v.getItem k).isSome := by
  rw [contains_of_isDict h, Option.some.injEq]

end Value

def requiredFields : List String :=
  ["type", "from", "device_id", "message_id", "body", "sig", "session_id", "timestamp"]

def validateEnvelope (type kind subject : String) (payload : Value) (expectedSession : String) :
    Except Raised Unit := do
  for field in requiredFields do
    raiseIf (!(← liftOption (payload.contains field))) ("Missing required field: " ++ field)
  raiseIf (!(← liftOption (payload.getItem "type")).isStr type) ("Invalid type for " ++ kind)
  raiseIf (!(← liftOption (payload.getItem "from")).isStr "agent")
    (subject ++ " must originate from agent")
  let sessionId ← liftOption (payload.get "session_id" .none)
  raiseIf (!sessionId.truthy) (subject ++ " requires session_id")
  raiseIf (expectedSession ≠ "" && !sessionId.isStr expectedSession)
    (subject ++ " session_id mismatch")

theorem validateEnvelope_eq_ok_iff {type kind subject : String} {payload : Value}
    {expectedSession : String} :
    validateEnvelope type kind subject payload expectedSession = .ok () ↔
      (∀ f ∈ requiredFields, payload.contains f = some true) ∧
        payload.getItem "type" = some (.str type) ∧ payload.getItem "from" = some (.str "agent") ∧
        ∃ s, payload.get "session_id" .none = some s ∧ s.truthy ∧
          (expectedSession ≠ "" → s = .str expectedSession) := by
  unfold validateEnvelope
  simp only [bind_eq_ok_iff, raiseIf_eq_ok_iff, liftOption_eq_ok_iff, requiredFields_eq_ok_iff]
  simp [Value.isStr_iff, imp_iff_not_or]

def validateCommandResult (payload : Value) (expectedSession : String) : Except Raised Unit := do
  validateEnvelope "COMMAND_RESULT" "command result" "Command result" payload expectedSession
  let body := (← liftOption (payload.get "body" .none)).orElse (.dict [])
  raiseIf (!(← liftOption (body.contains "command_message_id")) ||
      !(← liftOption (body.contains "execution_state")) ||
      !(← liftOption (body.contains "result")))
    "Command result body missing required fields"
  let result := (← liftOption (body.get "result" .none)).orElse (.dict [])
  raiseIf (!(← liftOption (result.contains "status"))) "Command result missing status"

def validateCommandAck (payload : Value) (expectedSession : String) : Except Raised Unit := do
  validateEnvelope "COMMAND_ACK" "command ack" "Command ack" payload expectedSession
  let body := (← liftOption (payload.get "body" .none)).orElse (.dict [])
  raiseIf (!(← liftOption (body.contains "command_message_id")) ||
      !(← liftOption (body.contains "status")))
    "Command ack body missing required fields"

def forwardCommandResult (payload : Value) : Option Value := do
  let body ← payload.get "body" (.dict [])
  let commandId ← body.get "command_message_id" .none
  return .dict [
    ("command_id", commandId),
    ("device_id", ← payload.get "device_id" .none),
    ("trace_id", (← body.get "trace_id" .none).orElse commandId),
    ("execution_state", ← body.get "execution_state" .none),
    ("result", ← body.get "result" (.dict [])),
    ("error_code", ← body.get "error_code" .none),
    ("error_message", ← body.get "error_message" .none),
    ("timestamp", ← payload.get "timestamp" .none)
  ]

def forwardCommandAck (body : Value) (deviceId : String) (timestamp : Value) : Option Value := do
  return .dict [
    ("command_id", ← body.get "command_message_id" .none),
    ("device_id", .str deviceId),
    ("status", ← body.get "status" .none),
    ("reason", ← body.get "reason" .none),
    ("timestamp", timestamp)
  ]

inductive WebhookEvent where
  | commandResult (data : Value)
  | commandAck (data : Value)

def WebhookEvent.data : WebhookEvent → Value
  | commandResult d | commandAck d => d

structure Checks where
  requireSeq : Bool
  timestampIsFresh : Value → Bool
  signatureIsValid : Value → Bool
  -- `validate_heartbeat` and `validate_telemetry`.
  telemetryIsValid : Value → Bool

structure Session where
  deviceId : String
  sessionId : String
  lastSeq : Int
  isOpen : Bool

namespace Session

def close (s : Session) : Session :=
  { s with isOpen := false }

def extractSeq (message : Value) : Option Int :=
  let body := ((message.get "body" .none).getD .none).orElse (.dict [])
  ((message.get "seq" .none).bind Value.asInt).or ((body.get "seq" .none).bind Value.asInt)

-- There is no session if the message is refused as a replay.
def checkAndUpdateSeq (checks : Checks) (s : Session) : Option Int → Option Session
  | none => if checks.requireSeq then none else some s
  | some seq => if seq ≤ 0 ∨ seq ≤ s.lastSeq then none else some { s with lastSeq := seq }

def forward (s : Session) (validation : Except Raised Unit) (event : Option WebhookEvent) :
    Session × List WebhookEvent :=
  match validation with
  | .ok () => (s, event.toList)
  | .error (.valueError _) => (s.close, [])
  | .error .other => (s, [])

def isTelemetry (type : Value) : Bool :=
  type.isStr "HEARTBEAT" || type.isStr "TELEMETRY"

def handle (checks : Checks) (s : Session) (type message : Value) : Session × List WebhookEvent :=
  if isTelemetry type then (if checks.telemetryIsValid message then s else s.close, [])
  else if type.isStr "COMMAND_RESULT" then
    s.forward (validateCommandResult message s.sessionId)
      ((forwardCommandResult message).map .commandResult)
  else if type.isStr "COMMAND_ACK" then
    s.forward (validateCommandAck message s.sessionId) <| do
      let body ← message.get "body" (.dict [])
      let timestamp ← message.get "timestamp" .none
      (forwardCommandAck body s.deviceId timestamp).map .commandAck
  else (s, [])

-- Models what the loop of `agent_ws` does with one message.
def receive (checks : Checks) (s : Session) (message : Value) : Session × List WebhookEvent :=
  match message.get "type" .none with
  | none => (s, [])
  | some type =>
    if !s.isOpen then (s, [])
    else if !checks.timestampIsFresh message || !checks.signatureIsValid message then (s.close, [])
    else
      match s.checkAndUpdateSeq checks (extractSeq message) with
      | none => (if isTelemetry type then s else s.close, [])
      | some s => s.handle checks type message

theorem deviceId_of_checkAndUpdateSeq {checks : Checks} {s s' : Session} {seq : Option Int}
    (h : s.checkAndUpdateSeq checks seq = some s') : s'.deviceId = s.deviceId := by
  cases seq <;> simp only [checkAndUpdateSeq, Option.ite_none_left_eq_some] at h
  case none | some seq => exact Option.some.inj h.right ▸ rfl

variable {validation : Except Raised Unit} {event : Option WebhookEvent}

theorem deviceId_forward {s : Session} : (s.forward validation event).1.deviceId = s.deviceId := by
  unfold forward
  split <;> rfl

theorem mem_forward {s : Session}
    {e : WebhookEvent} (h : e ∈ (s.forward validation event).2) : event = some e := by
  unfold forward at h
  split at h
  case h_1 => simpa using h
  all_goals contradiction

end Session

def commandMessageId (message : Value) : Option Value := do
  (← message.get "body" (.dict [])).get "command_message_id" .none

theorem getItem_forwardCommandResult {message d : Value}
    (h : forwardCommandResult message = some d) :
    d.getItem "command_id" = commandMessageId message := by
  simp only [forwardCommandResult, Option.bind_eq_bind, Option.bind_eq_some_iff] at h
  obtain ⟨body, hb, id, hi, _, _, _, _, _, _, _, _, _, _, _, _, _, _, h⟩ := h
  cases h
  rw [Value.getItem_dict (by simp), commandMessageId, hb]
  exact hi.symm

theorem getItem_forwardCommandAck {message body d timestamp : Value} {deviceId : String}
    (hb : message.get "body" (.dict []) = some body)
    (h : forwardCommandAck body deviceId timestamp = some d) :
    d.getItem "command_id" = commandMessageId message := by
  simp only [forwardCommandAck, Option.bind_eq_bind, Option.bind_eq_some_iff] at h
  obtain ⟨id, hi, _, _, _, _, h⟩ := h
  cases h
  rw [Value.getItem_dict (by simp), commandMessageId, hb]
  exact hi.symm

namespace Session

variable {checks : Checks} {s : Session} {message : Value} {e : WebhookEvent}

theorem deviceId_handle {type : Value} : (s.handle checks type message).1.deviceId = s.deviceId := by
  unfold handle
  split
  case isTrue => dsimp only; split <;> rfl
  split
  case isTrue => exact deviceId_forward
  split
  case isTrue => exact deviceId_forward
  case isFalse => rfl

theorem deviceId_receive : (s.receive checks message).1.deviceId = s.deviceId := by
  unfold receive
  split
  case h_1 => rfl
  split
  case isTrue => rfl
  split
  case isTrue => rfl
  split
  case h_1 => dsimp only; split <;> rfl
  case h_2 hs => exact deviceId_handle.trans (deviceId_of_checkAndUpdateSeq hs)

theorem getItem_of_mem_handle {type : Value} (h : e ∈ (s.handle checks type message).2) :
    e.data.getItem "command_id" = commandMessageId message := by
  unfold handle at h
  split at h
  case isTrue => contradiction
  split at h
  case isTrue =>
    have ⟨d, hd, he⟩ := Option.map_eq_some_iff.mp (mem_forward h)
    exact he ▸ getItem_forwardCommandResult hd
  split at h
  case isTrue =>
    have hf := mem_forward h
    simp only [Option.bind_eq_bind, Option.bind_eq_some_iff, Option.map_eq_some_iff] at hf
    have ⟨body, hb, _, _, d, hd, he⟩ := hf
    exact he ▸ getItem_forwardCommandAck hb hd
  case isFalse => contradiction

theorem getItem_of_mem_receive (h : e ∈ (s.receive checks message).2) :
    e.data.getItem "command_id" = commandMessageId message := by
  unfold receive at h
  split at h
  case h_1 => contradiction
  split at h
  case isTrue => contradiction
  split at h
  case isTrue => contradiction
  split at h
  case h_1 => contradiction
  case h_2 => exact getItem_of_mem_handle h

end Session

end Gateway
