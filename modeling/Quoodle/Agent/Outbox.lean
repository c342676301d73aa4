import Quoodle.Agent.Sent
import Quoodle.Agent.StateStore
import Quoodle.Gateway.MessageLoop

-- What the agent keeps for the gateway, and the messages that it makes of it.
namespace Agent.Outbox

open Json.Nlohmann
open Gateway (FloatRepr Value)
open Gateway.MessageLoop (validate outcomeOf)
open Json (Distinct keys obj)

structure Item where
  type : String
  messageId : String
  timestamp : String
  commandId : String
  deviceId : String
  ackStatus : String
  ackReason : String
  result : ExecutionResult
  payload : Json Number

structure Stamp where
  messageId : String
  timestamp : String

def noResult : ExecutionResult :=
  ⟨"", "", "", "", "", .null⟩

section Items

variable (stamp : Stamp) (commandId deviceId : String)

def ackItem (status reason : String) : Item :=
  ⟨"COMMAND_ACK", stamp.messageId, stamp.timestamp, commandId, deviceId, status, reason, noResult, .null⟩

def resultItem (result : ExecutionResult) : Item :=
  ⟨"COMMAND_RESULT", stamp.messageId, stamp.timestamp, commandId, deviceId, "", "", result, .null⟩

def telemetryItem (body : Json Number) : Item :=
  ⟨"TELEMETRY", stamp.messageId, stamp.timestamp, "", deviceId, "", "", noResult, body⟩

def updateStatusItem (body : Json Number) : Item :=
  ⟨"UPDATE_STATUS", stamp.messageId, stamp.timestamp, "", deviceId, "", "", noResult, body⟩

end Items

-- What `HandleCommandDelivery` and `CommandProcessor::Handle` enqueue.
def itemOf (stamp : Stamp) : OutboxItem → Item
  | .ack commandId deviceId status reason => ackItem stamp commandId deviceId status reason
  | .result commandId deviceId result => resultItem stamp commandId deviceId result

structure Metrics where
  cpu : String
  ram : String
  diskUsage : String
  networkTx : String
  networkRx : String

def Metrics.toJson (m : Metrics) : Json Number :=
  .obj [
    ("cpu", .str m.cpu),
    ("ram", .str m.ram),
    ("disk_usage", .str m.diskUsage),
    ("network_tx", .str m.networkTx),
    ("network_rx", .str m.networkRx)
  ]

def telemetryBody (timestamp : String) (metrics : Metrics) (policyHash : String) : Json Number :=
  .obj ([
    ("timestamp", .str timestamp),
    ("metrics", metrics.toJson),
    ("telemetry_scope", .str "telemetry_basic")
  ] ++ if policyHash = "" then [] else [("policy_hash", .str policyHash)])

namespace Item

variable (item : Item)

def orDefault (s default : String) : String :=
  if s = "" then default else s

def orNull (s : String) : Json Number :=
  if s = "" then .null else .str s

def ackBody : Json Number :=
  .obj [
    ("command_message_id", .str item.commandId),
    ("status", .str (orDefault item.ackStatus "received")),
    ("reason", orNull item.ackReason)
  ]

-- Models `is_null` and `empty`, of which the latter is false of scalars.
def isNullOrEmpty : Json Number → Bool
  | .null | .arr [] | .obj [] => true
  | _ => false

def executionState : String :=
  orDefault item.result.executionState "completed"

def resultMembers : List (String × Json Number) :=
  [("status", .str (orDefault item.result.status
      (if item.executionState = "completed" then "ok" else "error")))] ++
    (if item.result.errorMessage = "" then [] else [("notes", .str item.result.errorMessage)]) ++
    (if isNullOrEmpty item.result.result then [] else [("details", item.result.result)])

def resultBody : Json Number :=
  .obj [
    ("command_message_id", .str item.commandId),
    ("execution_state", .str item.executionState),
    ("result", .obj item.resultMembers),
    ("error_code", .null),
    ("error_message", orNull item.result.errorMessage)
  ]

def message : Option (String × Json Number) :=
  if item.type = "COMMAND_ACK" then some ("COMMAND_ACK", item.ackBody)
  else if item.type = "COMMAND_RESULT" then some ("COMMAND_RESULT", item.resultBody)
  else if item.type = "TELEMETRY" ∨ item.type = "UPDATE_STATUS" then
    match item.payload with
    | .obj ms => some (item.type, .obj ms)
    | _ => none
  else none

end Item

structure Sender where
  deviceId : String
  sessionId : String
  sign : List UInt8 → String

def members (sender : Sender) (item : Item) (stamp : Stamp) (seq : Int64) (type : String)
    (body : Json Number) : List (String × Json Number) :=
  [
    ("message_id", .str (Item.orDefault item.messageId stamp.messageId)),
    ("timestamp", .str (Item.orDefault item.timestamp stamp.timestamp)),
    ("type", .str type),
    ("from", .str "agent"),
    ("device_id", .str sender.deviceId),
    ("session_id", .str sender.sessionId),
    ("seq", .num (AgentStateStore.sequenceNumber seq)),
    ("body", body)
  ]

-- Models `SendSigned`, up to the text that is written.
def signed (sign : List UInt8 → String) (ms : List (String × Json Number)) : Json Number :=
  .obj (ms ++ [("sig", .str (sign (canonicalizeWss Number.format
    (ofJson (.obj (ms ++ [("sig", .str "")]))))))])

def text (sign : List UInt8 → String) (ms : List (String × Json Number)) : List Char :=
  Json.print .minimal Number.format (ofJson (signed sign ms))

def flushText (sender : Sender) (item : Item) (stamp : Stamp) (seq : Int64) : Option (List Char) :=
  item.message.map fun (type, body) => text sender.sign (members sender item stamp seq type body)

inductive Enqueued : Item → Prop
  | command {stamp : Stamp} {i : OutboxItem} :
    (∀ c d r, i = .result c d r → Stored r.result) → Enqueued (itemOf stamp i)
  | telemetry {stamp : Stamp} {deviceId timestamp policyHash : String} {metrics : Metrics} :
    Enqueued (telemetryItem stamp deviceId (telemetryBody timestamp metrics policyHash))

section Message

variable {sender : Sender} {item : Item} {stamp : Stamp} {seq : Int64} {type : String}
variable {ms : List (String × Json Number)} {g : Number → Gateway.Number} {k : String}
variable {body : Json Number}

def arrived (g : Number → Gateway.Number) (sender : Sender) (item : Item) (stamp : Stamp)
    (seq : Int64) (type : String) (body : Json Number) : Value :=
  sent g (signed sender.sign (members sender item stamp seq type body))

theorem distinct_members (h : body.Distinct) (sig : String) :
    (obj (members sender item stamp seq type body ++ [("sig", .str sig)])).Distinct := by
  refine Distinct.obj_iff.mpr ⟨by simp [keys, members], ?_⟩
  simp [members, h]

theorem distinct_signed (h : body.Distinct) :
    (signed sender.sign (members sender item stamp seq type body)).Distinct :=
  distinct_members h _

theorem getItem_arrived (h : body.Distinct) :
    (arrived g sender item stamp seq type body).getItem k =
      (member (signed sender.sign (members sender item stamp seq type body)) k).map (sent g) :=
  getItem_sent (distinct_signed h)

theorem truthy_of_getItem {v : Value} (h : (v.getItem k).isSome) : v.truthy := by
  obtain ⟨w, hw⟩ := Option.isSome_iff_exists.mp h
  obtain ⟨ms, hv, hl⟩ := Value.getItem_eq_some_iff.mp hw
  cases ms
  case nil => cases hl
  case cons => simp [Value.truthy, hv]

theorem validateEnvelope_arrived {kind subject sessionId : String} (h : body.Distinct) :
    Gateway.validateEnvelope type kind subject (arrived g sender item stamp seq type body) sessionId =
        .ok () ↔
      sender.sessionId ≠ "" ∧ (sessionId ≠ "" → sender.sessionId = sessionId) := by
  have hd : (arrived g sender item stamp seq type body).isDict := isDict_sent _
  have hs : (arrived g sender item stamp seq type body).get "session_id" .none =
      some (.str sender.sessionId) := by
    rw [Value.get, if_pos hd, getItem_arrived h]
    simp [signed, members, member, List.lookup, sent_str]
  rw [Gateway.validateEnvelope_eq_ok_iff, hs]
  simp [Gateway.requiredFields, Value.contains_eq_true_iff hd, getItem_arrived h, signed, members,
    member, List.lookup, sent_str, Value.truthy, Value.str]

theorem get_body_arrived (h : body.Distinct) :
    (arrived g sender item stamp seq type body).get "body" .none = some (sent g body) := by
  have hd : (arrived g sender item stamp seq type body).isDict := isDict_sent _
  rw [Value.get, if_pos hd, getItem_arrived h]
  simp [signed, members, member, List.lookup]

-- The value that the validators check, which is the body unless that is empty.
theorem orElse_sent {v : Value} (h : (obj ms).Distinct) (hk : k ∈ keys ms) :
    (sent g (.obj ms)).orElse v = sent g (.obj ms) := by
  refine if_pos (truthy_of_getItem (k := k) ?_)
  rw [getItem_sent h, Option.isSome_map, member, List.lookup_isSome_iff]
  simpa [keys] using hk

theorem contains_sent (h : (obj ms).Distinct) :
    (sent g (.obj ms)).contains k = some (ms.lookup k).isSome := by
  rw [Value.contains_of_isDict (isDict_sent ms), getItem_sent h, Option.isSome_map, member]

theorem distinct_ackBody (item : Item) : item.ackBody.Distinct := by
  refine Distinct.obj_iff.mpr ⟨by simp [keys], ?_⟩
  simp only [Item.orNull, List.forall_mem_cons]
  split <;> simp

theorem validateCommandAck_arrived {sessionId : String} :
    Gateway.validateCommandAck (arrived g sender item stamp seq "COMMAND_ACK" item.ackBody)
        sessionId = .ok () ↔
      sender.sessionId ≠ "" ∧ (sessionId ≠ "" → sender.sessionId = sessionId) := by
  have hd := distinct_ackBody item
  have ho : (sent g item.ackBody).orElse (.dict []) = sent g item.ackBody :=
    orElse_sent (k := "status") hd (by simp [keys])
  have hc (k : String) : (sent g item.ackBody).contains k = some (List.lookup k _).isSome :=
    contains_sent hd
  simp only [Gateway.validateCommandAck, Gateway.bind_eq_ok_iff, Gateway.liftOption_eq_ok_iff,
    Gateway.raiseIf_eq_ok_iff, Unique.exists_iff, validateEnvelope_arrived hd, get_body_arrived hd,
    Option.some.injEq, exists_eq_left', ho, hc]
  simp [List.lookup]

theorem distinct_resultMembers (h : item.result.result.Distinct) :
    (obj item.resultMembers).Distinct := by
  rw [Distinct.obj_iff]
  by_cases hm : item.result.errorMessage = "" <;>
    by_cases hn : Item.isNullOrEmpty item.result.result <;>
      simp [Item.resultMembers, keys, hm, hn, h]

theorem distinct_resultBody (h : item.result.result.Distinct) : item.resultBody.Distinct := by
  refine Distinct.obj_iff.mpr ⟨by simp [keys], ?_⟩
  simp only [Item.orNull, List.forall_mem_cons]
  split <;> simp [distinct_resultMembers h]

theorem validateCommandResult_arrived {sessionId : String} (h : item.result.result.Distinct) :
    Gateway.validateCommandResult (arrived g sender item stamp seq "COMMAND_RESULT" item.resultBody)
        sessionId = .ok () ↔
      sender.sessionId ≠ "" ∧ (sessionId ≠ "" → sender.sessionId = sessionId) := by
  have hd := distinct_resultBody h
  have hr := distinct_resultMembers h
  have ho : (sent g item.resultBody).orElse (.dict []) = sent g item.resultBody :=
    orElse_sent (k := "result") hd (by simp [keys])
  have hc (k : String) : (sent g item.resultBody).contains k = some (List.lookup k _).isSome :=
    contains_sent hd
  have hg : (sent g item.resultBody).get "result" .none = some (sent g (.obj item.resultMembers)) := by
    have hb : (sent g item.resultBody).isDict := isDict_sent _
    rw [Value.get, if_pos hb, getItem_sent hd]
    simp [Item.resultBody, member, List.lookup]
  have ho' : (sent g (.obj item.resultMembers)).orElse (.dict []) = sent g (.obj item.resultMembers) :=
    orElse_sent (k := "status") hr (by simp [keys, Item.resultMembers])
  have hc' : (sent g (.obj item.resultMembers)).contains "status" = some true := by
    rw [contains_sent hr]
    simp [Item.resultMembers]
  simp only [Gateway.validateCommandResult, Gateway.bind_eq_ok_iff, Gateway.liftOption_eq_ok_iff,
    Gateway.raiseIf_eq_ok_iff, Unique.exists_iff, validateEnvelope_arrived hd, get_body_arrived hd,
    Option.some.injEq, exists_eq_left', ho, hc, hg, ho', hc']
  simp [List.lookup]

theorem distinct_telemetryBody {timestamp policyHash : String} {metrics : Metrics} :
    (telemetryBody timestamp metrics policyHash).Distinct := by
  have hm : metrics.toJson.Distinct :=
    Distinct.obj_iff.mpr ⟨by simp [keys], by simp⟩
  unfold telemetryBody
  refine Distinct.obj_iff.mpr ⟨?_, ?_⟩
  · split <;> simp [keys]
  · split <;> simp [hm]

-- What the agent measures lacks members that the gateway requires.
theorem validateTelemetry_arrived {readFloat : List Char → Option FloatRepr}
    {floatValue : FloatRepr → ℚ} {timestamp policyHash sessionId : String} {metrics : Metrics}
    (hs : sender.sessionId ≠ "") (he : sessionId ≠ "" → sender.sessionId = sessionId) :
    Gateway.validateTelemetry readFloat floatValue
        (arrived g sender item stamp seq "TELEMETRY" (telemetryBody timestamp metrics policyHash))
        sessionId =
      .error (.valueError "Telemetry body missing schema_version") := by
  have hd := @distinct_telemetryBody timestamp policyHash metrics
  have ho : (sent g (telemetryBody timestamp metrics policyHash)).orElse (.dict []) =
      sent g (telemetryBody timestamp metrics policyHash) :=
    orElse_sent (k := "metrics") hd (by simp [keys])
  have hc (k : String) : (sent g (telemetryBody timestamp metrics policyHash)).contains k =
      some (List.lookup k _).isSome :=
    contains_sent hd
  have hp (k : String) (hk : k ∈ ["metrics", "telemetry_scope", "timestamp"]) :
      (sent g (telemetryBody timestamp metrics policyHash)).contains k = some true := by
    simp only [List.mem_cons, List.not_mem_nil, or_false] at hk
    rw [hc]
    obtain rfl | rfl | rfl := hk <;> simp [List.lookup]
  have hn : (sent g (telemetryBody timestamp metrics policyHash)).contains "schema_version" =
      some false := by
    rw [hc]
    split <;> simp [List.lookup]
  have hv : Gateway.validateEnvelope "TELEMETRY" "telemetry" "Telemetry"
      (arrived g sender item stamp seq "TELEMETRY" (telemetryBody timestamp metrics policyHash))
      sessionId = .ok () :=
    (validateEnvelope_arrived hd).mpr ⟨hs, he⟩
  simp only [Gateway.validateTelemetry, hv, get_body_arrived hd, Gateway.liftOption, bind, Except.bind,
    ho, hp "metrics" (by simp), hp "telemetry_scope" (by simp), hp "timestamp" (by simp), hn,
    List.forIn_cons, Gateway.raiseIf]
  rfl

end Message

section Flush

variable {env : Gateway.Handshake.Environment} {floatValue : FloatRepr → ℚ} {sender : Sender} {item : Item}
variable {stamp : Stamp} {seq : Int64} {body : Json Number}

theorem loads_flushText {type : String} (hm : item.message = some (type, body))
    (hr : ∀ n, Loads env.readFloat n) :
    ∃ text, flushText sender item stamp seq = some text ∧
      Value.loads env.readFloat text =
        some (arrived (loadedNumber env.readFloat) sender item stamp seq type body) := by
  refine ⟨_, by rw [flushText, hm]; rfl, ?_⟩
  exact loads_print (.of_forall hr _)

theorem get_type_arrived {g : Number → Gateway.Number} {type : String} (h : body.Distinct) :
    (arrived g sender item stamp seq type body).get "type" .none = some (.str type) := by
  have hd : (arrived g sender item stamp seq type body).isDict := isDict_sent _
  rw [Value.get, if_pos hd, getItem_arrived h]
  simp [signed, members, member, List.lookup, sent_str]

-- What is sent for a command passes, and what is measured does not.
theorem validate_arrived (hs : sender.sessionId ≠ "") (h : Enqueued item) :
    ∃ body, item.message = some (item.type, body) ∧ body.Distinct ∧
      ∀ g, if item.type = "TELEMETRY" then
        validate env floatValue (.str item.type) (arrived g sender item stamp seq item.type body)
          sender.sessionId = .error (.valueError "Telemetry body missing schema_version")
      else
        validate env floatValue (.str item.type) (arrived g sender item stamp seq item.type body)
          sender.sessionId = .ok () := by
  cases h
  case command st i hd =>
    cases i
    case ack commandId deviceId status reason =>
      refine ⟨_, rfl, distinct_ackBody _, fun g => ?_⟩
      exact validateCommandAck_arrived.mpr ⟨hs, fun _ => rfl⟩
    case result commandId deviceId result =>
      have hr : result.result.Distinct := (hd _ _ _ rfl).distinct
      refine ⟨_, rfl, distinct_resultBody hr, fun g => ?_⟩
      exact (validateCommandResult_arrived hr).mpr ⟨hs, fun _ => rfl⟩
  case telemetry st deviceId timestamp policyHash metrics =>
    refine ⟨_, rfl, distinct_telemetryBody, fun g => ?_⟩
    exact validateTelemetry_arrived hs fun _ => rfl

theorem accepted_iff_ne_telemetry (hr : ∀ n, Loads env.readFloat n) (hs : sender.sessionId ≠ "")
    (h : Enqueued item) :
    ∃ text message,
      flushText sender item stamp seq = some text ∧
      Value.loads env.readFloat text = some message ∧
      message.get "type" .none = some (.str item.type) ∧
      (validate env floatValue (.str item.type) message sender.sessionId = .ok () ↔
        item.type ≠ "TELEMETRY") ∧
      (outcomeOf (validate env floatValue (.str item.type) message sender.sessionId) = .closed 4400 ↔
        item.type = "TELEMETRY") := by
  obtain ⟨body, hm, hd, hv⟩ := @validate_arrived env floatValue sender item stamp seq hs h
  obtain ⟨text, ht, hl⟩ := @loads_flushText env sender item stamp seq _ _ hm hr
  refine ⟨text, _, ht, hl, get_type_arrived hd, ?_⟩
  specialize hv (loadedNumber env.readFloat)
  split at hv
  case isTrue hi | isFalse hi =>
    rw [hv]
    simp [hi, outcomeOf]

def literal (t : List Char) : Option FloatRepr :=
  if h : Json.readInt t = none ∧ Json.IsNumber t then some ⟨t, h.right, h.left⟩ else none

theorem loads_literal (n : Number) : Loads literal n := by
  unfold Loads Gateway.Number.read
  split
  case h_1 => rfl
  case h_2 hn =>
    have h : Json.readInt n.text = none ∧ Json.IsNumber n.text := ⟨hn, Number.format.isNumber n⟩
    simp [literal, h]

def exampleEnvironment : Gateway.Handshake.Environment :=
  { Gateway.Handshake.exampleEnvironment with readFloat := literal }

def exampleDigits (message : List UInt8) : List Char :=
  Nat.toDigits 10 (message.foldl (fun h b => (31 * h + b.toNat) % 65521) 7)

-- The text of the checksum with the key `k`.
def exampleSign (message : List UInt8) : String :=
  .ofList ('k' :: exampleDigits message)

def exampleSender : Sender :=
  ⟨"dev-1", "sess-1", exampleSign⟩

def exampleStamp : Stamp :=
  ⟨"m-1", "2026-01-01T00:00:00Z"⟩

def exampleTelemetry : Item :=
  telemetryItem exampleStamp "dev-1" (telemetryBody "2026-01-01T00:00:00Z" ⟨"1%", "20%", "30%",
    "0.0Mbps", "0.1Mbps"⟩ "")

def exampleAck : Item :=
  itemOf exampleStamp (.ack "cmd-1" "dev-1" "received" "")

theorem accepted_iff_ne_telemetry_ack : ∃ text message,
    flushText exampleSender exampleAck exampleStamp 1 = some text ∧
    Value.loads exampleEnvironment.readFloat text = some message ∧
    validate exampleEnvironment (fun _ => 0) (.str "COMMAND_ACK") message exampleSender.sessionId =
      .ok () := by
  have h : Enqueued exampleAck := .command (by simp)
  obtain ⟨text, message, ht, hl, -, hv, -⟩ := @accepted_iff_ne_telemetry exampleEnvironment (fun _ => 0)
    exampleSender exampleAck exampleStamp 1 loads_literal (by decide) h
  exact ⟨text, message, ht, hl, hv.mpr (by decide)⟩

-- The first telemetry of a session ends it.
theorem closed_by_telemetry : ∃ text message,
    flushText exampleSender exampleTelemetry exampleStamp 1 = some text ∧
    Value.loads exampleEnvironment.readFloat text = some message ∧
    outcomeOf (validate exampleEnvironment (fun _ => 0) (.str "TELEMETRY") message "sess-1") =
      .closed 4400 := by
  obtain ⟨body, hm, -, hv⟩ := @validate_arrived exampleEnvironment (fun _ => 0) exampleSender
    exampleTelemetry exampleStamp 1 (by decide) .telemetry
  obtain ⟨text, ht, hl⟩ := @loads_flushText exampleEnvironment exampleSender exampleTelemetry
    exampleStamp 1 _ _ hm loads_literal
  specialize hv (loadedNumber exampleEnvironment.readFloat)
  have hi : exampleTelemetry.type = "TELEMETRY" := rfl
  rw [if_pos hi] at hv
  exact ⟨text, _, ht, hl, congrArg outcomeOf hv⟩

end Flush

end Agent.Outbox
