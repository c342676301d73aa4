import Quoodle.ControlPlane.Dispatch

-- What the agent does with the commands that are delivered to it.
namespace Agent

open Json.Nlohmann
open Gateway (received member_received received_str)
open Gateway (Value buildCommandDelivery dumps isDict_of_getItem plainSettings stamp)

structure ExecutionResult where
  executionState : String
  status : String
  execId : String
  errorType : String
  errorMessage : String
  result : Json Number

structure ProcessedCommand where
  commandId : String
  requiresAck : Bool
  ackStatus : String
  ackReason : String
  result : ExecutionResult

inductive OutboxItem where
  | ack (commandId deviceId status reason : String)
  | result (commandId deviceId : String) (result : ExecutionResult)

structure Store where
  lastDeliveryId : String
  processedCommands : List ProcessedCommand
  outbox : List OutboxItem

namespace Store

def getProcessedCommand (s : Store) (commandId : String) : Option ProcessedCommand :=
  if commandId = "" then none else s.processedCommands.find? (·.commandId = commandId)

def setLastDeliveryId (s : Store) (deliveryId : String) : Store :=
  if deliveryId = "" then s else { s with lastDeliveryId := deliveryId }

def enqueue (s : Store) (items : List OutboxItem) : Store :=
  { s with outbox := s.outbox ++ items }

def maxProcessedCommands : Nat :=
  256

def rememberCommand (s : Store) (command : ProcessedCommand) : Store :=
  let cs := s.processedCommands
  if command.commandId = "" then s
  else
    match cs.findIdx? (·.commandId = command.commandId) with
    | some i => { s with processedCommands := cs.set i command }
    | none =>
      let cs := cs ++ [command]
      { s with processedCommands := cs.drop (cs.length - maxProcessedCommands) }

end Store

structure CommandEnvelope where
  commandId : String
  method : String
  params : Json Number
  requiresAck : Bool
  deviceId : String
  deliveryId : String
  policyHash : String

-- What `HandleCommandDelivery` does. It returns `false` only if it refuses a message.
inductive Handling where
  | refused
  | repeated
  | resent (s : Store)
  | expired (s : Store)
  | handled (command : CommandEnvelope)

section Members

variable {ν : Type}

def getObjectOrEmpty (v : Json ν) (key : String) : Json ν :=
  match member v key with
  | some (.obj ms) => .obj ms
  | _ => .obj []

def getStringOrDefault (v : Json ν) (key fallback : String) : String :=
  match member v key with
  | some (.str s) => s
  | _ => fallback

def getBoolOrDefault (v : Json ν) (key : String) (fallback : Bool) : Bool :=
  match member v key with
  | some (.bool b) => b
  | _ => fallback

def getIntOrDefault (v : Json Number) (key : String) (fallback : Int) : Int :=
  match member v key with
  | some (.num (.integer n)) => n.val.bmod (2 ^ 32)
  | _ => fallback

def isEmpty : Json ν → Bool
  | .obj [] => true
  | _ => false

end Members

-- Removes what is between the first dot and the next `Z`.
def removeFraction (cs : List Char) : List Char :=
  let fraction := cs.dropWhile (· ≠ '.')
  if 'Z' ∈ fraction then cs.takeWhile (· ≠ '.') ++ fraction.dropWhile (· ≠ 'Z') else cs

def parseIsoTimestamp (ts : String) : Option Int := do
  let cleaned := (removeFraction ts.toList).takeWhile (· ≠ '\x00')
  let (tm, rest) ← Calendar.scan (Calendar.isoDateTime ++ [.literal 'Z']) ⟨0, 0, 0, 0, 0, 0⟩ cleaned
  if rest = [] then some tm.toSeconds else none

def isExpired (header : Json Number) (now : Int) : Bool :=
  let ts := getStringOrDefault header "timestamp" ""
  let ttl := getIntOrDefault header "ttl_seconds" 0
  ts ≠ "" && ttl > 0 && (parseIsoTimestamp ts).any fun base => now > base + ttl

def deliveredEnvelope (msg : Json Number) : Json Number :=
  getObjectOrEmpty (getObjectOrEmpty msg "body") "command_envelope"

structure Client where
  environment : Environment
  deviceId : String
  policyHash : String

namespace Client

def resend (c : Client) (cached : ProcessedCommand) : List OutboxItem :=
  let status := if cached.ackStatus = "" then "received" else cached.ackStatus
  (if cached.requiresAck then [.ack cached.commandId c.deviceId status cached.ackReason] else []) ++
    [.result cached.commandId c.deviceId cached.result]

def reject (c : Client) (s : Store) (commandId : String) (requiresAck : Bool) : Store :=
  let result : ExecutionResult :=
    ⟨"failed", "error", "", "ERR_EXECUTION_FAILED", "expired_ttl", .obj []⟩
  let items := [
    .ack commandId c.deviceId "rejected" "expired_ttl",
    .result commandId c.deviceId result
  ]
  (s.enqueue items).rememberCommand {
    commandId
    requiresAck
    ackStatus := if requiresAck then "rejected" else ""
    ackReason := if requiresAck then "expired_ttl" else ""
    result }

-- Models `HandleCommandDelivery`. The signature of the envelope is verified like the one of the
-- message.
def handleCommandDelivery (c : Client) (s : Store) (now : Int) (msg : Json Number) : Handling :=
  let envelope := deliveredEnvelope msg
  if isEmpty envelope then .refused
  else if !verifyControllerSig c.environment envelope then .refused
  else
    let deliveryId := getStringOrDefault msg "message_id" ""
    if deliveryId ≠ "" ∧ deliveryId = s.lastDeliveryId then .repeated
    else
      let header := getObjectOrEmpty envelope "header"
      let commandBody := getObjectOrEmpty envelope "body"
      let metadata := getObjectOrEmpty envelope "meta"
      let commandId := getStringOrDefault envelope "message_id" ""
      let requiresAck := getBoolOrDefault header "requires_ack" true
      match s.getProcessedCommand commandId with
      | some cached => .resent ((s.enqueue (c.resend cached)).setLastDeliveryId deliveryId)
      | none =>
        if isExpired header now then
          .expired (c.reject (s.setLastDeliveryId deliveryId) commandId requiresAck)
        else
          .handled {
            commandId
            method := getStringOrDefault commandBody "method" ""
            params := getObjectOrEmpty commandBody "params"
            requiresAck
            deviceId := c.deviceId
            deliveryId
            policyHash := getStringOrDefault metadata "policy_hash" c.policyHash }

end Client

theorem mem_removeFraction {cs : List Char} {c : Char} (h : c ∈ removeFraction cs) : c ∈ cs := by
  simp only [removeFraction] at h
  split at h
  case isTrue =>
    obtain h | h := List.mem_append.mp h
    · exact (List.takeWhile_prefix _).subset h
    · exact (List.dropWhile_suffix _).subset ((List.dropWhile_suffix _).subset h)
  case isFalse => exact h

theorem mem_of_parseIsoTimestamp {ts : String} {t : Int} (h : parseIsoTimestamp ts = some t) :
    'Z' ∈ ts.toList := by
  obtain ⟨r, hs, _⟩ := Option.bind_eq_some_iff.mp h
  have hz := Calendar.mem_of_scan hs (List.mem_append_right _ List.mem_cons_self)
  exact mem_removeFraction ((List.takeWhile_prefix _).subset hz)

theorem parseIsoTimestamp_toIso8601String (t : Int) :
    parseIsoTimestamp (ControlPlane.toIso8601String t) = none := by
  refine Option.eq_none_iff_forall_ne_some.mpr fun _ h => ?_
  have hz := mem_of_parseIsoTimestamp h
  rw [ControlPlane.toIso8601String, String.toList_ofList] at hz
  have := Calendar.mem_print hz
  simp [Calendar.isoDateTime] at this

section Received

variable {f : Gateway.Number → Number} {d v : Value} {k : String}

theorem getStringOrDefault_received {s : String} (h : d.getItem k = some (.str s))
    (fallback : String) : getStringOrDefault (received f d) k fallback = s := by
  rw [getStringOrDefault, member_received, h, Option.map_some, received_str]

theorem getObjectOrEmpty_received (h : d.getItem k = some v) (hv : v.isDict) :
    getObjectOrEmpty (received f d) k = received f v := by
  obtain ⟨ms, hm⟩ := Gateway.received_of_isDict (f := f) hv
  rw [getObjectOrEmpty, member_received, h, Option.map_some, hm]

theorem not_isEmpty_of_member {ν : Type} {v w : Json ν} {k : String} (h : member v k = some w) :
    isEmpty v = false := by
  unfold isEmpty
  split
  case h_1 => cases h
  case h_2 => rfl

end Received

section Delivery

variable {d : ControlPlane.Dispatcher} {command : ControlPlane.QueuedCommand}
variable {policyDecision compliance : List (String × Value)} {seq t : Int}
variable {r : Gateway.CommandDispatchRequest} {cfg : Gateway.Settings}
variable {stamp : Gateway.DeliveryStamp} {sessionId : String} {m : Value} {msg : Json Number}

theorem received_delivery (hr : d.request command policyDecision compliance seq t = some r)
    (hb : buildCommandDelivery cfg stamp r.modelDump sessionId = some m)
    (f : Gateway.Number → Number) :
    getStringOrDefault (received f m) "message_id" "" = "m-cmd-delivery-" ++ stamp.id ∧
      ∃ e : Value, deliveredEnvelope (received f m) = received f e ∧
        isEmpty (received f e) = false ∧ Gateway.Signed cfg e ∧
        (∀ p, m.json.Nums p → e.json.Nums p) ∧
        getStringOrDefault (received f e) "message_id" "" = command.id ∧
        getStringOrDefault (getObjectOrEmpty (received f e) "header") "timestamp" "" =
          ControlPlane.toIso8601String t := by
  obtain ⟨hi, hq, hv⟩ := ControlPlane.Dispatcher.getItem_request hr
  obtain ⟨hm, _, deviceId, body, e₀, e, hb, he, hs, hc, hk⟩ :=
    Gateway.getItem_buildCommandDelivery hb
  have hid := (hk _ (by decide)).trans (Gateway.getItem_commandEnvelope hi hq hc).left
  obtain ⟨hd, hh, ht⟩ := Gateway.getItem_commandEnvelope_header hv
    ControlPlane.Dispatcher.getItem_envelope ControlPlane.Dispatcher.getItem_header hc
  replace hh := (hk _ (by decide)).trans hh
  have hn : member (received f e) "message_id" = some (received f (.str command.id)) := by
    rw [member_received, hid, Option.map_some]
  refine ⟨getStringOrDefault_received hm _, e, ?_, not_isEmpty_of_member hn, hs, fun p hp => ?_,
    getStringOrDefault_received hid _, ?_⟩
  · rw [deliveredEnvelope, getObjectOrEmpty_received hb (isDict_of_getItem he),
      getObjectOrEmpty_received he (isDict_of_getItem hid)]
  · exact Gateway.nums_of_getItem he (Gateway.nums_of_getItem hb hp)
  · rw [getObjectOrEmpty_received hh (isDict_of_getItem ht)]
    exact getStringOrDefault_received ht _

variable {client : Client} {s : Store} {now : Int}

theorem not_isExpired_of_toIso8601String {header : Json Number}
    (h : getStringOrDefault header "timestamp" "" = ControlPlane.toIso8601String t) (now : Int) :
    isExpired header now = false := by
  simp [isExpired, h, parseIsoTimestamp_toIso8601String]

theorem handled_iff (hr : d.request command policyDecision compliance seq t = some r)
    (hb : buildCommandDelivery cfg stamp r.modelDump sessionId = some m)
    (hp : parseWith client.environment.readNumber
      (dumps Gateway.Number.format false m.json) = some msg) :
    (∃ c, client.handleCommandDelivery s now msg = .handled c) ↔
      verifyControllerSig client.environment (deliveredEnvelope msg) ∧
        s.lastDeliveryId ≠ "m-cmd-delivery-" ++ stamp.id ∧
        s.getProcessedCommand command.id = none := by
  obtain ⟨f, hf⟩ := parseWith_print_eq_some hp
  obtain ⟨hm, e, hd, he, _, _, hi, ht⟩ := received_delivery hr hb f
  have hx := not_isExpired_of_toIso8601String ht now
  rw [← show msg = received f m from hf] at hm hd
  rw [← hd] at he hi hx
  simp only [Client.handleCommandDelivery, he, hm, hi, hx]
  by_cases hv : verifyControllerSig client.environment (deliveredEnvelope msg)
  case neg => simp [hv]
  by_cases hl : "m-cmd-delivery-" ++ stamp.id = s.lastDeliveryId
  case pos => simp [hv, ← hl]
  cases hc : s.getProcessedCommand command.id
  case none => simp [hv, hl, Ne.symm hl]
  case some => simp [hv, hl]

theorem verifyControllerSig_deliveredEnvelope {key : Gateway.SigningKey}
    (hk : cfg.signingKey = some key) (he : client.environment.controllerKey = some key.verify)
    (hr : d.request command policyDecision compliance seq t = some r)
    (hb : buildCommandDelivery cfg stamp r.modelDump sessionId = some m)
    (hn : m.json.Nums client.environment.Preserves) :
    ∃ msg, parseWith client.environment.readNumber
        (dumps Gateway.Number.format false m.json) = some msg ∧
      verifyControllerSig client.environment (deliveredEnvelope msg) := by
  obtain ⟨f, hf, hp⟩ := parseWith_dumps hn
  obtain ⟨_, e, hd, _, ⟨sig, hs, hc⟩, hm, _⟩ := received_delivery hr hb f
  refine ⟨received f m, hp, ?_⟩
  rw [hd, verifyControllerSig_received he (hm _ hf) hs]
  rw [Gateway.computeSig, hk, Option.some.injEq] at hc
  exact hc ▸ key.verify_sign _

end Delivery

def exampleDispatcher : ControlPlane.Dispatcher :=
  ⟨"v1", "h1", fun _ => "sig"⟩

def lockScreen : ControlPlane.QueuedCommand :=
  ControlPlane.DispatchJob.lockScreen.command

def exampleClient : Client :=
  ⟨Gateway.plainEnvironment, "dev-1", "h1"⟩

theorem verifyControllerSig_lockScreen :
    ∃ r m msg, exampleDispatcher.request lockScreen [] [] 1 0 = some r ∧
      buildCommandDelivery plainSettings stamp r.modelDump "s-1" = some m ∧
      parseWith exampleClient.environment.readNumber
        (dumps Gateway.Number.format false m.json) = some msg ∧
      verifyControllerSig exampleClient.environment (deliveredEnvelope msg) := by
  have hr : exampleDispatcher.request lockScreen [] [] 1 0 = some _ := rfl
  obtain ⟨msg, hp, hv⟩ := verifyControllerSig_deliveredEnvelope rfl
    (show exampleClient.environment.controllerKey = some _ from rfl) hr
    (show buildCommandDelivery plainSettings stamp _ "s-1" = some _ from rfl)
    (by decide)
  exact ⟨_, _, msg, hr, rfl, hp, hv⟩

end Agent
