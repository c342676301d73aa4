import Quoodle.Agent.Deliveries
import Quoodle.Data.DurableCounter

-- What the agent keeps in its state file.
namespace Agent

open Json.Nlohmann

def ExecutionResult.toJson (r : ExecutionResult) : Json Number :=
  .obj [
    ("execution_state", .str r.executionState),
    ("status", .str r.status),
    ("exec_id", .str r.execId),
    ("error_type", .str r.errorType),
    ("error_message", .str r.errorMessage),
    ("result", r.result)
  ]

def ExecutionResult.fromJson (src : Json Number) : ExecutionResult where
  executionState := getStringOrDefault src "execution_state" ""
  status := getStringOrDefault src "status" ""
  execId := getStringOrDefault src "exec_id" ""
  errorType := getStringOrDefault src "error_type" ""
  errorMessage := getStringOrDefault src "error_message" ""
  result := (member src "result").getD .null

def ProcessedCommand.toJson (c : ProcessedCommand) : Json Number :=
  .obj [
    ("command_id", .str c.commandId),
    ("requires_ack", .bool c.requiresAck),
    ("ack_status", .str c.ackStatus),
    ("ack_reason", .str c.ackReason),
    ("result", c.result.toJson)
  ]

-- Entries that are not objects or have no identifier are skipped.
def ProcessedCommand.fromJson (entry : Json Number) : Option ProcessedCommand :=
  let item : ProcessedCommand := {
    commandId := getStringOrDefault entry "command_id" ""
    requiresAck := getBoolOrDefault entry "requires_ack" true
    ackStatus := getStringOrDefault entry "ack_status" ""
    ackReason := getStringOrDefault entry "ack_reason" ""
    result :=
      match member entry "result" with
      | some (.obj ms) => .fromJson (.obj ms)
      | _ => ⟨"", "", "", "", "", .null⟩ }
  if item.commandId = "" then none else some item

structure AgentStateStore where
  sequence : Int64
  policyHash : String
  lastDeliveryId : String
  processedCommands : List ProcessedCommand

namespace AgentStateStore

def empty : AgentStateStore :=
  ⟨0, "", "", []⟩

def sequenceNumber (n : Int64) : Number :=
  .integer ⟨n.toInt, n.le_toInt, n.toInt_lt.trans (by decide)⟩

def toJson (s : AgentStateStore) : Json Number :=
  .obj [
    ("sequence", .num (sequenceNumber s.sequence)),
    ("policy_hash", .str s.policyHash),
    ("last_delivery_id", .str s.lastDeliveryId),
    ("processed_commands", .arr (s.processedCommands.map ProcessedCommand.toJson))
  ]

def text (s : AgentStateStore) : List Char :=
  Json.print .minimal Number.format (ofJson s.toJson)

-- Models `Load` of a file with this text. Whatever is missing in it stays as it is, except the commands.
def load (s : AgentStateStore) (text : List Char) : AgentStateStore :=
  match parse text with
  | none => s
  | some parsed => {
      sequence :=
        match member parsed "sequence" with
        | some (.num (.integer n)) => .ofInt n.val
        | _ => s.sequence
      policyHash := getStringOrDefault parsed "policy_hash" s.policyHash
      lastDeliveryId := getStringOrDefault parsed "last_delivery_id" s.lastDeliveryId
      processedCommands :=
        match member parsed "processed_commands" with
        | some (.arr entries) =>
          let commands := entries.filterMap ProcessedCommand.fromJson
          commands.drop (commands.length - Store.maxProcessedCommands)
        | _ => [] }

end AgentStateStore

section OfJson

variable {v : Json Number} {k : String}

theorem getStringOrDefault_ofJson (h : v.Distinct) (fallback : String) :
    getStringOrDefault (ofJson v) k fallback = getStringOrDefault v k fallback := by
  rw [getStringOrDefault, member_ofJson h, getStringOrDefault]
  cases member v k
  case none => rfl
  case some w => cases w <;> simp [ofJson]

theorem getBoolOrDefault_ofJson (h : v.Distinct) (fallback : Bool) :
    getBoolOrDefault (ofJson v) k fallback = getBoolOrDefault v k fallback := by
  rw [getBoolOrDefault, member_ofJson h, getBoolOrDefault]
  cases member v k
  case none => rfl
  case some w => cases w <;> simp [ofJson]

theorem ofJson_obj (ms : List (String × Json Number)) : ∃ ns, ofJson (.obj ms) = .obj ns := by
  simp only [ofJson, Json.fold_obj, Json.obj.injEq]
  exact ⟨_, rfl⟩

theorem ofJson_arr (vs : List (Json Number)) : ofJson (.arr vs) = .arr (vs.map ofJson) := by
  simp [ofJson]

theorem ofJson_num (n : Number) : ofJson (.num n) = .num n := by
  simp [ofJson]

end OfJson

namespace ExecutionResult

variable {r : ExecutionResult}

theorem distinct_toJson (h : Stored r.result) : r.toJson.Distinct := by
  refine Json.Distinct.obj_iff.mpr ⟨by simp [Json.keys], ?_⟩
  simp [h.distinct]

theorem fromJson_toJson (h : Stored r.result) : fromJson (ofJson r.toJson) = r := by
  have hd := distinct_toJson h
  simp only [fromJson, getStringOrDefault_ofJson hd, member_ofJson hd]
  simp [getStringOrDefault, toJson, member, List.lookup, h.ofJson_eq]

end ExecutionResult

namespace ProcessedCommand

variable {c : ProcessedCommand}

structure Valid (c : ProcessedCommand) : Prop where
  commandId : c.commandId ≠ ""
  result : Stored c.result.result

theorem distinct_toJson (h : c.Valid) : c.toJson.Distinct := by
  refine Json.Distinct.obj_iff.mpr ⟨by simp [Json.keys], ?_⟩
  simp [ExecutionResult.distinct_toJson h.result]

theorem fromJson_toJson (h : c.Valid) : fromJson (ofJson c.toJson) = some c := by
  have hd := distinct_toJson h
  obtain ⟨ms, hm⟩ := ofJson_obj [
    ("execution_state", .str c.result.executionState), ("status", .str c.result.status),
    ("exec_id", .str c.result.execId), ("error_type", .str c.result.errorType),
    ("error_message", .str c.result.errorMessage), ("result", c.result.result)]
  have hr : ExecutionResult.fromJson (.obj ms) = c.result :=
    hm ▸ ExecutionResult.fromJson_toJson h.result
  have hl : member c.toJson "result" = some c.result.toJson := by
    simp [toJson, member, List.lookup]
  simp only [fromJson, getStringOrDefault_ofJson hd, getBoolOrDefault_ofJson hd, member_ofJson hd, hl,
    Option.map_some, ExecutionResult.toJson, hm, hr]
  simp [getStringOrDefault, getBoolOrDefault, toJson, member, List.lookup, h.commandId]

end ProcessedCommand

namespace AgentStateStore

variable {s : AgentStateStore}

structure Valid (s : AgentStateStore) : Prop where
  commands : ∀ c ∈ s.processedCommands, c.Valid
  length : s.processedCommands.length ≤ Store.maxProcessedCommands

theorem distinct_toJson (h : ∀ c ∈ s.processedCommands, c.Valid) : s.toJson.Distinct := by
  refine Json.Distinct.obj_iff.mpr ⟨by simp [Json.keys], ?_⟩
  simpa using fun c hc => ProcessedCommand.distinct_toJson (h c hc)

theorem parse_text (s : AgentStateStore) : parse s.text = some (ofJson s.toJson) :=
  parse_print (stored_ofJson _)

theorem sequence_load_text (h : ∀ c ∈ s.processedCommands, c.Valid) (t : AgentStateStore) :
    (t.load s.text).sequence = s.sequence := by
  simp only [load, parse_text, member_ofJson (distinct_toJson h)]
  simp [toJson, member, List.lookup, ofJson_num, sequenceNumber]

theorem load_text (h : s.Valid) (t : AgentStateStore) : t.load s.text = s := by
  have hd := distinct_toJson h.commands
  have hc : s.processedCommands.filterMap (fun c => ProcessedCommand.fromJson (ofJson c.toJson)) =
      s.processedCommands :=
    (List.filterMap_congr fun c hc => ProcessedCommand.fromJson_toJson (h.commands c hc)).trans
      List.filterMap_some
  have hl : s.processedCommands.length - Store.maxProcessedCommands = 0 :=
    Nat.sub_eq_zero_of_le h.length
  simp only [load, parse_text, getStringOrDefault_ofJson hd, member_ofJson hd]
  simp [getStringOrDefault, toJson, member, List.lookup, ofJson_arr, ofJson_num, hc, hl,
    sequenceNumber]

-- What happens when the file is written or read. It is replaced as a whole or not at all.
structure Faults where
  saved : Bool
  rest : AgentStateStore
  -- The file is read twice when the agent is started.
  stateLoaded : Bool
  replayLoaded : Bool

def read (s : AgentStateStore) (file : Option (List Char)) (ok : Bool) : AgentStateStore :=
  match file with
  | some text => if ok then s.load text else s
  | none => s

def start (o : Faults) (file : Option (List Char)) : AgentStateStore :=
  (empty.read file o.stateLoaded).read file o.replayLoaded

def Holds (file : Option (List Char)) (n : Int) : Prop :=
  (∃ s : AgentStateStore, (∀ c ∈ s.processedCommands, c.Valid) ∧ file = some s.text ∧
    n = s.sequence.toInt) ∨ file = none ∧ n = 0

theorem toInt_add_one {n : Int} (h : 0 ≤ n) (hn : n + 1 < 2 ^ 63) :
    (Int64.ofInt n + 1).toInt = n + 1 := by
  have he : Int64.ofInt n + 1 = Int64.ofInt (n + 1) := (Int64.ofInt_add n 1).symm
  rw [he, Int64.toInt_ofInt_of_le (by omega) hn]

theorem sequence_start {o : Faults} {file : Option (List Char)} {n : Int}
    (ho : o.stateLoaded ∨ o.replayLoaded) (h : Holds file n) : (start o file).sequence.toInt = n := by
  obtain ⟨s, hc, rfl, rfl⟩ | ⟨rfl, rfl⟩ := h
  · congr 1
    simp only [start, read]
    split
    case isTrue => exact sequence_load_text hc _
    case isFalse hr =>
      rw [if_pos (ho.resolve_right hr)]
      exact sequence_load_text hc _
  · rfl

def storage : DurableCounter.Storage (Option (List Char)) Faults where
  next n := (Int64.ofInt n + 1).toInt
  bound := 2 ^ 63
  next_of_lt := toInt_add_one
  persist o n file := if o.saved then some { o.rest with sequence := .ofInt n }.text else file
  load o file := (start o file).sequence.toInt
  Holds := Holds
  Readable o := o.stateLoaded ∨ o.replayLoaded
  load_of_holds := sequence_start

end AgentStateStore

end Agent
