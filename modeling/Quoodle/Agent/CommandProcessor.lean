import Quoodle.Agent.StateStore
import Quoodle.Data.Window

-- The commands that are delivered to the agent while it runs and is started again.
namespace Agent

open Json (insertBy byteLt)
open Json.Nlohmann
open Window (Event Log last remembered)

structure CommandRequest where
  commandId : String
  method : String
  params : Json Number
  policyHash : String

-- Models `params["enabled"] = enabled`.
def setEnabled (params : Json Number) (enabled : Bool) : Json Number :=
  match params with
  | .obj ms => .obj (insertBy byteLt "enabled" (.bool enabled) ms)
  | v => v

def CommandEnvelope.request (command : CommandEnvelope) : CommandRequest where
  commandId := command.commandId
  method := command.method
  params :=
    if command.method = "enable_input" then setEnabled command.params true
    else if command.method = "disable_input" then setEnabled command.params false
    else command.params
  policyHash := command.policyHash

def CommandEnvelope.processed (command : CommandEnvelope) (result : ExecutionResult) :
    ProcessedCommand where
  commandId := command.commandId
  requiresAck := command.requiresAck
  ackStatus := if command.requiresAck then "received" else ""
  ackReason := ""
  result := result

-- Models `CommandProcessor::Handle`, given what `Execute` returns.
def Store.handle (s : Store) (outOfOrder : Bool) (command : CommandEnvelope)
    (result : ExecutionResult) : Store :=
  let acks : List OutboxItem :=
    if command.requiresAck then [.ack command.commandId command.deviceId "received" ""] else []
  let results : List OutboxItem := [.result command.commandId command.deviceId result]
  ((s.setLastDeliveryId command.deliveryId).enqueue
    (if outOfOrder then results ++ acks else acks ++ results)).rememberCommand
    (command.processed result)

namespace Store

variable {s : Store} {p : ProcessedCommand} {id : String}

theorem notMem_of_getProcessedCommand (h : s.getProcessedCommand id = none) (hi : id ≠ "") :
    id ∉ s.processedCommands.map ProcessedCommand.commandId := by
  rw [getProcessedCommand, if_neg hi, List.find?_eq_none] at h
  intro hm
  obtain ⟨p, hp, rfl⟩ := List.mem_map.mp hm
  exact h p hp (by simp)

theorem getProcessedCommand_of_mem (hp : p ∈ s.processedCommands) (hi : p.commandId ≠ "")
    (hn : (s.processedCommands.map ProcessedCommand.commandId).Nodup) :
    s.getProcessedCommand p.commandId = some p := by
  rw [getProcessedCommand, if_neg hi]
  obtain ⟨q, hq⟩ : ∃ q, s.processedCommands.find? (·.commandId = p.commandId) = some q :=
    Option.isSome_iff_exists.mp (List.find?_isSome.mpr ⟨p, hp, by simp⟩)
  have he : q.commandId = p.commandId := by simpa using List.find?_some hq
  rw [hq, List.inj_on_of_nodup_map hn (List.mem_of_find?_eq_some hq) hp he]

theorem processedCommands_rememberCommand (hi : p.commandId ≠ "")
    (hn : p.commandId ∉ s.processedCommands.map ProcessedCommand.commandId) :
    (s.rememberCommand p).processedCommands =
      last maxProcessedCommands (s.processedCommands ++ [p]) := by
  have hf : s.processedCommands.findIdx? (·.commandId = p.commandId) = none := by
    rw [List.findIdx?_eq_none_iff]
    exact fun q hq => decide_eq_false fun he => hn (he ▸ List.mem_map_of_mem hq)
  simp only [rememberCommand, if_neg hi, hf]
  rfl

@[simp]
theorem processedCommands_setLastDeliveryId :
    (s.setLastDeliveryId id).processedCommands = s.processedCommands := by
  unfold setLastDeliveryId
  split <;> rfl

@[simp]
theorem outbox_setLastDeliveryId : (s.setLastDeliveryId id).outbox = s.outbox := by
  unfold setLastDeliveryId
  split <;> rfl

end Store

namespace CommandProcessor

structure State where
  sequence : Int64
  policyHash : String
  store : Store
  file : Option (List Char)
  -- The runs of `Handle` and what was remembered, for commands that have an identifier.
  log : List (Event ProcessedCommand String)

def State.agent (s : State) : AgentStateStore :=
  ⟨s.sequence, s.policyHash, s.store.lastDeliveryId, s.store.processedCommands⟩

def State.saveIf (s : State) (c : Bool) : State :=
  if c then { s with file := some s.agent.text } else s

@[simp]
theorem State.store_saveIf (s : State) (c : Bool) : (s.saveIf c).store = s.store := by
  cases c <;> rfl

@[simp]
theorem State.log_saveIf (s : State) (c : Bool) : (s.saveIf c).log = s.log := by
  cases c <;> rfl

-- What the daemon answers, and the sequence number if one is drawn for the request to it.
structure Execution where
  execute : CommandRequest → ExecutionResult
  stored : ∀ r, Stored (execute r).result
  sequence : Option Int64

inductive Action where
  | deliver (msg : Json Number) (now : Int) (e : Execution)
  -- Everything is read from the files. What is in the outbox does not matter.
  | restart (outbox : List OutboxItem)
  -- Whatever else the agent does with its state between deliveries.
  | other (sequence : Int64) (policyHash : String) (outbox : List OutboxItem)

structure Config where
  client : Client
  outOfOrder : Bool

def deliveryId (msg : Json Number) : String :=
  getStringOrDefault msg "message_id" ""

def commandId (msg : Json Number) : String :=
  getStringOrDefault (deliveredEnvelope msg) "message_id" ""

def requiresAck (msg : Json Number) : Bool :=
  getBoolOrDefault (getObjectOrEmpty (deliveredEnvelope msg) "header") "requires_ack" true

def expiredCommand (msg : Json Number) : ProcessedCommand where
  commandId := commandId msg
  requiresAck := requiresAck msg
  ackStatus := if requiresAck msg then "rejected" else ""
  ackReason := if requiresAck msg then "expired_ttl" else ""
  result := ⟨"failed", "error", "", "ERR_EXECUTION_FAILED", "expired_ttl", .obj []⟩

def record (handled : Bool) (p : ProcessedCommand) : List (Event ProcessedCommand String) :=
  if p.commandId = "" then []
  else (if handled then [.run p.commandId] else []) ++ [.remember p]

def deliver (cfg : Config) (s : State) (msg : Json Number) (now : Int) (e : Execution) : State :=
  match cfg.client.handleCommandDelivery s.store now msg with
  | .refused | .repeated => s
  | .resent store => { s with store }.saveIf (deliveryId msg ≠ "")
  | .expired store =>
    { s with store, log := s.log ++ record false (expiredCommand msg) }.saveIf
      (deliveryId msg ≠ "" || commandId msg ≠ "")
  | .handled command =>
    let result := e.execute command.request
    { s with
      sequence := e.sequence.getD s.sequence
      store := s.store.handle cfg.outOfOrder command result
      log := s.log ++ record true (command.processed result) }.saveIf
      (deliveryId msg ≠ "" || commandId msg ≠ "" || e.sequence.isSome)

def noFaults : AgentStateStore.Faults :=
  ⟨true, .empty, true, true⟩

def step (cfg : Config) (s : State) : Action → Option State
  | .deliver msg now e => some (deliver cfg s msg now e)
  | .restart outbox =>
    let a := AgentStateStore.start noFaults s.file
    some { s with
      sequence := a.sequence
      policyHash := a.policyHash
      store := ⟨a.lastDeliveryId, a.processedCommands, outbox⟩ }
  | .other sequence policyHash outbox =>
    some ({ s with sequence, policyHash, store := { s.store with outbox } }.saveIf true)

structure Initial (s : State) : Prop where
  agent : s.agent = .empty
  file : s.file = none
  log : s.log = []

section Handling

variable {c : Client} {s : Store} {now : Int} {msg : Json Number}

theorem handleCommandDelivery_cases (c : Client) (s : Store) (now : Int) (msg : Json Number) :
    c.handleCommandDelivery s now msg = .refused ∨ c.handleCommandDelivery s now msg = .repeated ∨
      (∃ cached, s.getProcessedCommand (commandId msg) = some cached ∧
        c.handleCommandDelivery s now msg =
          .resent ((s.enqueue (c.resend cached)).setLastDeliveryId (deliveryId msg))) ∨
      s.getProcessedCommand (commandId msg) = none ∧
        (c.handleCommandDelivery s now msg =
            .expired (c.reject (s.setLastDeliveryId (deliveryId msg)) (commandId msg)
              (requiresAck msg)) ∨
          ∃ command, command.commandId = commandId msg ∧ command.deliveryId = deliveryId msg ∧
            c.handleCommandDelivery s now msg = .handled command) := by
  simp only [Client.handleCommandDelivery]
  split
  case isTrue => exact .inl rfl
  split
  case isTrue => exact .inl rfl
  split
  case isTrue => exact .inr (.inl rfl)
  split
  case h_1 cached hc => exact .inr (.inr (.inl ⟨cached, hc, rfl⟩))
  case h_2 hc =>
    refine .inr (.inr (.inr ⟨hc, ?_⟩))
    split
    case isTrue => exact .inl rfl
    case isFalse => exact .inr ⟨_, rfl, rfl, rfl⟩

theorem resent_of_getProcessedCommand {cached : ProcessedCommand}
    (he : isEmpty (deliveredEnvelope msg) = false)
    (hv : verifyControllerSig c.environment (deliveredEnvelope msg))
    (hl : deliveryId msg = "" ∨ deliveryId msg ≠ s.lastDeliveryId)
    (hc : s.getProcessedCommand (commandId msg) = some cached) :
    c.handleCommandDelivery s now msg =
      .resent ((s.enqueue (c.resend cached)).setLastDeliveryId (deliveryId msg)) := by
  have hn : ¬(deliveryId msg ≠ "" ∧ deliveryId msg = s.lastDeliveryId) := by
    rintro ⟨h₁, h₂⟩
    exact hl.elim h₁ fun h => h h₂
  unfold commandId at hc
  unfold deliveryId at hn
  simp only [Client.handleCommandDelivery, he, hv, hc, if_neg hn]
  rfl

end Handling

-- The file is what the state is read from again.
structure Consistent (s : State) : Prop where
  persisted : s.file = some s.agent.text ∨ s.file = none ∧ s.agent = .empty
  valid : ∀ p ∈ s.store.processedCommands, p.Valid
  window : s.store.processedCommands = last Store.maxProcessedCommands (remembered s.log)
  log : Log ProcessedCommand.commandId Store.maxProcessedCommands s.log

section Step

variable {cfg : Config} {s s' : State}

theorem Initial.consistent (h : Initial s) : Consistent s := by
  have hp : s.store.processedCommands = [] :=
    congrArg AgentStateStore.processedCommands h.agent
  constructor
  case persisted => exact .inr ⟨h.file, h.agent⟩
  case valid => simp [hp]
  case window => simp [hp, h.log, last]
  case log => exact h.log ▸ .nil

namespace Consistent

theorem valid_agent (h : Consistent s) : s.agent.Valid where
  commands := h.valid
  length := by
    show s.store.processedCommands.length ≤ _
    rw [h.window, Window.length_last]
    exact min_le_left _ _

theorem start_eq (h : Consistent s) : AgentStateStore.start noFaults s.file = s.agent := by
  obtain hf | ⟨hf, he⟩ := h.persisted
  · simp only [hf, AgentStateStore.start, AgentStateStore.read, noFaults, ↓reduceIte,
      AgentStateStore.load_text h.valid_agent]
  · rw [hf, he]
    rfl

theorem saveIf {b : Bool} (h : Consistent s) (hv : ∀ p ∈ s'.store.processedCommands, p.Valid)
    (hw : s'.store.processedCommands = last Store.maxProcessedCommands (remembered s'.log))
    (hl : Log ProcessedCommand.commandId Store.maxProcessedCommands s'.log)
    (hb : b = false → s'.agent = s.agent ∧ s'.file = s.file) : Consistent (s'.saveIf b) := by
  cases b
  case true => exact ⟨.inl rfl, hv, hw, hl⟩
  case false =>
    obtain ⟨ha, hf⟩ := hb rfl
    refine ⟨?_, hv, hw, hl⟩
    show s'.file = some s'.agent.text ∨ s'.file = none ∧ s'.agent = .empty
    rw [ha, hf]
    exact h.persisted

theorem remember {st : Store} {p : ProcessedCommand} {n : Int64} {handled b : Bool}
    (h : Consistent s) (hn : s.store.getProcessedCommand p.commandId = none)
    (hp : st.processedCommands = s.store.processedCommands) (hr : Stored p.result.result)
    (hb : b = false → p.commandId = "" ∧ n = s.sequence ∧
      st.lastDeliveryId = s.store.lastDeliveryId) :
    Consistent ({ s with
      sequence := n, store := st.rememberCommand p, log := s.log ++ record handled p }.saveIf b) := by
  by_cases hi : p.commandId = ""
  case pos =>
    have hs : st.rememberCommand p = st := if_pos hi
    have hl : record handled p = [] := if_pos hi
    rw [hs, hl, List.append_nil]
    refine h.saveIf (hp ▸ h.valid) (hp.trans h.window) h.log fun hf => ?_
    obtain ⟨_, rfl, hd⟩ := hb hf
    exact ⟨by simp only [State.agent, hp, hd], rfl⟩
  case neg =>
    have hm := Store.notMem_of_getProcessedCommand hn hi
    have hc : (st.rememberCommand p).processedCommands =
        last Store.maxProcessedCommands (s.store.processedCommands ++ [p]) :=
      hp ▸ Store.processedCommands_rememberCommand hi (hp.symm ▸ hm)
    have hrec : remembered (s.log ++ record handled p) = remembered s.log ++ [p] := by
      cases handled <;> simp [record, hi]
    refine h.saveIf ?_ ?_ ?_ fun hf => absurd (hb hf).left hi
    · show ∀ q ∈ (st.rememberCommand p).processedCommands, q.Valid
      rw [hc]
      intro q hq
      cases List.mem_append.mp (Window.last_suffix.subset hq)
      case inl hq => exact h.valid q hq
      case inr hq => exact List.mem_singleton.mp hq ▸ ⟨hi, hr⟩
    · show (st.rememberCommand p).processedCommands = last _ (remembered (s.log ++ record handled p))
      rw [hc, hrec, h.window, Window.last_last_append]
    · rw [h.window] at hm
      cases handled
      case true => simpa [record, hi] using h.log.run hm
      case false => simpa [record, hi] using h.log.remember hm

theorem deliver {msg : Json Number} {now : Int} {e : Execution} (h : Consistent s) :
    Consistent (deliver cfg s msg now e) := by
  have hset (hd : deliveryId msg = "") : s.store.setLastDeliveryId (deliveryId msg) = s.store := by
    rw [hd]
    rfl
  unfold CommandProcessor.deliver
  obtain hc | hc | ⟨cached, _, hc⟩ | ⟨hn, hc | ⟨command, hi, hd, hc⟩⟩ :=
    handleCommandDelivery_cases cfg.client s.store now msg
  · rw [hc]
    exact h
  · rw [hc]
    exact h
  · rw [hc]
    refine h.saveIf ?_ ?_ h.log fun hb => ?_
    · simpa [Store.enqueue] using h.valid
    · simpa [Store.enqueue] using h.window
    · have hd : deliveryId msg = "" := by simpa using hb
      rw [hd]
      exact ⟨rfl, rfl⟩
  · rw [hc]
    refine @remember s (s.store.setLastDeliveryId (deliveryId msg) |>.enqueue _) (expiredCommand msg)
      s.sequence false _ h hn (by simp [Store.enqueue]) ?_ fun hb => ?_
    · exact (show Stored (.obj []) by decide)
    · obtain ⟨hd, hi⟩ : deliveryId msg = "" ∧ commandId msg = "" := by simpa using hb
      exact ⟨hi, rfl, by rw [Store.enqueue, hset hd]⟩
  · rw [hc]
    refine @remember s (s.store.setLastDeliveryId command.deliveryId |>.enqueue _)
      (command.processed (e.execute command.request)) (e.sequence.getD s.sequence) true _ h ?_
      (by simp [Store.enqueue]) (e.stored _) fun hb => ?_
    · exact (congrArg s.store.getProcessedCommand hi).trans hn
    · obtain ⟨⟨hd', hi'⟩, hs⟩ :
          (deliveryId msg = "" ∧ commandId msg = "") ∧ e.sequence = none := by simpa using hb
      refine ⟨hi.trans hi', by rw [hs, Option.getD_none], ?_⟩
      rw [Store.enqueue, hd, hset hd']

theorem step {a : Action} (h : Consistent s) (hs : step cfg s a = some s') : Consistent s' := by
  cases a
  case deliver =>
    cases hs
    exact h.deliver
  case restart outbox =>
    simp only [CommandProcessor.step, h.start_eq, Option.some.injEq] at hs
    subst hs
    exact ⟨h.persisted, h.valid, h.window, h.log⟩
  case other =>
    cases hs
    exact ⟨.inl rfl, h.valid, h.window, h.log⟩

end Consistent

end Step

-- A command is handled again only after 256 others were remembered, and what is still remembered is
-- sent again unless the delivery is the last one once more.
theorem handled_once {cfg : Config} {s₀ s : State} {as : List Action} (hi : Initial s₀)
    (h : Transition.run (step cfg) s₀ as = some s) :
    (∀ id l₁ l₂ l₃, s.log = l₁ ++ .run id :: (l₂ ++ .run id :: l₃) →
      256 ≤ (((remembered l₂).map ProcessedCommand.commandId).filter (· ≠ id)).toFinset.card) ∧
    ∀ p ∈ last 256 (remembered s.log), ∀ msg now e, p.commandId = commandId msg →
      isEmpty (deliveredEnvelope msg) = false →
      verifyControllerSig cfg.client.environment (deliveredEnvelope msg) →
      (deliveryId msg = "" ∨ deliveryId msg ≠ s.store.lastDeliveryId) →
      (deliver cfg s msg now e).log = s.log ∧
        ∃ acks, (deliver cfg s msg now e).store.outbox =
          s.store.outbox ++ acks ++ [.result p.commandId cfg.client.deviceId p.result] := by
  have hc : Consistent s := Transition.run_invariant (fun h hs => h.step hs) h hi.consistent
  refine ⟨fun id l₁ l₂ l₃ hl => hc.log.le_card hl, fun p hp msg now e hm he hv hd => ?_⟩
  have hp' : p ∈ s.store.processedCommands := hc.window ▸ hp
  have hn : (s.store.processedCommands.map ProcessedCommand.commandId).Nodup :=
    hc.window ▸ hc.log.nodup
  have hg := Store.getProcessedCommand_of_mem hp' (hc.valid p hp').commandId hn
  have hr := @resent_of_getProcessedCommand cfg.client s.store now msg p he hv hd (hm ▸ hg)
  rw [deliver, hr]
  refine ⟨State.log_saveIf _ _, ?_⟩
  simp only [State.store_saveIf, Store.outbox_setLastDeliveryId, Store.enqueue, Client.resend]
  exact ⟨_, (List.append_assoc _ _ _).symm⟩

def exampleConfig : Config :=
  ⟨exampleClient, false⟩

def started : State :=
  ⟨0, "", ⟨"", [], []⟩, none, []⟩

def lockScreenDelivery (deliveryId : String) : Json Number :=
  let envelope : List (String × Json Number) :=
    [("body", .obj [("method", .str "lock_screen")]), ("message_id", .str "cmd-1")]
  let sig := Gateway.plainKey.sign (canonicalizeWss Number.format (.obj envelope))
  .obj [
    ("body", .obj [("command_envelope", .obj (envelope ++ [("sig", .str sig)]))]),
    ("message_id", .str deliveryId)
  ]

def succeeds : Execution :=
  ⟨fun _ => ⟨"completed", "ok", "exec-1", "", "", .obj []⟩, fun _ => by decide, some 1⟩

-- A command is delivered again after the agent was started again.
theorem handled_once_restarted : ∃ as s p, Transition.run (step exampleConfig) started as = some s ∧
    p ∈ last 256 (remembered s.log) ∧ p.commandId = "cmd-1" ∧
    (deliver exampleConfig s (lockScreenDelivery "m-2") 1 succeeds).log = s.log ∧
    ∃ acks, (deliver exampleConfig s (lockScreenDelivery "m-2") 1 succeeds).store.outbox =
      s.store.outbox ++ acks ++ [.result p.commandId "dev-1" p.result] := by
  let as : List Action := [.deliver (lockScreenDelivery "m-1") 0 succeeds, .restart []]
  have hx : (Transition.run (step exampleConfig) started as).any fun s =>
      s.store.lastDeliveryId = "m-1" &&
        (last 256 (remembered s.log)).any (·.commandId = "cmd-1") := by
    decide +kernel
  simp only [Option.any_eq_true, Bool.and_eq_true, decide_eq_true_eq, List.any_eq_true] at hx
  obtain ⟨s, hs, hd, p, hp, hc⟩ := hx
  have h := (handled_once ⟨rfl, rfl, rfl⟩ hs).right p hp (lockScreenDelivery "m-2") 1 succeeds
    (hc.trans (by decide)) (by decide) (by decide)
    (.inr (by rw [hd]; decide))
  exact ⟨as, s, p, hs, hp, hc, h⟩

end CommandProcessor

end Agent
