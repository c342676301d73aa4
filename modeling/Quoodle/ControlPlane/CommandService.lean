import Quoodle.ControlPlane.Commands
import Quoodle.ControlPlane.Policy

-- What becomes of a request to run a command on a device.
namespace ControlPlane

open Gateway (Value)

structure QueuedCommand extends Command Value where
  clientMessageId : String
  userId : String
  method : String
  params : Value
  sensitive : Bool
  traceId : String
  queuedAt : Int
  ttlSeconds : Int

structure CommandRequest where
  clientMessageId : String
  deviceId : String
  method : String
  params : Value
  sensitive : Bool
  twoFactorCode : Option String
  policyHash : Option String
  attestationStatus : Option String
  lastUpdateState : Option String
  clockSkewSeconds : Option Int

structure Database where
  tables : Tables
  users : List User
  grants : List (String × String)
  commands : List QueuedCommand

structure Services where
  -- The errors that are found in the parameters of a command.
  validate : List (String × List Rule) → Value → List String
  toInteger : Value → Option Int
  verifyTotp : String → String → Bool
  ttlSeconds : Int

structure Fresh where
  id : String
  traceId : String
  now : Int

inductive Reply where
  | unauthorized
  | forbidden
  | validationError
  | rejected (reason : String)
  | require2fa
  | accepted
  deriving DecidableEq

structure Compliance where
  status : String
  failedRules : List String
  remediation : List String
  evaluatedAt : Int

structure Answer where
  reply : Reply
  policy : Option Evaluation
  compliance : Option Compliance
  errors : Option (List String)
  command : Option QueuedCommand

def Answer.of (reply : Reply) : Answer :=
  ⟨reply, none, none, none, none⟩

-- Models `DeviceVisibilityService::canViewDevice`.
def Database.canViewDevice (db : Database) (user : User) (id : String) : Bool :=
  (db.tables.find id).any fun d =>
    user.role = "admin" || d.userId = some user.id ||
      db.grants.contains (user.id, id) && !isBlank id

def Device.isCompliant (device : Device) : Bool :=
  device.complianceStatus.toList.map Char.toLower = "compliant".toList

-- There is no signal about certificates.
def failedRules (device : Device) (r : CommandRequest) : List String :=
  let attestationStatus := (r.attestationStatus.filter (!isBlank ·)).getD <|
    if device.isCompliant then "pass" else "unknown"
  (if attestationStatus ≠ "pass" then ["attestation_failed"] else []) ++
  (if r.lastUpdateState = some "failed" then ["update_failed"] else []) ++
  (if r.policyHash.isSome && device.policyHash.isSome && device.policyHash ≠ r.policyHash then
    ["policy_hash_mismatch"] else []) ++
  (if r.clockSkewSeconds.getD 0 > 5 then ["clock_skew"] else []) ++
  (if device.riskScore.getD 0 ≥ 9000 then ["risk_exceeds_threshold"] else [])

def remediation (rule : String) : String :=
  match rule with
  | "attestation_failed" => "Re-run attestation from agent"
  | "update_failed" => "Retry latest OTA or rollback"
  | "policy_hash_mismatch" => "Fetch latest policy bundle"
  | "certificate_revoked" => "Re-enroll device certificate"
  | "clock_skew" => "Sync time via NTP"
  | "risk_exceeds_threshold" => "Investigate alerts and reduce risk score"
  | _ => "Review device health"

-- Models `ComplianceChecker::evaluateDevice`.
def evaluateDevice (device : Device) (r : CommandRequest) (now : Int) : Compliance :=
  let failed := failedRules device r
  ⟨if failed = [] then "compliant" else "non_compliant", failed, failed.map remediation, now⟩

namespace CommandService

def runtimeSupportedMethods : List String := [
  "ping", "lock_screen", "logout_user", "reboot_device", "shutdown_device", "collect_system_info",
  "screenshot", "list_processes", "kill_process", "kill_process_tree", "list_services",
  "list_connections", "list_mounts", "network_info", "get_active_window", "list_files",
  "download_file", "upload_file", "create_directory", "create_file", "delete_file",
  "delete_directory"
]

def complianceBypassMethods : List String := [
  "screenshot", "list_processes", "list_services", "list_connections", "list_mounts",
  "network_info", "get_active_window", "list_files", "download_file"
]

variable (svc : Services)

def clamp (field : String) (upper : Int) (params : Value) : Value :=
  match (params.getItem field).bind svc.toInteger with
  | some n => (params.setItem field (.int (max 1 (min n upper)))).getD params
  | none => params

def normalizedParams (r : CommandRequest) : Value :=
  if r.method = "list_files" then clamp svc "max_depth" 16 (clamp svc "limit" 1000 r.params)
  else r.params

def isNonCompliant (device : Device) (definition : CommandDefinition) (r : CommandRequest) : Bool :=
  failedRules device r ≠ [] && definition.riskLevel ≠ .low &&
    !complianceBypassMethods.contains r.method

def twoFactorVerified (db : Database) (user : User) (r : CommandRequest) : Bool :=
  match r.twoFactorCode, db.users.find? (·.id = user.id) with
  | some code, some u =>
    code ≠ "" && user.id ≠ "" && u.twoFactorEnabled &&
      u.twoFactorSecret.any fun secret => isTruthy secret && svc.verifyTotp secret code
  | _, _ => false

def policy (db : Database) (user : User) (device : Device) (definition : CommandDefinition)
    (r : CommandRequest) : Evaluation :=
  evaluate (device.context user.role r.policyHash (twoFactorVerified svc db user r)) definition
    (some device)

def newCommand (fresh : Fresh) (user : User) (r : CommandRequest) : QueuedCommand where
  id := fresh.id
  deviceId := r.deviceId
  state := .queued
  executionState := "queued"
  reason := none
  result := none
  errorCode := none
  errorMessage := none
  dispatchedAt := none
  completedAt := none
  expiresAt := some (fresh.now + svc.ttlSeconds)
  clientMessageId := r.clientMessageId
  userId := user.id
  method := r.method
  params := normalizedParams svc r
  sensitive := r.sensitive
  traceId := fresh.traceId
  queuedAt := fresh.now
  ttlSeconds := svc.ttlSeconds

def existing (db : Database) (r : CommandRequest) : Option QueuedCommand :=
  db.commands.find? fun c => c.clientMessageId = r.clientMessageId && c.deviceId = r.deviceId

def isDuplicate (db : Database) (r : CommandRequest) : Bool :=
  (existing db r).isSome

def enqueue (db : Database) (fresh : Fresh) (user : User) (r : CommandRequest) :
    Answer × Database :=
  match db.tables.find r.deviceId with
  | none => (.of (.rejected "device_not_found"), db)
  | some device =>
    if isDuplicate db r then ({ Answer.of .accepted with command := existing db r }, db)
    else
      match Registry.get r.method with
      | none => (.of (.rejected "unknown_command"), db)
      | some definition =>
        let errors := svc.validate definition.paramsRules (normalizedParams svc r)
        let compliance := evaluateDevice device r fresh.now
        let policy := policy svc db user device definition r
        if !runtimeSupportedMethods.contains r.method then
          (.of (.rejected "not_supported_runtime"), db)
        else if errors ≠ [] then
          ({ Answer.of (.rejected "invalid_params") with errors := some errors }, db)
        else if isNonCompliant device definition r then
          ({ Answer.of (.rejected "compliance_failed") with compliance := some compliance }, db)
        else
          match policy.decision with
          | .deny => ({ Answer.of (.rejected policy.reason) with policy := some policy }, db)
          | .require2fa =>
            let reply :=
              if r.twoFactorCode.any isTruthy then .rejected "invalid_2fa" else .require2fa
            ({ Answer.of reply with policy := some policy }, db)
          | .allow =>
            let command := newCommand svc fresh user r
            (⟨.accepted, some policy, some compliance, none, some command⟩,
              { db with commands := db.commands ++ [command] })

end CommandService
open CommandService (enqueue isDuplicate isNonCompliant newCommand normalizedParams policy)

-- Models the middleware `CheckRole`.
def roleLevel (role : String) : Nat :=
  match role with
  | "viewer" => 1
  | "operator" => 2
  | "admin" => 3
  | _ => 0

-- Models `POST /commands`, for whoever is logged in and for a body that may be invalid.
def postCommands (svc : Services) (db : Database) (fresh : Fresh) (user : Option User)
    (body : Option CommandRequest) : Answer × Database :=
  match user with
  | none => (.of .unauthorized, db)
  | some user =>
    if roleLevel user.role < roleLevel "operator" then (.of .forbidden, db)
    else
      match body with
      | none => (.of .validationError, db)
      | some r => enqueue svc db fresh user r

-- The requests that pass all checks there are: those of a user with enough rights, for a new command
-- that is known and supported, with valid parameters, and that may be run by the user on a device as
-- this one is.
structure Admissible (svc : Services) (db : Database) (user : User) (r : CommandRequest) :
    Prop where
  role : roleLevel "operator" ≤ roleLevel user.role
  new : ¬isDuplicate db r
  supported : r.method ∈ CommandService.runtimeSupportedMethods
  allowed : ∃ device ∈ db.tables.find r.deviceId, ∃ definition ∈ Registry.get r.method,
    svc.validate definition.paramsRules (normalizedParams svc r) = [] ∧
    ¬isNonCompliant device definition r ∧
    (policy svc db user device definition r).decision = .allow

section Created

variable {svc : Services} {db : Database} {fresh : Fresh} {user : User} {r : CommandRequest}

theorem commands_enqueue_of_admissible (h : Admissible svc db user r) :
    (enqueue svc db fresh user r).2.commands =
      db.commands ++ [newCommand svc fresh user r] := by
  obtain ⟨_, hn, hs, device, hd, definition, hg, hv, hc, hp⟩ := h
  simp [enqueue, Option.mem_def.mp hd, Option.mem_def.mp hg, hn, hs, hv, hc, hp]

theorem commands_enqueue_of_not_admissible (hr : roleLevel "operator" ≤ roleLevel user.role)
    (h : ¬Admissible svc db user r) :
    (enqueue svc db fresh user r).2.commands = db.commands := by
  unfold enqueue
  split
  case h_1 => rfl
  case h_2 device hd =>
    split
    case isTrue => rfl
    case isFalse hn =>
      split
      case h_1 => rfl
      case h_2 definition hg =>
        dsimp only
        split
        case isTrue => rfl
        case isFalse hs =>
          split
          case isTrue => rfl
          case isFalse hv =>
            split
            case isTrue => rfl
            case isFalse hc =>
              split
              case h_1 => rfl
              case h_2 => rfl
              case h_3 hp =>
                refine absurd ⟨hr, hn, ?_, device, hd, definition, hg, ?_, hc, hp⟩ h
                · simpa using hs
                · simpa using hv

theorem commands_postCommands_iff (body : Option CommandRequest) (c : QueuedCommand) :
    (postCommands svc db fresh (some user) body).2.commands = db.commands ++ [c] ↔
      ∃ r ∈ body, Admissible svc db user r ∧ newCommand svc fresh user r = c := by
  have hn : db.commands ≠ db.commands ++ [c] := by simp
  unfold postCommands
  simp only
  split
  case isTrue hl =>
    refine iff_of_false hn fun ⟨_, _, h, _⟩ => ?_
    exact absurd h.role (not_le.mpr hl)
  case isFalse hl =>
    cases body
    case none => simp
    case some r =>
      by_cases h : Admissible svc db user r
      case pos => simp [commands_enqueue_of_admissible h, h]
      case neg => simp [commands_enqueue_of_not_admissible (not_lt.mp hl) h, h]

-- Every command that a request creates is for a device that the user can view if and only if the
-- request is for such a device or fails one of the checks, none of which asks for this.
theorem canViewDevice_of_created_iff (body : Option CommandRequest) :
    (∀ c, (postCommands svc db fresh (some user) body).2.commands = db.commands ++ [c] →
        db.canViewDevice user c.deviceId) ↔
      ∀ r ∈ body, db.canViewDevice user r.deviceId ∨ ¬Admissible svc db user r := by
  simp only [commands_postCommands_iff]
  constructor
  · intro h r hr
    by_cases ha : Admissible svc db user r
    case pos => exact .inl (h _ ⟨r, hr, ha, rfl⟩)
    case neg => exact .inr ha
  · rintro h c ⟨r, hr, ha, rfl⟩
    exact (h r hr).resolve_right (not_not.mpr ha)

end Created

structure Signals where
  policyHash : Option String
  attestationStatus : Option String
  lastUpdateState : Option String
  clockSkewSeconds : Option Int

def CommandRequest.withSignals (r : CommandRequest) (signals : Signals) : CommandRequest where
  clientMessageId := r.clientMessageId
  deviceId := r.deviceId
  method := r.method
  params := r.params
  sensitive := r.sensitive
  twoFactorCode := r.twoFactorCode
  policyHash := signals.policyHash
  attestationStatus := signals.attestationStatus
  lastUpdateState := signals.lastUpdateState
  clockSkewSeconds := signals.clockSkewSeconds

def CommandRequest.signals (r : CommandRequest) : Signals :=
  ⟨r.policyHash, r.attestationStatus, r.lastUpdateState, r.clockSkewSeconds⟩

structure Signals.Attest (signals : Signals) (device : Device) : Prop where
  attestation : signals.attestationStatus = some "pass"
  update : signals.lastUpdateState ≠ some "failed"
  clock : signals.clockSkewSeconds.getD 0 ≤ 5
  policy : signals.policyHash = none ∨ device.policyHash = none ∨
    signals.policyHash = device.policyHash

def CommandService.IsGated (method : String) : Prop :=
  method ∉ complianceBypassMethods ∧ ∀ definition ∈ Registry.get method, definition.riskLevel ≠ .low

section Gate

variable {svc : Services} {db : Database} {fresh : Fresh} {user : User} {r : CommandRequest}
variable {device : Device} {definition : CommandDefinition} {signals signals' : Signals}

theorem ite_nil_iff {p : Prop} [Decidable p] {rule : String} :
    (if p then [rule] else []) = [] ↔ ¬p := by
  split <;> simp [*]

theorem attestationStatus_eq_pass_iff {status : Option String} :
    (status.filter (!isBlank ·)).getD "unknown" = "pass" ↔ status = some "pass" := by
  have hp : isBlank "pass" = false := by decide
  cases status
  case none => simp
  case some a =>
    cases hb : isBlank a
    case false => simp [Option.filter, hb]
    case true =>
      have : a ≠ "pass" := fun he => absurd (he ▸ hb) (by simp [hp])
      simp [Option.filter, hb, this]

theorem failedRules_eq_nil_iff (h : ¬device.isCompliant) :
    failedRules device r = [] ↔ r.signals.Attest device ∧ device.riskScore.getD 0 < 9000 := by
  simp only [failedRules, List.append_eq_nil_iff, ite_nil_iff, h, Bool.false_eq_true, if_false,
    ne_eq, not_not, gt_iff_lt, ge_iff_le, not_lt, not_le, attestationStatus_eq_pass_iff]
  refine and_congr_left fun _ => ⟨?_, fun h => ?_⟩
  · rintro ⟨⟨⟨ha, hu⟩, hp⟩, hc⟩
    refine ⟨ha, hu, hc, ?_⟩
    cases hs : r.policyHash <;> cases hd : device.policyHash <;>
      simp_all [CommandRequest.signals]
  · refine ⟨⟨⟨h.attestation, h.update⟩, ?_⟩, h.clock⟩
    have hp := h.policy
    simp only [CommandRequest.signals] at hp
    obtain hp | hp | hp := hp <;> simp [hp]

theorem evaluate_of_synced {ctx : PolicyContext}
    (h : ctx.policyHash = none ∨ ctx.expectedPolicyHash = none ∨
      ctx.policyHash = ctx.expectedPolicyHash) :
    evaluate ctx definition (some device) =
      evaluate { ctx with policyHash := none } definition (some device) := by
  unfold evaluate
  obtain h | h | h := h <;> simp [h]

theorem policy_of_attest (h : r.signals.Attest device) :
    policy svc db user device definition r =
      evaluate (device.context user.role none (CommandService.twoFactorVerified svc db user r))
        definition (some device) :=
  evaluate_of_synced h.policy

theorem isNonCompliant_iff (hn : ¬device.isCompliant) (hg : CommandService.IsGated r.method)
    (hd : Registry.get r.method = some definition) :
    isNonCompliant device definition r ↔
      ¬(r.signals.Attest device ∧ device.riskScore.getD 0 < 9000) := by
  simp [isNonCompliant, hg.left, hg.right definition hd, failedRules_eq_nil_iff hn]

-- A caller who vouches for the device leaves nothing but the risk score to be found.
theorem failedRules_of_attest (h : r.signals.Attest device) :
    failedRules device r =
      if device.riskScore.getD 0 ≥ 9000 then ["risk_exceeds_threshold"] else [] := by
  have ha : r.attestationStatus = some "pass" := h.attestation
  have hu : r.lastUpdateState ≠ some "failed" := h.update
  have hc : r.clockSkewSeconds.getD 0 ≤ 5 := h.clock
  have hb : isBlank "pass" = false := by decide
  have hp : r.policyHash.isSome → device.policyHash.isSome → device.policyHash = r.policyHash := by
    obtain hp | hp | hp := h.policy <;> simp_all [CommandRequest.signals]
  simpa [failedRules, ha, hu, Option.filter, hb, not_lt.mpr hc] using hp

theorem enqueue_of_attest (hd : db.tables.find r.deviceId = some device)
    (h : r.signals.Attest device) (h' : signals.Attest device) :
    enqueue svc db fresh user (r.withSignals signals) =
      enqueue svc db fresh user r := by
  have h' : (r.withSignals signals).signals.Attest device := h'
  have hd' : db.tables.find (r.withSignals signals).deviceId = some device := hd
  have hf : failedRules device (r.withSignals signals) = failedRules device r := by
    rw [failedRules_of_attest h, failedRules_of_attest h']
  have hp {definition : CommandDefinition} :
      policy svc db user device definition (r.withSignals signals) =
        policy svc db user device definition r := by
    rw [policy_of_attest h, policy_of_attest h']
    rfl
  simp only [enqueue, hd', hd, isNonCompliant, evaluateDevice, hf, hp]
  rfl

-- The answer apart from what was found out about the device, and the rows.
def plain (p : Answer × Database) : Answer × Database :=
  ({ p.1 with compliance := none }, p.2)

theorem enqueue_of_not_attest (hd : db.tables.find r.deviceId = some device)
    (hn : ¬device.isCompliant) (hg : CommandService.IsGated r.method)
    (h : ¬r.signals.Attest device) :
    (enqueue svc db fresh user r).2 = db := by
  simp only [enqueue, hd]
  split
  case isTrue => rfl
  split
  case h_1 => rfl
  case h_2 definition hg' =>
    rw [if_pos ((isNonCompliant_iff hn hg hg').mpr fun ha => h ha.left)]
    split
    case isTrue => rfl
    case isFalse => split <;> rfl

theorem plain_enqueue_of_not_attest (hd : db.tables.find r.deviceId = some device)
    (hn : ¬device.isCompliant) (hg : CommandService.IsGated r.method)
    (h : ¬r.signals.Attest device) (h' : ¬signals.Attest device) :
    plain (enqueue svc db fresh user (r.withSignals signals)) =
      plain (enqueue svc db fresh user r) := by
  have hg' : CommandService.IsGated (r.withSignals signals).method := hg
  have hd' : db.tables.find (r.withSignals signals).deviceId = some device := hd
  have hi : isDuplicate db (r.withSignals signals) =
      isDuplicate db r := rfl
  have hm : (r.withSignals signals).method = r.method := rfl
  have hv : normalizedParams svc (r.withSignals signals) =
      normalizedParams svc r := rfl
  simp only [enqueue, hd', hd, hi, hm, hv]
  cases hr : Registry.get r.method
  case none => split <;> rfl
  case some definition =>
    have hc := (isNonCompliant_iff hn hg hr).mpr fun ha => h ha.left
    have hc' := (isNonCompliant_iff hn hg' hr).mpr fun ha => h' ha.left
    simp only [hc, hc', if_true]
    split_ifs <;> rfl

-- On a device that is not kept as compliant, a command that the check is for is created only if the
-- caller vouches for the device, and what the caller says otherwise makes no difference but to what is
-- answered about the device.
theorem postCommands_of_gated (hd : db.tables.find r.deviceId = some device)
    (hn : ¬device.isCompliant) (hg : CommandService.IsGated r.method) (user : Option User) :
    (¬r.signals.Attest device → (postCommands svc db fresh user (some r)).2 = db) ∧
      (∀ signals : Signals, r.signals.Attest device → signals.Attest device →
        postCommands svc db fresh user (some (r.withSignals signals)) =
          postCommands svc db fresh user (some r)) ∧
      ∀ signals : Signals, ¬r.signals.Attest device → ¬signals.Attest device →
        plain (postCommands svc db fresh user (some (r.withSignals signals))) =
          plain (postCommands svc db fresh user (some r)) := by
  cases user
  case none => exact ⟨fun _ => rfl, fun _ _ _ => rfl, fun _ _ _ => rfl⟩
  case some user =>
    simp only [postCommands]
    split
    case isTrue => exact ⟨fun _ => rfl, fun _ _ _ => rfl, fun _ _ _ => rfl⟩
    exact ⟨enqueue_of_not_attest hd hn hg, fun _ => enqueue_of_attest hd,
      fun _ => plain_enqueue_of_not_attest hd hn hg⟩

end Gate

def exampleServices : Services where
  validate rules _ := rules.map Prod.fst
  toInteger _ := none
  verifyTotp _ _ := false
  ttlSeconds := 300

def exampleDatabase : Database where
  tables := ⟨[{ Device.new "dev-1" (some "laptop") .online none with userId := some "u-1" }], []⟩
  users := [⟨"u-1", "operator", false, none⟩, ⟨"u-2", "operator", false, none⟩]
  grants := []
  commands := []

def lockScreenRequest : CommandRequest :=
  ⟨"m-1", "dev-1", "lock_screen", .dict [], false, none, none, none, none, none⟩

theorem created_for_foreign_device :
    ∃ c, (postCommands exampleServices exampleDatabase ⟨"c-1", "t-1", 0⟩
        (some ⟨"u-2", "operator", false, none⟩) (some lockScreenRequest)).2.commands =
          exampleDatabase.commands ++ [c] ∧
      c.deviceId = "dev-1" ∧
      ¬exampleDatabase.canViewDevice ⟨"u-2", "operator", false, none⟩ "dev-1" :=
  ⟨_, rfl, rfl, by decide⟩

def logoutRequest : CommandRequest :=
  ⟨"m-2", "dev-1", "logout_user", .dict [], false, none, none, none, none, none⟩

theorem isGated_logout : CommandService.IsGated "logout_user" :=
  ⟨by decide, by decide⟩

theorem postCommands_logout :
    (postCommands exampleServices exampleDatabase ⟨"c-2", "t-2", 0⟩
        (some ⟨"u-2", "operator", false, none⟩) (some logoutRequest)).2 = exampleDatabase ∧
      plain (postCommands exampleServices exampleDatabase ⟨"c-2", "t-2", 0⟩
          (some ⟨"u-2", "operator", false, none⟩)
          (some (logoutRequest.withSignals ⟨none, some "fail", some "failed", some 60⟩))) =
        plain (postCommands exampleServices exampleDatabase ⟨"c-2", "t-2", 0⟩
          (some ⟨"u-2", "operator", false, none⟩) (some logoutRequest)) := by
  have hn : ¬logoutRequest.signals.Attest (exampleDatabase.tables.devices.head (by decide)) :=
    fun h => absurd h.attestation (by decide)
  refine ⟨(postCommands_of_gated rfl (by decide) isGated_logout _).left hn,
    (postCommands_of_gated rfl (by decide) isGated_logout _).right.right _ hn fun h => ?_⟩
  exact absurd h.attestation (by decide)

-- The device is not kept as compliant, and the same operator is refused or not depending on what the
-- request says about it.
theorem created_by_attesting_caller :
    ∃ device ∈ exampleDatabase.tables.find "dev-1", device.complianceStatus = "unknown" ∧
      (postCommands exampleServices exampleDatabase ⟨"c-2", "t-2", 0⟩
        (some ⟨"u-2", "operator", false, none⟩) (some logoutRequest)).1.reply =
          .rejected "compliance_failed" ∧
      ∃ c, (postCommands exampleServices exampleDatabase ⟨"c-2", "t-2", 0⟩
          (some ⟨"u-2", "operator", false, none⟩)
          (some (logoutRequest.withSignals ⟨none, some "pass", none, none⟩))).2.commands =
            exampleDatabase.commands ++ [c] ∧
        c.method = "logout_user" ∧ CommandService.IsGated "logout_user" :=
  ⟨_, rfl, rfl, by decide, _, rfl, rfl, isGated_logout⟩

end ControlPlane
