import Quoodle.ControlPlane.Devices
import Quoodle.Gateway.AppLock

-- The app-lock bundles of the control plane: what an operator may store, and what is pushed.
namespace ControlPlane

open Gateway (Value MatchType AppLockRule)

structure Input where
  -- What is left of a string: it is trimmed, and an empty one counts as missing.
  clean : String → Option String
  -- The integer that the rule `integer` finds in a value that is not one.
  toInteger : Value → Option Int

namespace Input

variable (input : Input) (d : Value)

-- A missing value is the same as `null`.
def get (k : String) : Value :=
  match d.getItem k with
  | none => .none
  | some v =>
    match v.json with
    | .str s => .optionalStr (input.clean s)
    | _ => v

section Rules

variable (k : String)

def isNull : Bool :=
  input.get d k = .none

def string (max : Option Nat) : Option String :=
  match (input.get d k).json with
  | .str s => if max.all (s.length ≤ ·) then some s else none
  | _ => none

def integer (min max : Int) : Option Int :=
  let parsed :=
    match (input.get d k).json with
    | .num (.int n) => some n
    | _ => input.toInteger (input.get d k)
  parsed.filter fun n => min ≤ n ∧ n ≤ max

def boolean : Option Bool :=
  match (input.get d k).json with
  | .bool b => some b
  | .num (.int 0) => some false
  | .num (.int 1) => some true
  | .str "0" => some false
  | .str "1" => some true
  | _ => none

-- The rule `required` also refuses strings that are blank.
def requiredString (max : Option Nat) : Option String :=
  (input.string d k max).filter (!isBlank ·)

def nullable {α : Type} (read : Option α) : Option (Option α) :=
  if input.isNull d k then some none else read.map some

end Rules

-- Both lists and dictionaries are arrays.
def array (k : String) : Option (List Value) :=
  let v := input.get d k
  match v.elements with
  | some vs => some vs
  | none => v.items.map Json.values

end Input

structure AppLockBundle where
  enabled : Bool
  policyVersion : String
  policyHash : String
  eventDedupeSec : Int
  killRunningOnApply : Bool
  updatedAt : String
  rules : List AppLockRule
  deriving DecidableEq

structure PolicyConfig where
  version : String
  masterHash : String

namespace AppLockBundle

def normalizeRule (rule : AppLockRule) : Option AppLockRule :=
  if rule.value = "" then none
  else some { rule with priority := max 1 (min 999999 rule.priority) }

def normalize (cfg : PolicyConfig) (raw : AppLockBundle) : AppLockBundle where
  enabled := raw.enabled
  policyVersion := cfg.version
  policyHash := cfg.masterHash
  eventDedupeSec := max 1 (min 3600 raw.eventDedupeSec)
  killRunningOnApply := raw.killRunningOnApply
  updatedAt := raw.updatedAt
  rules := raw.rules.filterMap normalizeRule

def toValue (b : AppLockBundle) : Value :=
  .dict [
    ("enabled", .bool b.enabled),
    ("mode", .str "blocklist"),
    ("fail_mode", .str "open"),
    ("policy_version", .str b.policyVersion),
    ("policy_hash", .str b.policyHash),
    ("event_dedupe_sec", .int b.eventDedupeSec),
    ("kill_running_on_apply", .bool b.killRunningOnApply),
    ("updated_at", .str b.updatedAt),
    ("rules", .list (b.rules.map AppLockRule.modelDump))
  ]

end AppLockBundle

section Upsert

variable (input : Input)

def validateRule (rule : Value) : Option AppLockRule := do
  let ruleId ← input.requiredString rule "rule_id" (some 64)
  let matchType ← MatchType.ofText (← input.requiredString rule "match_type" none)
  let value ← input.requiredString rule "value" (some 260)
  let _ ← input.nullable rule "action" <| (input.string rule "action" none).filter (· = "block")
  let priority ← input.nullable rule "priority" (input.integer rule "priority" 1 999999)
  let expiresAt ← input.nullable rule "expires_at" (input.string rule "expires_at" none)
  return ⟨ruleId, matchType, value, priority.getD 1000, expiresAt⟩

def appLockUpsert (cfg : PolicyConfig) (now : String) (body : Value) : Option AppLockBundle := do
  let enabled ← input.boolean body "enabled"
  let _ ← (input.string body "mode" none).filter (· = "blocklist")
  let _ ← (input.string body "fail_mode" none).filter (· = "open")
  let eventDedupeSec ←
    input.nullable body "event_dedupe_sec" (input.integer body "event_dedupe_sec" 1 3600)
  let killRunningOnApply ←
    input.nullable body "kill_running_on_apply" (input.boolean body "kill_running_on_apply")
  let rules ← input.nullable body "rules" (input.array body "rules")
  let rules ← (rules.getD []).mapM (validateRule input)
  return AppLockBundle.normalize cfg {
    enabled := enabled
    policyVersion := cfg.version
    policyHash := cfg.masterHash
    eventDedupeSec := eventDedupeSec.getD 30
    killRunningOnApply := killRunningOnApply.getD true
    updatedAt := now
    rules := rules }

end Upsert

def pushPayload (b : AppLockBundle) (cfg : PolicyConfig) (targetDeviceId : Option String)
    (signedAt signature : String) : Option Value :=
  if cfg.version = "" ∨ cfg.masterHash = "" then none
  else some <| .dict [
    ("policy_version", .str cfg.version),
    ("policy_hash", .str cfg.masterHash),
    ("policy_url", .str "control-plane://policy/app-lock"),
    ("signed_at", .str signedAt),
    ("signature", .str signature),
    ("app_lock", b.toValue),
    ("target_device_ids", targetDeviceId.elim .none fun id => .list [.str id])
  ]

section Accepted

open Gateway (Conversions AppLockPolicyBundle PolicyPushRequest field_eq)

variable {conv : Conversions} {b : AppLockBundle}

-- What the schema of the gateway keeps of a bundle.
def AppLockBundle.accepted (b : AppLockBundle) : AppLockPolicyBundle where
  enabled := b.enabled
  policyVersion := b.policyVersion
  policyHash := b.policyHash
  eventDedupeSec := b.eventDedupeSec
  updatedAt := some b.updatedAt
  rules := b.rules.map AppLockRule.stripped

theorem AppLockBundle.getItem_toValue (b : AppLockBundle) (k : String) :
    b.toValue.getItem k = List.lookup k [
      ("enabled", .bool b.enabled),
      ("mode", .str "blocklist"),
      ("fail_mode", .str "open"),
      ("policy_version", .str b.policyVersion),
      ("policy_hash", .str b.policyHash),
      ("event_dedupe_sec", .int b.eventDedupeSec),
      ("kill_running_on_apply", .bool b.killRunningOnApply),
      ("updated_at", .str b.updatedAt),
      ("rules", .list (b.rules.map AppLockRule.modelDump))] :=
  Value.getItem_dict (by simp [Json.keys]) k

theorem eq_accepted_of_ofValue {a : AppLockPolicyBundle}
    (h : AppLockPolicyBundle.ofValue conv b.toValue = some a) : a = b.accepted := by
  have hd := b.getItem_toValue
  simp only [AppLockPolicyBundle.ofValue] at h
  rw [field_eq (hd "enabled"), field_eq (hd "mode"), field_eq (hd "fail_mode"),
    field_eq (hd "policy_version"), field_eq (hd "policy_hash"), field_eq (hd "event_dedupe_sec"),
    field_eq (hd "updated_at"), field_eq (hd "rules")] at h
  simp only [Gateway.readBool_bool, Gateway.readLiteral_str, Gateway.readStr_str,
    Gateway.readInt_int, Gateway.readOptional_str, Gateway.readList_list, List.mapM_map,
    Option.bind_eq_bind, Option.bind_some] at h
  obtain ⟨rules, hr, h⟩ := Option.bind_eq_some_iff.mp h
  obtain ⟨eventDedupeSec, he, h⟩ := Option.bind_eq_some_iff.mp h
  cases h
  rw [Gateway.eq_of_bounded he,
    Gateway.eq_map_of_mapM (fun _ _ => AppLockRule.eq_of_ofValue_modelDump) hr]
  rfl

theorem ofValue_pushPayload {cfg : PolicyConfig} {target : Option String}
    {signedAt signature : String} {payload : Value} {r : PolicyPushRequest}
    (hp : pushPayload b cfg target signedAt signature = some payload)
    (h : PolicyPushRequest.ofValue conv payload = some r) :
    r.appLock = some b.accepted.modelDump ∧
      r.targetDeviceIds = (target.toList.map Gateway.strip).filter (· ≠ "") := by
  unfold pushPayload at hp
  split at hp
  case isTrue => cases hp
  have hd (k : String) : payload.getItem k = _ :=
    Option.some_inj.mp hp ▸ Value.getItem_dict (by simp [Json.keys]) k
  simp only [PolicyPushRequest.ofValue] at h
  rw [field_eq (hd "policy_version"), field_eq (hd "policy_hash"), field_eq (hd "policy_url"),
    field_eq (hd "signed_at"), field_eq (hd "signature"), field_eq (hd "app_lock"),
    field_eq (hd "target_device_ids")] at h
  have ho : Gateway.readOptional (AppLockPolicyBundle.ofValue conv) b.toValue =
      (AppLockPolicyBundle.ofValue conv b.toValue).map some :=
    if_neg (by simp [AppLockBundle.toValue, Value.dict, Value.none])
  have ht : Gateway.readOptional (Gateway.readList Gateway.readStr)
      (target.elim .none fun id => .list [.str id]) = some (target.map ([·])) := by
    cases target
    case none => exact Gateway.readOptional_none
    case some id =>
      have hn : Value.list [.str id] ≠ .none := by simp [Value.list, Value.none]
      rw [Option.elim_some, Gateway.readOptional, if_neg hn, Gateway.readList_list]
      rfl
  simp only [Gateway.readStr_str, ho, ht, Option.bind_eq_bind, Option.bind_some] at h
  obtain ⟨_, hm, h⟩ := Option.bind_eq_some_iff.mp h
  obtain ⟨a, ha, rfl⟩ := Option.map_eq_some_iff.mp hm
  obtain ⟨ids, hi, h⟩ := Option.bind_eq_some_iff.mp h
  cases h
  rw [eq_accepted_of_ofValue ha]
  refine ⟨rfl, ?_⟩
  cases target
  case none => exact (Option.some_inj.mp hi).symm
  case some id =>
    simp only [Gateway.validateTargetDeviceIds] at hi
    split at hi
    case isTrue => cases hi
    case isFalse => exact (Option.some_inj.mp hi).symm

end Accepted

end ControlPlane
