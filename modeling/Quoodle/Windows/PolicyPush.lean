import Quoodle.ControlPlane.AppLock
import Quoodle.Windows.KillSweep
import Quoodle.Windows.PolicyUpdate

-- An app-lock bundle on its way from an operator to an agent.
namespace Windows

open Json.Nlohmann AppLock
open ControlPlane (AppLockBundle)
open Gateway (received AppLockRule PolicyPushRequest)

structure Push where
  input : ControlPlane.Input
  config : ControlPlane.PolicyConfig
  -- The device that the operator has chosen. Otherwise the bundle is for all of them.
  target : Option String
  updatedAt : String
  signedAt : String
  signature : String
  conversions : Gateway.Conversions
  settings : Gateway.Settings
  policy : Gateway.Policy
  now : String
  deviceId : String
  sessionId : String
  stamp : Gateway.Stamp

namespace Push

variable {x : Push} {request msg : Gateway.Value} {bundle : AppLockBundle}

def run (x : Push) (request : Gateway.Value) : Option (AppLockBundle × Gateway.Value) := do
  let bundle ← ControlPlane.appLockUpsert x.input x.config x.updatedAt request
  let payload ← ControlPlane.pushPayload bundle x.config x.target x.signedAt x.signature
  let r ← PolicyPushRequest.ofValue x.conversions payload
  let msg ← (x.policy.update r x.now).buildMessage x.settings x.stamp x.deviceId x.sessionId
  return (bundle, msg)

def IsTargeted (x : Push) : Prop :=
  x.deviceId ≠ "" ∧
    match x.target with
    | some id => Gateway.strip id = x.deviceId
    | none => x.policy.deviceAppLock.lookup x.deviceId = none

theorem isTargeted_of_eq (ht : x.IsTargeted) {r : PolicyPushRequest}
    (hr : r.targetDeviceIds = (x.target.toList.map Gateway.strip).filter (· ≠ "")) :
    Gateway.IsTargeted x.policy r x.deviceId := by
  obtain ⟨hd, ht⟩ := ht
  refine ⟨hd, ?_⟩
  rw [hr]
  split at ht
  case h_1 id hx => exact .inl (by simp [hx, ht, hd])
  case h_2 hx => exact .inr ⟨by simp [hx], ht⟩

-- The message has what the schema of the gateway keeps of the bundle.
theorem appLock_of_run (h : x.run request = some (bundle, msg)) (ht : x.IsTargeted) :
    msg.getItem "type" = some (.str "POLICY_UPDATE") ∧
      ∃ body : Gateway.Value, msg.getItem "body" = some body ∧
        body.getItem "app_lock" = some bundle.accepted.modelDump := by
  obtain ⟨_, _, h⟩ := Option.bind_eq_some_iff.mp h
  obtain ⟨payload, hp, h⟩ := Option.bind_eq_some_iff.mp h
  obtain ⟨r, hr, h⟩ := Option.bind_eq_some_iff.mp h
  obtain ⟨_, hm, h⟩ := Option.bind_eq_some_iff.mp h
  cases h
  obtain ⟨ha, hi⟩ := ControlPlane.ofValue_pushPayload hp hr
  exact Gateway.appLock_of_buildMessage ha (isTargeted_of_eq ht hi) hm

end Push

section Unchanged

variable {x : Push} {request msg : Gateway.Value} {bundle : AppLockBundle}
variable {f : Gateway.Number → Number}

-- The members that the agent reads, apart from `kill_running_on_apply`.
def readMembers : List String :=
  ["enabled", "mode", "fail_mode", "policy_version", "policy_hash", "event_dedupe_sec", "rules"]

-- The agent finds in the one bundle what is in the other.
def Unchanged (f : Gateway.Number → Number) (pushed delivered : Gateway.Value) : Prop :=
  (∀ k ∈ readMembers, delivered.getItem k = pushed.getItem k) ∧
    shouldKillRunningOnApply (received f delivered) = shouldKillRunningOnApply (received f pushed)

theorem getItem_modelDump (b : Gateway.AppLockPolicyBundle) (k : String) :
    b.modelDump.getItem k = List.lookup k [
      ("enabled", .bool b.enabled),
      ("mode", .str "blocklist"),
      ("fail_mode", .str "open"),
      ("policy_version", .str b.policyVersion),
      ("policy_hash", .str b.policyHash),
      ("event_dedupe_sec", .int b.eventDedupeSec),
      ("updated_at", .optionalStr b.updatedAt),
      ("rules", .list (b.rules.map AppLockRule.modelDump))] :=
  Gateway.Value.getItem_dict (by simp [Json.keys]) k

theorem received_bool (b : Bool) : received f (.bool b) = .bool b := by
  simp [received, Gateway.Value.bool, ofJson, Json.Scalar.mapNum]

theorem shouldKill_received {d : Gateway.Value} {enabled : Bool} {kill : Option Bool}
    (he : d.getItem "enabled" = some (.bool enabled))
    (hk : d.getItem "kill_running_on_apply" = kill.map .bool) :
    shouldKillRunningOnApply (received f d) = some (enabled && kill.getD true) := by
  obtain ⟨ms, hm⟩ := Gateway.received_of_isDict (f := f) (Gateway.isDict_of_getItem he)
  have he := he ▸ Gateway.member_received (f := f) d "enabled"
  have hk := hk ▸ Gateway.member_received (f := f) d "kill_running_on_apply"
  rw [hm] at he hk ⊢
  simp only [shouldKillRunningOnApply, value, he, hk, Option.map_some, Option.elim_some,
    received_bool, readBool, Option.bind_eq_bind, Option.bind_some]
  cases enabled
  case false => rfl
  case true =>
    cases kill
    case none => rfl
    case some b => simp [received_bool]

theorem modelDump_stripped_iff {r : AppLockRule} :
    r.stripped.modelDump = r.modelDump ↔
      Gateway.strip r.ruleId = r.ruleId ∧ Gateway.strip r.value = r.value := by
  constructor
  · intro h
    have hi := congrArg (Gateway.Value.getItem · "rule_id") h
    have hv := congrArg (Gateway.Value.getItem · "value") h
    simp only [AppLockRule.getItem_modelDump] at hi hv
    simpa [List.lookup, Gateway.Value.str, AppLockRule.stripped] using And.intro hi hv
  · rintro ⟨hi, hv⟩
    rw [AppLockRule.stripped, hi, hv]

theorem list_eq_list_iff {as bs : List Gateway.Value} :
    Gateway.Value.list as = .list bs ↔ as = bs := by
  have hj : Function.Injective Gateway.Value.json := fun _ _ h => Gateway.Value.ext h
  simp [Gateway.Value.list, hj.list_map.eq_iff]

-- The agent finds what was pushed if and only if running processes are to be killed and no text has
-- white space at its ends.
theorem unchanged_iff (h : x.run request = some (bundle, msg)) (ht : x.IsTargeted) :
    ∃ body appLock : Gateway.Value, msg.getItem "body" = some body ∧
      body.getItem "app_lock" = some appLock ∧
      appLock.getItem "kill_running_on_apply" = none ∧
      (Unchanged f bundle.toValue appLock ↔
        (bundle.enabled → bundle.killRunningOnApply) ∧
          ∀ r ∈ bundle.rules,
            Gateway.strip r.ruleId = r.ruleId ∧ Gateway.strip r.value = r.value) := by
  obtain ⟨_, body, hb, ha⟩ := x.appLock_of_run h ht
  refine ⟨body, _, hb, ha, getItem_modelDump _ _, ?_⟩
  have hr : (bundle.accepted.modelDump.getItem "rules" = bundle.toValue.getItem "rules") ↔
      ∀ r ∈ bundle.rules,
        Gateway.strip r.ruleId = r.ruleId ∧ Gateway.strip r.value = r.value := by
    have hl : bundle.accepted.rules.map AppLockRule.modelDump =
          bundle.rules.map AppLockRule.modelDump ↔
        ∀ r ∈ bundle.rules, r.stripped.modelDump = r.modelDump := by
      simp [AppLockBundle.accepted]
    rw [getItem_modelDump, bundle.getItem_toValue]
    simp only [← modelDump_stripped_iff, ← hl]
    exact Option.some_inj.trans list_eq_list_iff
  have hk : shouldKillRunningOnApply (received f bundle.accepted.modelDump) =
        shouldKillRunningOnApply (received f bundle.toValue) ↔
      (bundle.enabled → bundle.killRunningOnApply) := by
    rw [@shouldKill_received f _ _ none (getItem_modelDump _ _) (getItem_modelDump _ _),
      @shouldKill_received f _ _ (some bundle.killRunningOnApply) (bundle.getItem_toValue _)
        (bundle.getItem_toValue _)]
    change some (bundle.enabled && true) = some (bundle.enabled && bundle.killRunningOnApply) ↔ _
    cases bundle.enabled
    case false => simp
    case true => exact ⟨fun hs _ => (Option.some_inj.mp hs).symm, fun hi => by simp [hi rfl]⟩
  have hm : (∀ k ∈ readMembers, bundle.accepted.modelDump.getItem k = bundle.toValue.getItem k) ↔
      bundle.accepted.modelDump.getItem "rules" = bundle.toValue.getItem "rules" := by
    refine ⟨fun h => h _ (by decide), fun h => ?_⟩
    simp only [readMembers, List.forall_mem_cons]
    refine ⟨?_, ?_, ?_, ?_, ?_, ?_, h, by simp⟩ <;>
      rw [getItem_modelDump, bundle.getItem_toValue] <;> rfl
  rw [Unchanged, hm, hr, hk]
  exact and_comm

def lockPush : Push where
  input := ⟨fun s => if s = "" then none else some s, fun _ => none⟩
  config := ⟨"1", "p-1"⟩
  target := some "dev-1"
  updatedAt := ""
  signedAt := ""
  signature := ""
  conversions := ⟨fun _ => none, fun _ => none⟩
  settings := exampleSettings
  policy := ⟨[], []⟩
  now := ""
  deviceId := "dev-1"
  sessionId := "s-1"
  stamp := ⟨"", ""⟩

def lockRequest (kill : Bool) (expiresAt : Option String) : Gateway.Value :=
  .dict [
    ("enabled", .bool true),
    ("mode", .str "blocklist"),
    ("fail_mode", .str "open"),
    ("kill_running_on_apply", .bool kill),
    ("rules", .list [.dict [
      ("rule_id", .str "r-1"),
      ("match_type", .str "basename"),
      ("value", .str "chess.exe"),
      ("expires_at", .optionalStr expiresAt)]])
  ]

def deliveredBundle (msg : Gateway.Value) : Option Gateway.Value :=
  (msg.getItem "body").bind fun body => body.getItem "app_lock"

theorem isTargeted_lockPush : lockPush.IsTargeted := by
  refine ⟨by decide, ?_⟩
  change Gateway.strip "dev-1" = "dev-1"
  decide

theorem unchanged_iff_chess :
    ∃ bundle msg appLock, lockPush.run (lockRequest true none) = some (bundle, msg) ∧
      deliveredBundle msg = some appLock ∧
      Unchanged exampleEnvironment.number bundle.toValue appLock := by
  have hx : (lockPush.run (lockRequest true none)).any (fun o => o.1.killRunningOnApply &&
      o.1.rules.all fun r => Gateway.strip r.ruleId = r.ruleId && Gateway.strip r.value = r.value) := by
    decide
  obtain ⟨⟨bundle, msg⟩, hm, hx⟩ := (Option.any_eq_true _ _).mp hx
  simp only [Bool.and_eq_true, List.all_eq_true, decide_eq_true_eq] at hx
  obtain ⟨body, appLock, hb, ha, _, hi⟩ := unchanged_iff hm isTargeted_lockPush
  exact ⟨bundle, msg, appLock, hm, by simp [deliveredBundle, hb, ha], hi.mpr ⟨fun _ => hx.1, hx.2⟩⟩

-- The operator wants running processes to be left alone.
theorem kill_flag_lost :
    ∃ bundle msg appLock, lockPush.run (lockRequest false none) = some (bundle, msg) ∧
      deliveredBundle msg = some appLock ∧
      shouldKillRunningOnApply (received exampleEnvironment.number bundle.toValue) = some false ∧
      shouldKillRunningOnApply (received exampleEnvironment.number appLock) = some true ∧
      ¬Unchanged exampleEnvironment.number bundle.toValue appLock := by
  have hx : (lockPush.run (lockRequest false none)).any (fun o =>
      (deliveredBundle o.2).any fun appLock =>
        shouldKillRunningOnApply (received exampleEnvironment.number o.1.toValue) = some false &&
          shouldKillRunningOnApply (received exampleEnvironment.number appLock) = some true) := by
    decide
  obtain ⟨⟨bundle, msg⟩, hm, hx⟩ := (Option.any_eq_true _ _).mp hx
  obtain ⟨appLock, ha, hx⟩ := (Option.any_eq_true _ _).mp hx
  simp only [Bool.and_eq_true, decide_eq_true_eq] at hx
  refine ⟨bundle, msg, appLock, hm, ha, hx.1, hx.2, fun h => ?_⟩
  rw [Unchanged, hx.1, hx.2] at h
  simp at h

end Unchanged

end Windows
