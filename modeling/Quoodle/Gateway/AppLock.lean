import Quoodle.Gateway.Messages

-- The schema of the app-lock bundles that are pushed to the gateway.
namespace Gateway

-- White space as `str.strip` knows it.
def isWhitespace (c : Char) : Bool :=
  let n := c.toNat
  9 ≤ n && n ≤ 13 || 0x1c ≤ n && n ≤ 0x20 || 0x2000 ≤ n && n ≤ 0x200a ||
    n ∈ [0x85, 0xa0, 0x1680, 0x2028, 0x2029, 0x202f, 0x205f, 0x3000]

def strip (s : String) : String :=
  String.ofList ((s.toList.dropWhile isWhitespace).rdropWhile isWhitespace)

structure Conversions where
  toBool : Value → Option Bool
  toInt : Value → Option Int

section Fields

variable {α : Type}

def field (read : Value → Option α) (default : Option α) (d : Value) (k : String) : Option α :=
  match d.getItem k with
  | some v => read v
  | none => default

def readStr (v : Value) : Option String :=
  match v.json with
  | .str s => some s
  | _ => none

def readLiteral (text : String) (v : Value) : Option Unit :=
  if v = .str text then some () else none

def readOptional (read : Value → Option α) (v : Value) : Option (Option α) :=
  if v = .none then some none else (read v).map some

def Value.elements (v : Value) : Option (List Value) :=
  match v with
  | ⟨.arr vs, h⟩ => some <| vs.attach.map fun w => ⟨w.val, Json.Distinct.arr_iff.mp h _ w.property⟩
  | _ => .none

def readList (read : Value → Option α) (v : Value) : Option (List α) :=
  v.elements.bind (List.mapM read)

namespace Conversions

variable (conv : Conversions)

def readBool (v : Value) : Option Bool :=
  match v.json with
  | .bool b => some b
  | _ => conv.toBool v

def readInt (v : Value) : Option Int :=
  match v.json with
  | .num (.int n) => some n
  | _ => conv.toInt v

end Conversions

def nonEmpty (v : String) : Option String :=
  if v = "" ∨ strip v = "" then none else some (strip v)

def bounded (lower upper : Int) (v : Int) : Option Int :=
  if v < lower ∨ v > upper then none else some v

end Fields

inductive MatchType where
  | basename
  | fullPath
  deriving DecidableEq

namespace MatchType

def text : MatchType → String
  | basename => "basename"
  | fullPath => "full_path"

def ofText (text : String) : Option MatchType :=
  if text = "basename" then some basename
  else if text = "full_path" then some fullPath
  else none

theorem ofText_text (m : MatchType) : ofText m.text = some m := by
  cases m
  case basename => rfl
  case fullPath => rfl

end MatchType

-- The only action is to block.
structure AppLockRule where
  ruleId : String
  matchType : MatchType
  value : String
  priority : Int
  expiresAt : Option String
  deriving DecidableEq

structure AppLockPolicyBundle where
  enabled : Bool
  policyVersion : String
  policyHash : String
  eventDedupeSec : Int
  updatedAt : Option String
  rules : List AppLockRule
  deriving DecidableEq

namespace AppLockRule

def ofValue (conv : Conversions) (v : Value) : Option AppLockRule := do
  let ruleId ← field readStr none v "rule_id"
  let matchType ← field readStr none v "match_type"
  let value ← field readStr none v "value"
  let _ ← field (readLiteral "block") (some ()) v "action"
  let priority ← field conv.readInt (some 1000) v "priority"
  let expiresAt ← field (readOptional readStr) (some none) v "expires_at"
  return {
    ruleId := ← nonEmpty ruleId
    matchType := ← MatchType.ofText matchType
    value := ← nonEmpty value
    priority := ← bounded 1 999999 priority
    expiresAt := expiresAt }

def modelDump (r : AppLockRule) : Value :=
  .dict [
    ("rule_id", .str r.ruleId),
    ("match_type", .str r.matchType.text),
    ("value", .str r.value),
    ("action", .str "block"),
    ("priority", .int r.priority),
    ("expires_at", .optionalStr r.expiresAt)
  ]

end AppLockRule

namespace AppLockPolicyBundle

def ofValue (conv : Conversions) (v : Value) : Option AppLockPolicyBundle := do
  let enabled ← field conv.readBool (some false) v "enabled"
  let _ ← field (readLiteral "blocklist") (some ()) v "mode"
  let _ ← field (readLiteral "open") (some ()) v "fail_mode"
  let policyVersion ← field readStr none v "policy_version"
  let policyHash ← field readStr none v "policy_hash"
  let eventDedupeSec ← field conv.readInt (some 30) v "event_dedupe_sec"
  let updatedAt ← field (readOptional readStr) (some none) v "updated_at"
  let rules ← field (readList (AppLockRule.ofValue conv)) (some []) v "rules"
  return {
    enabled := enabled
    policyVersion := policyVersion
    policyHash := policyHash
    eventDedupeSec := ← bounded 1 3600 eventDedupeSec
    updatedAt := updatedAt
    rules := rules }

def modelDump (b : AppLockPolicyBundle) : Value :=
  .dict [
    ("enabled", .bool b.enabled),
    ("mode", .str "blocklist"),
    ("fail_mode", .str "open"),
    ("policy_version", .str b.policyVersion),
    ("policy_hash", .str b.policyHash),
    ("event_dedupe_sec", .int b.eventDedupeSec),
    ("updated_at", .optionalStr b.updatedAt),
    ("rules", .list (b.rules.map AppLockRule.modelDump))
  ]

end AppLockPolicyBundle

-- Blank identifiers are dropped. If none is left, the push is not restricted to devices.
def validateTargetDeviceIds (ids : List String) : Option (List String) :=
  let normalized := (ids.map strip).filter (· ≠ "")
  if normalized.length > 1000 then none else some normalized

namespace PolicyPushRequest

def ofValue (conv : Conversions) (v : Value) : Option PolicyPushRequest := do
  let policyVersion ← field readStr none v "policy_version"
  let policyHash ← field readStr none v "policy_hash"
  let policyUrl ← field readStr none v "policy_url"
  let signedAt ← field readStr none v "signed_at"
  let signature ← field readStr none v "signature"
  let appLock ← field (readOptional (AppLockPolicyBundle.ofValue conv)) (some none) v "app_lock"
  let ids ← field (readOptional (readList readStr)) (some none) v "target_device_ids"
  return {
    policyVersion := policyVersion
    policyHash := policyHash
    policyUrl := policyUrl
    signedAt := signedAt
    signature := signature
    appLock := appLock.map AppLockPolicyBundle.modelDump
    targetDeviceIds := ← validateTargetDeviceIds (ids.getD []) }

end PolicyPushRequest

section Fields

variable {α : Type} {read : Value → Option α} {default : Option α} {d v : Value} {k : String}

theorem field_eq (h : d.getItem k = some v) : field read default d k = read v := by
  rw [field, h]

@[simp]
theorem readStr_str (s : String) : readStr (.str s) = some s :=
  rfl

@[simp]
theorem readLiteral_str (s : String) : readLiteral s (.str s) = some () :=
  if_pos rfl

@[simp]
theorem readBool_bool (conv : Conversions) (b : Bool) : conv.readBool (.bool b) = some b :=
  rfl

@[simp]
theorem readInt_int (conv : Conversions) (n : Int) : conv.readInt (.int n) = some n :=
  rfl

@[simp]
theorem readOptional_none : readOptional read .none = some none :=
  if_pos rfl

@[simp]
theorem readOptional_str (s : String) : readOptional readStr (.str s) = some (some s) :=
  if_neg (by simp [Value.str, Value.none])

@[simp]
theorem readOptional_optionalStr (s : Option String) :
    readOptional readStr (.optionalStr s) = some s := by
  cases s
  case none => exact readOptional_none
  case some s => exact readOptional_str s

@[simp]
theorem elements_list (vs : List Value) : (Value.list vs).elements = some vs := by
  simp only [Value.list, Value.elements, Option.some_inj]
  apply List.ext_getElem
  · simp
  · intro i h₁ h₂
    simp

theorem readList_list (vs : List Value) : readList read (.list vs) = vs.mapM read := by
  rw [readList, elements_list]
  rfl

theorem eq_map_of_mapM {β : Type} {f : α → Option β} {g : α → β} {as : List α} {bs : List β}
    (hf : ∀ a b, f a = some b → b = g a) (h : as.mapM f = some bs) : bs = as.map g := by
  induction as generalizing bs
  case nil =>
    cases h
    rfl
  case cons a as hi =>
    rw [List.mapM_cons] at h
    obtain ⟨b, hb, h⟩ := Option.bind_eq_some_iff.mp h
    obtain ⟨cs, hc, h⟩ := Option.bind_eq_some_iff.mp h
    cases h
    rw [hf a b hb, hi hc, List.map_cons]

end Fields

section Schema

variable {conv : Conversions}

def AppLockRule.stripped (r : AppLockRule) : AppLockRule :=
  { r with ruleId := strip r.ruleId, value := strip r.value }

theorem eq_of_nonEmpty {s t : String} (h : nonEmpty s = some t) : t = strip s := by
  unfold nonEmpty at h
  split at h
  case isTrue => cases h
  case isFalse => exact (Option.some_inj.mp h).symm

theorem eq_of_bounded {lower upper n m : Int} (h : bounded lower upper n = some m) : m = n := by
  unfold bounded at h
  split at h
  case isTrue => cases h
  case isFalse => exact (Option.some_inj.mp h).symm

theorem AppLockRule.getItem_modelDump (r : AppLockRule) (k : String) :
    r.modelDump.getItem k = List.lookup k [
      ("rule_id", .str r.ruleId),
      ("match_type", .str r.matchType.text),
      ("value", .str r.value),
      ("action", .str "block"),
      ("priority", .int r.priority),
      ("expires_at", .optionalStr r.expiresAt)] :=
  Value.getItem_dict (by simp [Json.keys]) k

theorem AppLockRule.eq_of_ofValue_modelDump {r s : AppLockRule}
    (h : ofValue conv r.modelDump = some s) : s = r.stripped := by
  have hd := r.getItem_modelDump
  simp only [ofValue] at h
  rw [field_eq (hd "rule_id"), field_eq (hd "match_type"), field_eq (hd "value"),
    field_eq (hd "action"), field_eq (hd "priority"), field_eq (hd "expires_at")] at h
  simp only [readStr_str, readLiteral_str, readInt_int, readOptional_optionalStr,
    MatchType.ofText_text, Option.bind_eq_bind, Option.bind_some] at h
  obtain ⟨ruleId, hi, h⟩ := Option.bind_eq_some_iff.mp h
  obtain ⟨value, hv, h⟩ := Option.bind_eq_some_iff.mp h
  obtain ⟨priority, hp, h⟩ := Option.bind_eq_some_iff.mp h
  cases h
  rw [eq_of_nonEmpty hi, eq_of_nonEmpty hv, eq_of_bounded hp]
  rfl

end Schema

section Message

variable {cfg : Settings} {stamp : Stamp} {p : Policy} {r : PolicyPushRequest}
variable {now deviceId sessionId : String} {appLock m : Value}

-- The bundle of a push is meant for a device if it was pushed to this device, or to all and the device
-- has none of its own.
def IsTargeted (p : Policy) (r : PolicyPushRequest) (deviceId : String) : Prop :=
  deviceId ≠ "" ∧
    (deviceId ∈ r.targetDeviceIds ∨ r.targetDeviceIds = [] ∧ p.deviceAppLock.lookup deviceId = none)

theorem getItem_dict_append (ms : List (String × Value)) (k : String) (v : Value) :
    (Value.dict (ms ++ [(k, v)])).getItem k = some v := by
  apply Value.getItem_eq_some_iff.mpr
  refine ⟨_, rfl, ?_⟩
  rw [Json.onValues, List.map_append, Json.assignAll, List.foldl_append]
  exact Json.lookup_assign_self ..

theorem items_dict {ms : List (String × Value)} (h : (Json.keys ms).Nodup) :
    (Value.dict ms).items = some ms := by
  have ha : Json.assignAll (Json.onValues Value.json ms) = Json.onValues Value.json ms :=
    Json.assignAll_of_nodup (by simpa using h)
  simp only [Value.dict, Value.items, Option.some_inj, ha]
  apply List.ext_getElem
  · simp [Json.onValues]
  · intro i h₁ h₂
    simp [Json.onValues]

theorem lookup_foldl_assign {α : Type} {ids : List String} {x : α} {d : String}
    {locks : List (String × α)} (h : d ∈ ids ∨ locks.lookup d = some x) :
    (ids.foldl (fun locks d => Json.assign d x locks) locks).lookup d = some x := by
  induction ids generalizing locks
  case nil => exact h.resolve_left (by simp)
  case cons e ids hi =>
    rw [List.foldl_cons]
    apply hi
    by_cases he : d = e
    case pos => exact .inr (he ▸ Json.lookup_assign_self ..)
    rw [Json.lookup_assign_of_ne he]
    exact h.imp_left fun hm => (List.mem_cons.mp hm).resolve_left he

theorem appLock_of_buildMessage (ha : r.appLock = some appLock) (ht : IsTargeted p r deviceId)
    (hm : (p.update r now).buildMessage cfg stamp deviceId sessionId = some m) :
    m.getItem "type" = some (.str "POLICY_UPDATE") ∧
      ∃ body : Value, m.getItem "body" = some body ∧ body.getItem "app_lock" = some appLock := by
  have hk (k : String) (hk : k ≠ "sig") : m.getItem k = _ :=
    (getItem_sign hm hk).trans (Value.getItem_dict (by simp [Json.keys]) k)
  refine ⟨hk _ (by decide), _, hk _ (by decide), ?_⟩
  simp only [if_neg ht.left, Policy.update, ha]
  cases ht.right
  case inl hd =>
    rw [lookup_foldl_assign (.inl hd)]
    exact getItem_dict_append ..
  case inr hd =>
    simp only [hd.left, List.foldl_nil, hd.right]
    rw [Value.getItem_dict (by simp [Json.keys])]
    rfl

end Message

end Gateway
