import Quoodle.Data.Overlap
import Quoodle.ControlPlane.CommandService
import Quoodle.ControlPlane.Totp
import Quoodle.Gateway.Reports

-- Requests to run a command, with whatever values they have, that are handled at the same time.
namespace ControlPlane.Enqueue

open Gateway (Value)

section Values

def isEmpty (v : Value) : Bool :=
  match v.json with
  | .null => true
  | .bool b => !b
  | .num (.int n) => n = 0
  | .num (.float x) => x.text = "0.0".toList || x.text = "-0.0".toList
  | .str s => !isTruthy s
  | .arr vs => vs.isEmpty
  | .obj ms => ms.isEmpty

def isArray (v : Value) : Bool :=
  match v.json with
  | .arr _ | .obj _ => true
  | _ => false

def string? (v : Value) : Option String :=
  match v.json with
  | .str s => some s
  | _ => none

-- Models `a ?? b`.
def coalesce (a b : Value) : Value :=
  if a = .none then b else a

end Values

structure Payload where
  clientMessageId : Value
  deviceId : Value
  userId : Value
  userRole : Value
  method : Value
  params : Value
  sensitive : Value
  twoFactorCode : Value
  policyHash : Value
  attestationStatus : Value
  lastUpdateState : Value
  clockSkewSeconds : Value
  originChannel : Value
  originSessionId : Value
  originMobileDeviceId : Value

structure Row where
  id : String
  clientMessageId : String
  deviceId : String
  userId : Option String
  originChannel : String
  originSessionId : Option String
  originMobileDeviceId : Option String
  method : String
  params : Value
  sensitive : Bool
  traceId : String
  queuedAt : Nat
  state : String

def Row.key (row : Row) : String × String :=
  (row.clientMessageId, row.deviceId)

structure Runtime where
  registry : String → Option CommandDefinition
  -- The conversion of a value to a string, which may throw an exception.
  toText : Value → Option String
  validate : List (String × List Rule) → Value → List String
  toInteger : Value → Option Int
  -- The comparison of a value with five seconds.
  isSkewed : Value → Bool
  hmac : Totp.Hmac

-- The time, and the rows of the tables that the service only reads.
structure Moment where
  devices : List Device
  users : List User
  now : Nat

namespace Moment

def device (m : Moment) (id : String) : Option Device :=
  Rows.find Device.deviceId m.devices id

def user (m : Moment) (id : String) : Option User :=
  Rows.find User.id m.users id

end Moment

structure Store where
  moment : Moment
  past : List Moment
  commands : List Row
  answers : List Reply

def Store.answer (s : Store) (r : Reply) : Store :=
  { s with answers := s.answers ++ [r] }

abbrev Check := Except (Option Reply)

section Checks

variable (rt : Runtime)

def reject {α : Type} (reason : String) : Check α :=
  .error (some (.rejected reason))

def rejectIf (c : Bool) (reason : String) : Check Unit :=
  if c then reject reason else .ok ()

def text (v : Value) : Check String :=
  match rt.toText v with
  | some t => .ok t
  | none => .error none

def array (v : Value) : Check Value :=
  if isArray v then .ok v else .error none

def clamp (field : String) (upper : Int) (params : Value) : Value :=
  match (params.getItem field).bind rt.toInteger with
  | some n => (params.setItem field (.int (max 1 (min n upper)))).getD params
  | none => params

def normalizedParams (method : String) (params : Value) : Value :=
  if method = "list_files" then
    clamp rt "max_depth" 16 (clamp rt "limit" 1000 (if isArray params then params else .list []))
  else coalesce params (.list [])

-- Models `ComplianceChecker::evaluateDevice`. There is no signal about certificates.
def isNonCompliant (device : Device) (p : Payload) : Bool :=
  let attestationStatus := ((string? p.attestationStatus).filter (!isBlank ·)).getD <|
    if device.isCompliant then "pass" else "unknown"
  attestationStatus ≠ "pass" || string? p.lastUpdateState = some "failed" ||
    (device.policyHash.isSome && p.policyHash ≠ .none &&
      p.policyHash ≠ .optionalStr device.policyHash) ||
    rt.isSkewed (coalesce p.clockSkewSeconds (.int 0)) || device.riskScore.getD 0 ≥ 9000

def checkCommand (device : Device) (p : Payload) : Check (String × CommandDefinition × Value) := do
  let method ← text rt (coalesce p.method (.str ""))
  let definition ← (rt.registry method).elim (reject "unknown_command") .ok
  rejectIf (!CommandService.runtimeSupportedMethods.contains method) "not_supported_runtime"
  let params ← array (normalizedParams rt method p.params)
  rejectIf (rt.validate definition.paramsRules params ≠ []) "invalid_params"
  rejectIf (isNonCompliant rt device p && definition.riskLevel ≠ .low &&
    !CommandService.complianceBypassMethods.contains method) "compliance_failed"
  .ok (method, definition, params)

def twoFactorVerified (m : Moment) (p : Payload) : Bool :=
  match string? p.twoFactorCode, string? p.userId with
  | some code, some id =>
    code ≠ "" && id ≠ "" && (m.user id).any fun u =>
      u.twoFactorEnabled && u.twoFactorSecret.any fun secret =>
        isTruthy secret && Totp.verify rt.hmac secret code m.now
  | _, _ => false

-- Models `PolicyEvaluator::evaluate` for a hash that may be any value.
def evaluate (definition : CommandDefinition) (device : Device) (userRole : String)
    (policyHash : Value) (twoFactorVerified : Bool) : Evaluation :=
  if !definition.isRoleAllowed userRole then ⟨.deny, "role_not_allowed"⟩
  else if device.lifecycleState = .quarantined && !definition.allowedInQuarantine then
    ⟨.deny, "device_quarantined"⟩
  else if !isEmpty policyHash && device.policyHash.any isTruthy &&
      policyHash ≠ .optionalStr device.policyHash then
    ⟨.deny, "policy_out_of_sync"⟩
  else if device.riskScore.getD 0 ≥ 8000 && definition.riskLevel ≠ .low then
    ⟨.deny, "risk_too_high"⟩
  else if (definition.requires2fa || definition.riskLevel = .high) && !twoFactorVerified then
    ⟨.require2fa, "2fa_required"⟩
  else ⟨.allow, "ok"⟩

def checkUser (m : Moment) (device : Device) (definition : CommandDefinition) (p : Payload) :
    Check Unit := do
  let verified := twoFactorVerified rt m p
  let role ← text rt (coalesce p.userRole (.str "user"))
  let policy := evaluate definition device role p.policyHash verified
  rejectIf (policy.decision = .deny) policy.reason
  if policy.decision = .require2fa && isEmpty p.twoFactorCode then .error (some .require2fa)
  else rejectIf (policy.decision = .require2fa && !isEmpty p.twoFactorCode && !verified) "invalid_2fa"

def trimmed (v : Value) : Option String :=
  ((string? v).map trim).filter (· ≠ "")

def newRow (fresh : Fresh) (now : Nat) (deviceId method : String) (params : Value) (p : Payload) :
    Option Row := do
  guard (p.clientMessageId ≠ .none)
  let clientMessageId ← rt.toText p.clientMessageId
  let userId ← (if p.userId = .none then some none else (rt.toText p.userId).map some)
  return {
    id := fresh.id
    clientMessageId := clientMessageId
    deviceId := deviceId
    userId := userId
    originChannel := (trimmed p.originChannel).getD "api"
    originSessionId := trimmed p.originSessionId
    originMobileDeviceId := trimmed p.originMobileDeviceId
    method := method
    params := params
    sensitive := !isEmpty p.sensitive
    traceId := fresh.traceId
    queuedAt := now
    state := "queued"
  }

end Checks

inductive Task where
  | found (p : Payload) (deviceId : String) (device : Device)
  | checked (p : Payload) (deviceId : String) (device : Device) (method : String)
    (definition : CommandDefinition) (params : Value)
  | allowed (p : Payload) (deviceId : String) (device : Device) (method : String)
    (definition : CommandDefinition) (params : Value)

section Source

variable (rt : Runtime)

def findDevice (s : Store) (p : Payload) : Store × Option Task :=
  match rt.toText p.deviceId with
  | none => (s, none)
  | some id =>
    match s.moment.device id with
    | none => (s.answer (.rejected "device_not_found"), none)
    | some device => (s, some (.found p id device))

def isExisting (s : Store) (p : Payload) (deviceId : String) : Bool :=
  p.clientMessageId ≠ .none && (rt.toText p.clientMessageId).any fun id =>
    s.commands.any (·.key = (id, deviceId))

def Store.refuse (s : Store) : Option Reply → Store
  | some r => s.answer r
  | none => s

-- The steps of a call that has found its device. The database refuses a second row with the same
-- identifiers.
def proceed (s : Store) (t : Task) (fresh : Fresh) : Store × Option Task :=
  match t with
  | .found p id device =>
    if isExisting rt s p id then (s.answer .accepted, none)
    else
      match checkCommand rt device p with
      | .error r => (s.refuse r, none)
      | .ok (method, definition, params) => (s, some (.checked p id device method definition params))
  | .checked p id device method definition params =>
    match checkUser rt s.moment device definition p with
    | .error r => (s.refuse r, none)
    | .ok _ => (s, some (.allowed p id device method definition params))
  | .allowed p id _ method _ params =>
    match newRow rt fresh s.moment.now id method params p with
    | none => (s, none)
    | some row =>
      if s.commands.any (·.key = row.key) then (s, none)
      else ({ s with commands := s.commands ++ [row] }.answer .accepted, none)

def calls : Overlap.System Store Task Payload Fresh Moment where
  begin := findDevice rt
  resume := proceed rt
  change s m := { s with moment := m, past := s.moment :: s.past }

end Source

def Store.Knew (s : Store) (P : Moment → Prop) : Prop :=
  ∃ m ∈ s.moment :: s.past, P m

structure Authorized (rt : Runtime) (s : Store) (row : Row) (p : Payload) (device : Device)
    (definition : CommandDefinition) : Prop where
  message : rt.toText p.clientMessageId = some row.clientMessageId
  target : rt.toText p.deviceId = some row.deviceId
  found : s.Knew (·.device row.deviceId = some device)
  named : rt.toText (coalesce p.method (.str "")) = some row.method
  registered : rt.registry row.method = some definition
  supported : row.method ∈ CommandService.runtimeSupportedMethods
  valid : rt.validate definition.paramsRules row.params = []
  role : ∃ role ∈ rt.toText (coalesce p.userRole (.str "user")),
    definition.isRoleAllowed role
  quarantine : device.lifecycleState = .quarantined → definition.allowedInQuarantine
  risk : device.riskScore.getD 0 < 8000 ∨ definition.riskLevel = .low
  twoFactor : definition.requires2fa ∨ definition.riskLevel = .high →
    ∃ id code, p.userId = .str id ∧ p.twoFactorCode = .str code ∧ s.Knew fun m =>
      ∃ user ∈ m.user id, user.twoFactorEnabled ∧ ∃ secret ∈ user.twoFactorSecret,
        Totp.IsCode rt.hmac secret code m.now

section Proofs

variable {rt : Runtime} {s : Store} {p : Payload} {device : Device} {m : Moment}
variable {definition : CommandDefinition} {method deviceId : String} {params : Value} {row : Row}
variable {s' : Store} {t : Task}

theorem string?_eq_some {v : Value} {t : String} (h : string? v = some t) : v = .str t := by
  unfold string? at h
  split at h
  case h_1 hv => exact Value.ext (Option.some.inj h ▸ hv)
  case h_2 => cases h

theorem text_eq_ok {v : Value} {t : String} (h : text rt v = .ok t) : rt.toText v = some t := by
  unfold text at h
  split at h
  case h_1 ht => exact Except.ok.inj h ▸ ht
  case h_2 => cases h

theorem rejectIf_eq_ok {c : Bool} {reason : String} (h : rejectIf c reason = .ok ()) :
    c = false := by
  cases c
  case false => rfl
  case true => cases h

theorem checked_of_checkCommand (h : checkCommand rt device p = .ok (method, definition, params)) :
    rt.toText (coalesce p.method (.str "")) = some method ∧
      rt.registry method = some definition ∧
      method ∈ CommandService.runtimeSupportedMethods ∧
      rt.validate definition.paramsRules params = [] := by
  simp only [checkCommand, Gateway.bind_eq_ok_iff] at h
  obtain ⟨method', hm, definition', hd, _, hs, params', _, _, hv, _, _, he⟩ := h
  cases he
  refine ⟨text_eq_ok hm, ?_, ?_, ?_⟩
  · cases hr : rt.registry method <;> rw [hr] at hd <;> cases hd
    rfl
  · simpa using rejectIf_eq_ok hs
  · simpa using rejectIf_eq_ok hv

theorem isCode_of_twoFactorVerified (h : twoFactorVerified rt m p) :
    ∃ id code, p.userId = .str id ∧ p.twoFactorCode = .str code ∧
      ∃ user ∈ m.user id, user.twoFactorEnabled ∧ ∃ secret ∈ user.twoFactorSecret,
        Totp.IsCode rt.hmac secret code m.now := by
  unfold twoFactorVerified at h
  split at h
  case h_2 => cases h
  case h_1 code id hc hi =>
    simp only [Bool.and_eq_true, Option.any_eq_true] at h
    obtain ⟨_, user, hu, he, secret, hs, _, hv⟩ := h
    exact ⟨id, code, string?_eq_some hi, string?_eq_some hc, user, hu, he, secret, hs,
      Totp.isCode_of_verify hv⟩

structure Allows (definition : CommandDefinition) (device : Device) (userRole : String)
    (verified : Bool) : Prop where
  role : definition.isRoleAllowed userRole
  quarantine : device.lifecycleState = .quarantined → definition.allowedInQuarantine
  risk : device.riskScore.getD 0 < 8000 ∨ definition.riskLevel = .low
  twoFactor : definition.requires2fa ∨ definition.riskLevel = .high → verified

theorem allows_of_evaluate {userRole : String} {verified : Bool} (policyHash : Value)
    (hd : (evaluate definition device userRole policyHash verified).decision ≠ .deny)
    (h2 : (evaluate definition device userRole policyHash verified).decision = .require2fa →
      verified) :
    Allows definition device userRole verified := by
  unfold evaluate at hd h2
  split_ifs at hd h2 with hr hq hs hk hf
  case pos | pos | pos | pos => exact absurd rfl hd
  all_goals
    have hl : device.riskScore.getD 0 < 8000 ∨ definition.riskLevel = .low := by
      by_contra hn
      rw [not_or, not_lt] at hn
      exact hk (by simp [hn])
    refine ⟨by simpa using hr, by simpa using hq, hl, ?_⟩
  case pos => exact fun _ => h2 rfl
  case neg => simpa [or_imp, forall_and] using hf

theorem allows_of_checkUser (h : checkUser rt m device definition p = .ok ()) :
    ∃ role ∈ rt.toText (coalesce p.userRole (.str "user")),
      Allows definition device role (twoFactorVerified rt m p) := by
  simp only [checkUser, Gateway.bind_eq_ok_iff] at h
  obtain ⟨role, hr, _, hd, h⟩ := h
  refine ⟨role, text_eq_ok hr, allows_of_evaluate p.policyHash ?_ ?_⟩
  · simpa using rejectIf_eq_ok hd
  · intro h2
    split at h
    case isTrue => cases h
    case isFalse he =>
      have hv := rejectIf_eq_ok h
      simp_all

theorem Store.Knew.mono {P : Moment → Prop} (h : s.Knew P)
    (hs : s.moment :: s.past ⊆ s'.moment :: s'.past) : s'.Knew P := by
  obtain ⟨m, hm, hp⟩ := h
  exact ⟨m, hs hm, hp⟩

def Remembers (s s' : Store) : Prop :=
  s.moment :: s.past ⊆ s'.moment :: s'.past

theorem Authorized.mono (h : Authorized rt s row p device definition)
    (hs : Remembers s s') : Authorized rt s' row p device definition where
  __ := h
  found := h.found.mono hs
  twoFactor h2 := by
    obtain ⟨id, code, hi, hc, hk⟩ := h.twoFactor h2
    exact ⟨id, code, hi, hc, hk.mono hs⟩

def Task.Sound (rt : Runtime) (s : Store) : Task → Prop
  | .found p id device => rt.toText p.deviceId = some id ∧ s.Knew (·.device id = some device)
  | .checked p id device method definition params =>
    rt.toText p.deviceId = some id ∧ s.Knew (·.device id = some device) ∧
      checkCommand rt device p = .ok (method, definition, params)
  | .allowed p id device method definition params =>
    rt.toText p.deviceId = some id ∧ s.Knew (·.device id = some device) ∧
      checkCommand rt device p = .ok (method, definition, params) ∧
      s.Knew (checkUser rt · device definition p = .ok ())

theorem Task.Sound.mono (h : t.Sound rt s) (hs : Remembers s s') : t.Sound rt s' := by
  cases t
  case found => exact ⟨h.1, h.2.mono hs⟩
  case checked => exact ⟨h.1, h.2.1.mono hs, h.2.2⟩
  case allowed => exact ⟨h.1, h.2.1.mono hs, h.2.2.1, h.2.2.2.mono hs⟩

theorem authorized_of_newRow {fresh : Fresh} {now : Nat}
    (ht : (Task.allowed p deviceId device method definition params).Sound rt s)
    (h : newRow rt fresh now deviceId method params p = some row) :
    Authorized rt s row p device definition := by
  obtain ⟨hi, hf, hc, hu⟩ := ht
  obtain ⟨hm, hr, hs, hv⟩ := checked_of_checkCommand hc
  simp only [newRow, Option.bind_eq_bind, Option.bind_eq_some_iff, Option.pure_def,
    Option.some.injEq] at h
  obtain ⟨_, _, id, hid, _, _, rfl⟩ := h
  obtain ⟨m, hm', hu⟩ := hu
  obtain ⟨role, hr', ha⟩ := allows_of_checkUser hu
  refine ⟨hid, hi, hf, hm, hr, hs, hv, ⟨role, hr', ha.role⟩, ha.quarantine, ha.risk, fun h2 => ?_⟩
  obtain ⟨id, code, hi, hc, hk⟩ := isCode_of_twoFactorVerified (ha.twoFactor h2)
  exact ⟨id, code, hi, hc, m, hm', hk⟩

-- What holds of the commands whatever calls there are.
structure Sound (rt : Runtime) (s : Store) : Prop where
  authorized : ∀ row ∈ s.commands, ∃ p device definition, Authorized rt s row p device definition
  nodup : (s.commands.map Row.key).Nodup

theorem Sound.of_eq (h : Sound rt s) (hc : s'.commands = s.commands)
    (hs : Remembers s s') : Sound rt s' := by
  refine ⟨fun row hr => ?_, hc ▸ h.nodup⟩
  obtain ⟨p, device, definition, ha⟩ := h.authorized row (hc ▸ hr)
  exact ⟨p, device, definition, ha.mono hs⟩

theorem Sound.create (h : Sound rt s) (ha : Authorized rt s row p device definition)
    (hn : row.key ∉ s.commands.map Row.key) (answers : List Reply) :
    Sound rt { s with commands := s.commands ++ [row], answers := answers } := by
  have hs : Remembers s { s with commands := s.commands ++ [row], answers := answers } := fun _ h => h
  refine ⟨fun r hr => ?_, ?_⟩
  · cases List.mem_append.mp hr
    case inl hr =>
      obtain ⟨p, device, definition, ha⟩ := h.authorized r hr
      exact ⟨p, device, definition, ha.mono hs⟩
    case inr hr => exact ⟨p, device, definition, List.mem_singleton.mp hr ▸ ha.mono hs⟩
  · rw [List.map_append, List.map_singleton, ← List.concat_eq_append, List.nodup_concat]
    exact ⟨hn, h.nodup⟩

theorem refuse_eq (s : Store) (r : Option Reply) :
    ∃ answers, s.refuse r = { s with answers := answers } := by
  cases r
  case none => exact ⟨s.answers, rfl⟩
  case some r => exact ⟨s.answers ++ [r], rfl⟩

theorem proceed_cases (rt : Runtime) (s : Store) (t : Task) (fresh : Fresh) :
    (∃ answers, (proceed rt s t fresh).1 = { s with answers := answers }) ∨
    (∃ p id device method definition params row answers,
      t = .allowed p id device method definition params ∧
      newRow rt fresh s.moment.now id method params p = some row ∧
      row.key ∉ s.commands.map Row.key ∧
      proceed rt s t fresh =
        ({ s with commands := s.commands ++ [row], answers := answers }, none)) := by
  cases t
  case found p id device =>
    simp only [proceed]
    split
    case isTrue => exact .inl ⟨_, rfl⟩
    split
    case h_1 r _ => exact .inl (refuse_eq s r)
    case h_2 => exact .inl ⟨_, rfl⟩
  case checked =>
    simp only [proceed]
    split
    case h_1 r _ => exact .inl (refuse_eq s r)
    case h_2 => exact .inl ⟨_, rfl⟩
  case allowed p id device method definition params =>
    simp only [proceed]
    split
    case h_1 => exact .inl ⟨_, rfl⟩
    case h_2 row hr =>
      split
      case isTrue => exact .inl ⟨_, rfl⟩
      case isFalse hn =>
        refine .inr ⟨p, id, device, method, definition, params, row, _, rfl, hr, ?_, rfl⟩
        simpa using hn

theorem sound_proceed (h : t.Sound rt s) (fresh : Fresh) :
    ∀ t' ∈ (proceed rt s t fresh).2, t'.Sound rt s := by
  cases t
  case found =>
    simp only [proceed]
    split
    case isTrue => simp
    split
    case h_1 => simp
    case h_2 hc =>
      rintro _ ⟨⟩
      exact ⟨h.1, h.2, hc⟩
  case checked =>
    simp only [proceed]
    split
    case h_1 => simp
    case h_2 hu =>
      rintro _ ⟨⟩
      exact ⟨h.1, h.2.1, h.2.2, s.moment, List.mem_cons_self, hu⟩
  case allowed =>
    simp only [proceed]
    split
    case h_1 => simp
    case h_2 => split <;> simp

theorem sound_findDevice (s : Store) (p : Payload) :
    ∀ t ∈ (findDevice rt s p).2, t.Sound rt (findDevice rt s p).1 := by
  unfold findDevice
  split
  case h_1 => simp
  case h_2 hi =>
    split
    case h_1 => simp
    case h_2 hd =>
      rintro _ ⟨⟩
      exact ⟨hi, s.moment, List.mem_cons_self, hd⟩

theorem commands_findDevice (s : Store) (p : Payload) :
    (findDevice rt s p).1.commands = s.commands := by
  unfold findDevice
  split
  case h_1 => rfl
  case h_2 => split <;> rfl

theorem remembers_proceed (s : Store) (t : Task) (fresh : Fresh) :
    Remembers s (proceed rt s t fresh).1 := by
  obtain ⟨_, h⟩ | ⟨_, _, _, _, _, _, _, _, _, _, _, h⟩ := proceed_cases rt s t fresh <;>
    exact h ▸ fun _ h => h

theorem remembers_findDevice (s : Store) (p : Payload) : Remembers s (findDevice rt s p).1 := by
  unfold findDevice
  split
  case h_1 => exact fun _ h => h
  case h_2 => split <;> exact fun _ h => h

theorem sound_calls_proceed (h : Sound rt s) (ht : t.Sound rt s) (fresh : Fresh) :
    Sound rt (proceed rt s t fresh).1 := by
  obtain ⟨answers, he⟩ | ⟨p, id, device, method, definition, params, row, answers, rfl, hr, hn,
    he⟩ := proceed_cases rt s t fresh
  case inl =>
    rw [he]
    exact h.of_eq rfl fun _ h => h
  case inr =>
    rw [he]
    exact h.create (authorized_of_newRow ht hr) hn answers

theorem remembers_calls : Overlap.Extends (calls rt) Remembers where
  refl _ := fun _ h => h
  begin s p := remembers_findDevice s p
  resume s t o := remembers_proceed s t o
  change _ m := List.subset_cons_self m _

theorem preserves : Overlap.Preserves (calls rt) (fun _ _ => True) (Sound rt)
    (fun s t => t.Sound rt s) where
  begin h _ :=
    ⟨h.shared.of_eq (commands_findDevice ..) (remembers_findDevice ..), sound_findDevice _ _⟩
  resume {s _ fresh t} h ht _ := by
    have hs := h.tasks ht
    refine ⟨sound_calls_proceed h.shared hs fresh, fun t' ht' => ?_⟩
    exact (sound_proceed hs fresh t' ht').mono (remembers_proceed ..)
  change {s m} h _ := h.shared.of_eq rfl (remembers_calls.change s.shared m)
  others _ _ hs _ ht := ht.mono (remembers_calls.step hs)

end Proofs

-- Whatever calls overlap, every command was created by a call that was entitled to it, and no two
-- commands have the same identifiers.
theorem sound_of_run (rt : Runtime) (m : Moment) (as : List (Overlap.Action Payload Fresh Moment))
    (s : Overlap.State Store Task)
    (h : Transition.run (Overlap.step (calls rt)) (.idle ⟨m, [], [], []⟩) as = some s) :
    Sound rt s.shared := by
  have hi : Overlap.Holds (Sound rt) (fun s t => t.Sound rt s)
      (.idle ⟨m, [], [], []⟩ : Overlap.State Store Task) := .idle ⟨nofun, List.nodup_nil⟩
  exact (Transition.run_invariant (fun h hs => h.step preserves trivial hs) h hi).shared

def exampleRuntime : Runtime where
  registry := Registry.get
  toText := string?
  validate _ _ := []
  toInteger _ := none
  isSkewed _ := false
  hmac := ⟨fun _ _ => List.replicate 20 0, fun _ _ => rfl⟩

def exampleMoment : Moment where
  devices := [{ Device.new "dev-1" none .online none with complianceStatus := "compliant" }]
  users := [⟨"u-1", "admin", true, some "GEZDGNBV"⟩]
  now := 59

def rebootPayload : Payload where
  clientMessageId := .str "m-1"
  deviceId := .str "dev-1"
  userId := .str "u-1"
  userRole := .str "admin"
  method := .str "reboot_device"
  params := .none
  sensitive := .int 0
  twoFactorCode := .str "000 000"
  policyHash := .none
  attestationStatus := .none
  lastUpdateState := .none
  clockSkewSeconds := .none
  originChannel := .none
  originSessionId := .none
  originMobileDeviceId := .none

-- Two calls for the same command, of which one finds out only when it is about to create it.
def overlapping : List (Overlap.Action Payload Fresh Moment) := [
  .begin 0 rebootPayload, .begin 1 rebootPayload,
  .resume 0 ⟨"c-1", "t-1", 0⟩, .resume 1 ⟨"c-2", "t-2", 0⟩,
  .resume 0 ⟨"c-1", "t-1", 0⟩, .resume 1 ⟨"c-2", "t-2", 0⟩,
  .resume 1 ⟨"c-2", "t-2", 0⟩, .resume 0 ⟨"c-1", "t-1", 0⟩
]

theorem sound_of_run_overlapping :
    ∃ s, Transition.run (Overlap.step (calls exampleRuntime)) (.idle ⟨exampleMoment, [], [], []⟩)
        overlapping = some s ∧
      s.shared.commands.map Row.id = ["c-2"] ∧ Sound exampleRuntime s.shared := by
  have h : (Transition.run (Overlap.step (calls exampleRuntime))
      (.idle ⟨exampleMoment, [], [], []⟩) overlapping).any
        (·.shared.commands.map Row.id = ["c-2"]) := by decide
  obtain ⟨s, hs, hc⟩ := Transition.exists_of_any h
  exact ⟨s, hs, hc, sound_of_run _ _ _ s hs⟩

end ControlPlane.Enqueue
