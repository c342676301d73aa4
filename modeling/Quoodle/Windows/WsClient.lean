import Quoodle.Data.Calendar
import Quoodle.Gateway.Sessions

-- What the agent for Windows does with a command that is delivered to it.
namespace Windows

open Json.Nlohmann

-- How the agent is set up, and what it needs from its libraries.
structure Environment where
  -- Whether `AGENT_REQUIRE_COMMAND_SIGNATURE` is anything but `0`.
  requireSignature : Bool
  -- The double that is read from a literal, and the integer that it is converted to.
  readDouble : List Char → FloatText
  truncate : FloatText → Int
  -- Whether a signature is one of the canonical form of an envelope, with the key that the agent has
  -- or with the one that it fetches if the former does not fit.
  verify : Json Number → String → Bool

structure Circumstances where
  now : Int
  quarantined : Bool
  policyHash : String

structure State where
  lastCommandSeq : Nat
  -- The identifiers of the commands whose operation was run.
  executed : List String

section Members

variable {α : Type}

-- Models `v[key]`, which makes an object of `null`.
def index (v : Json Number) (key : String) : Option (Json Number) :=
  match v with
  | .obj _ => some ((member v key).getD .null)
  | .null => some .null
  | _ => none

-- Models `v.value(key, fallback)`, which throws an exception if the member is of another type.
def value (read : Json Number → Option α) (v : Json Number) (key : String) (fallback : α) :
    Option α :=
  match v with
  | .obj _ => (member v key).elim (some fallback) read
  | _ => none

def readString : Json Number → Option String
  | .str s => some s
  | _ => none

end Members

namespace Environment

variable (env : Environment)

def toInt : Number → Int
  | .integer n => n.val
  | .float t => env.truncate t

def toUInt64 (n : Number) : Nat :=
  (env.toInt n % 2 ^ 64).toNat

def readUInt64 : Json Number → Option Nat
  | .num n => some (env.toUInt64 n)
  | _ => none

def readInt32 : Json Number → Option Int
  | .num n => some ((env.toInt n).bmod (2 ^ 32))
  | .bool b => some b.toNat
  | _ => none

def number (n : Gateway.Number) : Number :=
  match readInteger n.text with
  | some n => .integer n
  | none => .float (env.readDouble n.text)

end Environment

-- Whatever follows the seconds is ignored.
def parseIso8601ToEpoch (timestamp : String) : Int :=
  match Calendar.scan Calendar.isoDateTime ⟨0, 0, 0, 0, 0, 0⟩ timestamp.toList with
  | some (tm, _) => tm.toSeconds
  | none => 0

def checkTtl (now : Int) (timestamp : String) (ttlSeconds : Int) : Bool :=
  let envelopeTime := parseIso8601ToEpoch timestamp
  envelopeTime ≠ 0 && now ≤ envelopeTime + ttlSeconds

inductive Failure where
  | signatureMissing | seqReplay | ttlExpired | signatureInvalid | parseError
  deriving DecidableEq

namespace Failure

def code : Failure → String
  | signatureMissing => "SIGNATURE_MISSING"
  | seqReplay => "SEQ_REPLAY"
  | ttlExpired => "TTL_EXPIRED"
  | signatureInvalid => "SIGNATURE_INVALID"
  | parseError => "PARSE_ERROR"

def errorCode : Failure → Int
  | ttlExpired => 4005
  | seqReplay => 4006
  | signatureMissing | signatureInvalid | parseError => 4003

end Failure

section Verify

variable (env : Environment)

-- Whether the time to live of an envelope has not passed. Without a header it has none.
def isLive (now : Int) (envelope : Json Number) : Option Bool :=
  match member envelope "header" with
  | none => some true
  | some header => do
    let timestamp ← value readString header "timestamp" ""
    let ttlSeconds ← value env.readInt32 header "ttl_seconds" 0
    return timestamp = "" || ttlSeconds ≤ 0 || checkTtl now timestamp ttlSeconds

def verifyCommandEnvelope (now : Int) (lastSeq : Nat) (envelope : Json Number) : Option Failure :=
  match value readString envelope "sig" "" with
  | none => some .parseError
  | some sig =>
    if sig = "" then some .signatureMissing
    else
      match value env.readUInt64 envelope "seq" 0 with
      | none => some .parseError
      | some seq =>
        if seq ≤ lastSeq then some .seqReplay
        else
          match isLive env now envelope with
          | none => some .parseError
          | some false => some .ttlExpired
          | some true => if env.verify envelope sig then none else some .signatureInvalid

end Verify

def allowlist : List String :=
  ["time_sync", "fetch_revocations", "reauth", "collect_diagnostics", "ping"]

structure CommandDelivery where
  sessionId : String
  envelope : Json Number
  commandMessageId : String
  traceId : String
  method : String
  policyHash : String

def readCommandDelivery (msg : Json Number) : Option CommandDelivery := do
  let sessionId ← value readString msg "session_id" ""
  let body ← index msg "body"
  let envelope ← index body "command_envelope"
  let commandMessageId ← value readString envelope "message_id" ""
  let traceId ← value readString envelope "trace_id" ""
  let commandBody ← index envelope "body"
  let method ← value readString commandBody "method" ""
  let metadata ← index envelope "meta"
  let policyHash ← value readString metadata "policy_hash" ""
  return { sessionId, envelope, commandMessageId, traceId, method, policyHash }

inductive Outcome where
  -- There are no identifiers, or an exception is thrown.
  | ignored
  -- The reason that is acknowledged, and the code of the result.
  | rejected (reason : String) (errorCode : Int)
  -- The status, the notes and the code of the result.
  | denied (status notes : String) (errorCode : Int)
  | executed

-- Models what is done with a message of the type `COMMAND_DELIVERY`.
def handleCommandDelivery (env : Environment) (c : Circumstances) (s : State)
    (msg : Json Number) : Outcome × State :=
  match readCommandDelivery msg with
  | none => (.ignored, s)
  | some d =>
    if d.sessionId = "" ∨ d.commandMessageId = "" then (.ignored, s)
    else
      let failure :=
        if env.requireSignature then verifyCommandEnvelope env c.now s.lastCommandSeq d.envelope
        else none
      match failure with
      | some f => (.rejected f.code f.errorCode, s)
      | none =>
        let newSeq := (value env.readUInt64 d.envelope "seq" 0).getD 0
        let s :=
          if env.requireSignature then { s with lastCommandSeq := max newSeq s.lastCommandSeq } else s
        if c.quarantined && !allowlist.contains d.method then
          (.denied "denied" "quarantined" 4001, s)
        else if d.policyHash ≠ "" ∧ c.policyHash ≠ "" ∧ d.policyHash ≠ c.policyHash then
          (.denied "policy_mismatch" "policy hash mismatch" 4002, s)
        else (.executed, { s with executed := s.executed ++ [d.commandMessageId] })

section Handle

variable {env : Environment}

theorem lt_of_verifyCommandEnvelope {now : Int} {lastSeq : Nat} {envelope : Json Number}
    (h : verifyCommandEnvelope env now lastSeq envelope = none) :
    ∃ seq, value env.readUInt64 envelope "seq" 0 = some seq ∧ lastSeq < seq := by
  unfold verifyCommandEnvelope at h
  split at h
  case h_1 => cases h
  split at h
  case isTrue => cases h
  split at h
  case h_1 => cases h
  case h_2 seq hq =>
    split at h
    case isTrue => cases h
    case isFalse hl => exact ⟨seq, hq, not_le.mp hl⟩

-- With signatures, a command is run only if its number is greater than all numbers before.
theorem handleCommandDelivery_cases (hr : env.requireSignature) (c : Circumstances) (s : State)
    (msg : Json Number) :
    s.lastCommandSeq ≤ (handleCommandDelivery env c s msg).2.lastCommandSeq ∧
        (handleCommandDelivery env c s msg).2.executed = s.executed ∨
      ∃ d seq, readCommandDelivery msg = some d ∧
        value env.readUInt64 d.envelope "seq" 0 = some seq ∧ s.lastCommandSeq < seq ∧
        (handleCommandDelivery env c s msg).2 = ⟨seq, s.executed ++ [d.commandMessageId]⟩ := by
  unfold handleCommandDelivery
  split
  case h_1 => exact .inl ⟨le_rfl, rfl⟩
  case h_2 d hd =>
    split
    case isTrue => exact .inl ⟨le_rfl, rfl⟩
    simp only
    split
    case h_1 => exact .inl ⟨le_rfl, rfl⟩
    case h_2 hv =>
      obtain ⟨seq, hq, hl⟩ := lt_of_verifyCommandEnvelope hv
      simp only [hq, Option.getD_some, max_eq_left hl.le]
      split
      case isTrue => exact .inl ⟨hl.le, rfl⟩
      split
      case isTrue => exact .inl ⟨hl.le, rfl⟩
      case isFalse => exact .inr ⟨d, seq, hd, hq, hl, rfl⟩

theorem index_received (d : Gateway.Value) {v : Gateway.Value} {f : Gateway.Number → Number}
    {k : String} (h : d.getItem k = some v) :
    index (Gateway.received f d) k = some (Gateway.received f v) := by
  obtain ⟨ms, hm⟩ := Gateway.received_of_isDict (f := f) (Gateway.isDict_of_getItem h)
  have hk := Gateway.member_received (f := f) d k
  rw [h, Option.map_some, hm] at hk
  rw [hm, index, hk, Option.getD_some]

theorem value_received {α : Type} (read : Json Number → Option α) {d v : Gateway.Value}
    {f : Gateway.Number → Number} {k : String} (h : d.getItem k = some v) (fallback : α) :
    value read (Gateway.received f d) k fallback = read (Gateway.received f v) := by
  obtain ⟨ms, hm⟩ := Gateway.received_of_isDict (f := f) (Gateway.isDict_of_getItem h)
  have hk := Gateway.member_received (f := f) d k
  rw [h, Option.map_some, hm] at hk
  rw [hm, value, hk, Option.elim_some]

theorem readCommandDelivery_received {cfg : Gateway.Settings} {stamp : Gateway.DeliveryStamp}
    {r : Gateway.CommandDispatchRequest} {sessionId : String} {m : Gateway.Value}
    {d : CommandDelivery}
    (hb : Gateway.buildCommandDelivery cfg stamp r.modelDump sessionId = some m)
    (hd : readCommandDelivery (Gateway.received env.number m) = some d) :
    d.commandMessageId = r.commandId ∧
      value env.readUInt64 d.envelope "seq" 0 = some (env.toUInt64 (env.number (.int r.seq))) := by
  obtain ⟨hi, hq, _⟩ := Gateway.getItem_modelDump r
  obtain ⟨_, _, deviceId, body, e₀, e, hb, he, _, hc, hk⟩ := Gateway.getItem_buildCommandDelivery hb
  obtain ⟨hi, hq⟩ := Gateway.getItem_commandEnvelope hi hq hc
  rw [← hk _ (by decide)] at hi hq
  obtain ⟨_, _, hd⟩ := Option.bind_eq_some_iff.mp hd
  obtain ⟨_, h₁, hd⟩ := Option.bind_eq_some_iff.mp hd
  cases (index_received m hb).symm.trans h₁
  obtain ⟨_, h₂, hd⟩ := Option.bind_eq_some_iff.mp hd
  cases (index_received body he).symm.trans h₂
  obtain ⟨id, h₃, hd⟩ := Option.bind_eq_some_iff.mp hd
  rw [value_received readString hi, Gateway.received_str] at h₃
  cases h₃
  iterate 5 obtain ⟨_, _, hd⟩ := Option.bind_eq_some_iff.mp hd
  cases hd
  exact ⟨rfl, by rw [value_received _ hq, Gateway.received_int, Environment.readUInt64]⟩

end Handle

end Windows
