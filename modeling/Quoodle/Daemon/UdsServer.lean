import Quoodle.Daemon.Jcs
import Quoodle.Data.Transition

-- The privileged daemon's side of the socket on which the agent hands it requests.
namespace Daemon

open Json.CJson (parseWith getItem getString)

structure Long where
  val : Int
  lower : -2 ^ 63 ≤ val
  upper : val < 2 ^ 63

structure Doubles (ν : Type) [LT ν] where
  read : List Char → Option ν
  canonicalize : Json ν → Option (List Char)
  print : Json ν → List Char
  toLong : ν → Long
  -- The conversion truncates, but gives the smallest value for doubles that are out of range.
  lt_of_toLong_lt : ∀ {a b}, -2 ^ 63 < (toLong a).val → (toLong a).val < (toLong b).val → a < b

theorem toLongLong_range (d : Int) : -2 ^ 63 ≤ toLongLong d ∧ toLongLong d < 2 ^ 63 := by
  unfold toLongLong
  split <;> omega

def integers : Doubles Int where
  read := Json.CJson.readDouble
  canonicalize := canonicalizeWithoutSig
  print := Json.CJson.printUnformatted
  toLong d := ⟨toLongLong d, (toLongLong_range d).left, (toLongLong_range d).right⟩
  lt_of_toLong_lt {a b} ha h := by
    replace h : toLongLong a < toLongLong b := h
    unfold toLongLong at ha h
    split at h <;> split at h <;> simp_all <;> omega

structure Environment where
  validTimestamp : String → Bool
  -- The check of signatures with `QUOODLE_AGENT_PUBKEY_B64`, if it is set.
  verify : Option (List Char → String → Bool)
  -- `QUOODLE_DAEMON_KID`
  kid : String

structure Store where
  sequence : Option Long
  responses : List (String × String)

namespace Store

def lastSequence (st : Store) : Long :=
  st.sequence.getD ⟨0, by decide, by decide⟩

def loadSequence (st : Store) (readable : Bool) : Option Long :=
  if readable then some st.lastSequence else none

-- Files are replaced by renaming a complete one, so a failure leaves the old one.
def saveSequence (st : Store) (written : Bool) (seq : Long) : Option Store :=
  if written then some { st with sequence := seq } else none

-- An empty file counts as a failure.
def getResponse (st : Store) (readable : Bool) (requestId : String) : Option (Option String) :=
  match readable, st.responses.lookup requestId with
  | true, none => some none
  | true, some text => if text = "" then none else some text
  | false, _ => none

def saveResponse (st : Store) (written : Bool) (requestId response : String) : Option Store :=
  if written then some { st with responses := Json.assign requestId response st.responses } else none

end Store

structure ErrorResponse where
  requestId : String
  status : String
  type : String
  code : Nat
  message : String
  deriving DecidableEq

inductive Response where
  | error (e : ErrorResponse)
  | cached (text : String)
  | executed (text : String)
  deriving DecidableEq

structure Request (ν : Type) where
  requestId : String
  agentSequence : ν

def isSafeId (value : String) : Bool :=
  value ≠ "" && value.toList.all fun c => c.isAlphanum || c = '-'

section

variable {ν : Type} [LT ν] (num : Doubles ν) (env : Environment)

def isObject : Option (Json ν) → Bool
  | some (.obj _) => true
  | _ => false

def validateSigObject : Option (Json ν) → Option String
  | some (.obj ms) => do
    let sig ← getString "sig" ms
    match getString "signer" ms with
    | some signer => if signer = "agent" then some sig else none
    | none => some sig
  | _ => none

-- The identifier is copied to a buffer of 128 bytes. Without one, responses name it `unknown`.
def safeRequestId : Option String → String
  | some id => if id = "" then "unknown" else .ofList (id.toList.take 127)
  | none => "unknown"

def requiredFields : List String :=
  ["timestamp", "capability", "params", "agent_sequence", "policy_hash", "command_message_id", "sig"]

def stringFields : List String :=
  ["timestamp", "capability", "policy_hash", "command_message_id"]

def schemaError (requestId message : String) : ErrorResponse :=
  ⟨requestId, "error", "ERR_SCHEMA_INVALID", 1001, message⟩

def executionError (requestId message : String) : ErrorResponse :=
  ⟨requestId, "error", "ERR_EXECUTION_FAILED", 2001, message⟩

def checkSchema (ms : List (String × Json ν)) : Except ErrorResponse (Request ν) := do
  let requestId := getString "request_id" ms
  let safe := safeRequestId requestId
  if requestId = none ∨ ∃ name ∈ requiredFields, (getItem name ms).isNone then
    throw <| schemaError safe "missing required fields"
  if !isSafeId safe then
    throw <| schemaError "unknown" "invalid request_id"
  match getItem "agent_sequence" ms with
  | some (.num agentSequence) =>
    if (∃ name ∈ stringFields, getString name ms = none) ∨ !isObject (getItem "params" ms) then
      throw <| schemaError safe "invalid field types"
    if !(getString "timestamp" ms).any env.validTimestamp then
      throw <| schemaError safe "invalid timestamp"
    return ⟨safe, agentSequence⟩
  | _ => throw <| schemaError safe "invalid field types"

def checkSignature (requestId : String) (ms : List (String × Json ν)) :
    Except ErrorResponse Unit := do
  let some sig := validateSigObject (getItem "sig" ms)
    | throw ⟨requestId, "denied", "ERR_SIG_INVALID", 1002, "invalid signature"⟩
  let some verify := env.verify
    | throw ⟨requestId, "error", "ERR_SIG_INVALID", 1002, "missing agent public key"⟩
  let some canonical := num.canonicalize (.obj ms)
    | throw <| schemaError requestId "canonicalization failed"
  if !verify canonical sig then
    throw ⟨requestId, "denied", "ERR_SIG_INVALID", 1002, "signature verification failed"⟩

def checkRequest : Option (List Char) → Except ErrorResponse (Request ν)
  | none => throw <| schemaError "unknown" "empty request"
  | some text =>
    match parseWith num.read text with
    | some (.obj ms) => do
      let q ← checkSchema env ms
      checkSignature num env q.requestId ms
      return q
    | _ => throw <| schemaError "unknown" "invalid JSON"

structure Call where
  jsonIn : Option (List Char)
  responseReadable : Bool
  sequenceReadable : Bool
  execResp : Option (List Char)
  responseBuilt : Bool
  execId : String
  timestamp : String
  sign : List Char → Option String
  responseWritten : Bool
  sequenceWritten : Bool

def buildResponse (requestId : String) (execRoot : List (String × Json ν)) (c : Call)
    (sig : String) : Json ν :=
  .obj [
    ("request_id", .str requestId),
    ("status", .str <| (getString "status" execRoot).getD "ok"),
    ("exec_id", .str c.execId),
    ("timestamp", .str c.timestamp),
    ("sig", .obj [
      ("alg", .str "Ed25519"),
      ("kid", .str env.kid),
      ("canon", .str "JCS-v1"),
      ("signer", .str "daemon"),
      ("sig", .str sig)
    ]),
    ("error", (getItem "error" execRoot).getD .null),
    ("result", (getItem "result" execRoot).getD .null)
  ]

def finalizeAndSignResponse (sign : List Char → Option String) (resp : String → Json ν) :
    Option String := do
  let canonical ← num.canonicalize (resp "")
  let sig ← sign canonical
  return .ofList <| num.print (resp sig)

structure State (ν : Type) where
  store : Store
  executed : List ν

def executeRequest (c : Call) (q : Request ν) (s : State ν) : State ν × Response :=
  let s := { s with executed := s.executed ++ [q.agentSequence] }
  let fail message := Response.error <| executionError q.requestId message
  match c.execResp with
  | none => (s, fail "executor failed")
  | some execResp =>
    match parseWith num.read execResp with
    | some (.obj execRoot) =>
      if !c.responseBuilt then (s, fail "response build failed") else
      match finalizeAndSignResponse num c.sign (buildResponse env q.requestId execRoot c) with
      | none => (s, fail "signing failed")
      | some out =>
        match s.store.saveResponse c.responseWritten q.requestId out with
        | none => (s, fail "response persistence failed")
        | some st =>
          match st.saveSequence c.sequenceWritten (num.toLong q.agentSequence) with
          | none => ({ s with store := st }, fail "sequence persistence failed")
          | some st => ({ s with store := st }, .executed out)
    | _ => (s, fail "executor invalid response")

def handleRequest (c : Call) (s : State ν) : State ν × Response :=
  match checkRequest num env c.jsonIn with
  | .error e => (s, .error e)
  | .ok q =>
    match s.store.getResponse c.responseReadable q.requestId with
    | none => (s, .error <| executionError q.requestId "idempotency cache error")
    | some (some text) => (s, .cached text)
    | some none =>
      match s.store.loadSequence c.sequenceReadable with
      | none => (s, .error <| executionError q.requestId "sequence load failed")
      | some lastSeq =>
        if (num.toLong q.agentSequence).val ≤ lastSeq.val then
          (s, .error ⟨q.requestId, "denied", "ERR_REPLAY_DETECTED", 1003, "sequence regression"⟩)
        else executeRequest num env c q s

def step (s : State ν) (c : Call) : Option (State ν) :=
  some (handleRequest num env c s).1

def admitted (s : State ν) (c : Call) : Option (Request ν) :=
  match checkRequest num env c.jsonIn with
  | .error _ => none
  | .ok q =>
    if s.store.getResponse c.responseReadable q.requestId = some none ∧
        (s.store.loadSequence c.sequenceReadable).any
          (·.val < (num.toLong q.agentSequence).val) then
      some q
    else none

def signedResponse (c : Call) (q : Request ν) : Option String :=
  match c.execResp.bind (parseWith num.read) with
  | some (.obj execRoot) =>
    if c.responseBuilt then
      finalizeAndSignResponse num c.sign (buildResponse env q.requestId execRoot c)
    else none
  | _ => none

structure Completes (s : State ν) (c : Call) : Prop where
  signed : ∀ q ∈ admitted num env s c, (signedResponse num env c q).isSome
  response : ∀ q ∈ admitted num env s c, c.responseWritten
  sequence : ∀ q ∈ admitted num env s c, c.sequenceWritten

instance (s : State ν) (c : Call) : Decidable (Completes num env s c) :=
  decidable_of_iff
    ((∀ q ∈ admitted num env s c, (signedResponse num env c q).isSome) ∧
      (∀ q ∈ admitted num env s c, c.responseWritten) ∧
      ∀ q ∈ admitted num env s c, c.sequenceWritten)
    ⟨fun h => ⟨h.1, h.2.1, h.2.2⟩, fun h => ⟨h.1, h.2, h.3⟩⟩

variable {num env} {c : Call} {q : Request ν} {s s' : State ν}

theorem executed_executeRequest :
    (executeRequest num env c q s).1.executed = s.executed ++ [q.agentSequence] := by
  simp only [executeRequest]
  repeat' split
  all_goals rfl

theorem lastSequence_executeRequest (hs : (signedResponse num env c q).isSome)
    (hr : c.responseWritten) (hw : c.sequenceWritten) :
    (executeRequest num env c q s).1.store.lastSequence = num.toLong q.agentSequence := by
  unfold signedResponse at hs
  split at hs
  case h_2 => contradiction
  case h_1 execRoot he =>
    have ⟨execResp, he, hp⟩ := Option.bind_eq_some_iff.mp he
    split at hs
    case isFalse => contradiction
    case isTrue hb =>
      have ⟨out, ho⟩ := Option.isSome_iff_exists.mp hs
      simp [executeRequest, he, hp, hb, ho, Store.saveResponse, Store.saveSequence, hr, hw,
        Store.lastSequence]

theorem handleRequest_cases (num : Doubles ν) (env : Environment) (c : Call) (s : State ν) :
    (handleRequest num env c s).1 = s ∨
    ∃ q ∈ admitted num env s c, s.store.lastSequence.val < (num.toLong q.agentSequence).val ∧
      handleRequest num env c s = executeRequest num env c q s := by
  unfold handleRequest admitted
  split
  case h_1 => exact .inl rfl
  case h_2 q _ =>
    split
    case h_1 => exact .inl rfl
    case h_2 => exact .inl rfl
    case h_3 hg =>
      split
      case h_1 => exact .inl rfl
      case h_2 lastSeq hl =>
        split
        case isTrue => exact .inl rfl
        case isFalse hs =>
          have ⟨_, he⟩ := Option.ite_none_right_eq_some.mp hl
          have hs := Int.not_le.mp hs
          refine .inr ⟨q, ?_, Option.some.inj he ▸ hs, rfl⟩
          rw [if_pos ⟨hg, by simp [hl, hs]⟩]
          rfl

-- The stored sequence number is not behind the requests that the executor was invoked with.
structure Recorded (num : Doubles ν) (s : State ν) : Prop where
  increasing : s.executed.Pairwise (· < ·)
  lower : ∀ a ∈ s.executed, -2 ^ 63 < (num.toLong a).val
  upper : ∀ a ∈ s.executed, (num.toLong a).val ≤ s.store.lastSequence.val

namespace Recorded

theorem of_executed_eq_nil (h : s.executed = []) : Recorded num s where
  increasing := h ▸ .nil
  lower := by simp [h]
  upper := by simp [h]

theorem executeRequest (hr : Recorded num s)
    (hs : s.store.lastSequence.val < (num.toLong q.agentSequence).val)
    (he : (executeRequest num env c q s).1.store.lastSequence = num.toLong q.agentSequence) :
    Recorded num (executeRequest num env c q s).1 := by
  have hlt a (ha : a ∈ s.executed) : (num.toLong a).val < (num.toLong q.agentSequence).val :=
    (hr.upper a ha).trans_lt hs
  refine ⟨?_, ?_, ?_⟩ <;> rw [executed_executeRequest]
  case refine_1 =>
    refine List.pairwise_append.mpr ⟨hr.increasing, List.pairwise_singleton .., fun a ha b hb => ?_⟩
    rw [List.mem_singleton.mp hb]
    exact num.lt_of_toLong_lt (hr.lower a ha) (hlt a ha)
  case refine_2 =>
    intro a ha
    cases List.mem_append.mp ha
    case inl ha => exact hr.lower a ha
    case inr ha =>
      rw [List.mem_singleton.mp ha]
      exact s.store.lastSequence.lower.trans_lt hs
  case refine_3 =>
    intro a ha
    rw [he]
    cases List.mem_append.mp ha
    case inl ha => exact (hlt a ha).le
    case inr ha => rw [List.mem_singleton.mp ha]

theorem step (hr : Recorded num s) (hc : Completes num env s c)
    (h : Daemon.step num env s c = some s') : Recorded num s' := by
  cases h
  cases handleRequest_cases num env c s
  case inl h => rwa [h]
  case inr h =>
    have ⟨q, hq, hs, h⟩ := h
    rw [h]
    refine hr.executeRequest hs ?_
    exact lastSequence_executeRequest (hc.signed q hq) (hc.response q hq) (hc.sequence q hq)

end Recorded

-- No request is executed again, and none after one with a larger sequence number.
theorem executed_increasing {cs : List Call} (hs : s.executed = [])
    (h : Transition.Steps (step num env) (Completes num env) s cs s') :
    s'.executed.Pairwise (· < ·) :=
  h.invariant (I := Recorded num) .step (.of_executed_eq_nil hs) |>.increasing

end

def plainEnvironment : Environment where
  validTimestamp _ := true
  verify := some fun _ sig => sig = "valid"
  kid := "daemon-default"

def lockRequest : List Char :=
  Json.CJson.printUnformatted <| .obj [
    ("request_id", .str "r-1"),
    ("timestamp", .str "2026-01-01T00:00:00Z"),
    ("capability", .str "system.lock"),
    ("params", .obj []),
    ("agent_sequence", .num 1),
    ("policy_hash", .str "p"),
    ("command_message_id", .str "m-1"),
    ("sig", .obj [("signer", .str "agent"), ("sig", .str "valid")])
  ]

def lockCall (responseWritten : Bool) : Call where
  jsonIn := lockRequest
  responseReadable := true
  sequenceReadable := true
  execResp := some <| Json.CJson.printUnformatted <| .obj [("status", .str "ok")]
  responseBuilt := true
  execId := "e-1"
  timestamp := "2026-01-01T00:00:01Z"
  sign _ := some "signed"
  responseWritten := responseWritten
  sequenceWritten := true

def fresh : State Int :=
  ⟨⟨none, []⟩, []⟩

theorem executed_increasing_resent :
    ∃ s, Transition.Steps (step integers plainEnvironment) (Completes integers plainEnvironment)
      fresh [lockCall true, lockCall true] s ∧ s.executed = [1] ∧ s.executed.Pairwise (· < ·) := by
  have h : (Transition.run (Transition.restrict (step integers plainEnvironment)
      (Completes integers plainEnvironment)) fresh [lockCall true, lockCall true]).map
      State.executed = some [1] := by decide +kernel
  have ⟨s, hs, he⟩ := Option.map_eq_some_iff.mp h
  have hs := Transition.Steps.of_run hs
  exact ⟨s, hs, he, executed_increasing rfl hs⟩

-- The response of the first call is not written, so neither is the sequence number.
theorem lock_executed_twice :
    (Transition.run (step integers plainEnvironment) fresh [lockCall false, lockCall true]).map
      State.executed = some [1, 1] := by
  decide +kernel

end Daemon
