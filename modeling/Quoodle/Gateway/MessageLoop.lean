import Quoodle.Gateway.Handshake
import Quoodle.Gateway.Telemetry

-- What the gateway does with the messages of a session after the handshake.
namespace Gateway.MessageLoop

open Handshake (Environment verifyEd25519Signature)
open Replay (ReplayProtector)

structure Session where
  deviceId : String
  sessionId : String
  pubkey : String

structure Arrival where
  raw : List Char
  now : Int
  redisNow : Int
  reachable : Bool

inductive Outcome where
  -- The message cannot be parsed, or another exception is logged.
  | ignored
  | softDropped
  | closed (code : Nat)
  | accepted
  deriving DecidableEq

def extractSeqFromMessage (message : Value) : Value :=
  let seq := (message.getItem "seq").getD .none
  let body := ((message.getItem "body").getD .none).orElse (.dict [])
  let bodySeq := (body.getItem "seq").getD .none
  if seq.asInt.isSome then seq else if bodySeq.asInt.isSome then bodySeq else .none

variable (env : Environment) (floatValue : FloatRepr → ℚ)

def validate (type message : Value) (sessionId : String) : Except Raised Unit :=
  if type.isStr "HEARTBEAT" then validateHeartbeat message sessionId
  else if type.isStr "TELEMETRY" then validateTelemetry env.readFloat floatValue message sessionId
  else if type.isStr "COMMAND_RESULT" then validateCommandResult message sessionId
  else if type.isStr "COMMAND_ACK" then validateCommandAck message sessionId
  else .ok ()

def outcomeOf : Except Raised Unit → Outcome
  | .ok () => .accepted
  | .error (.valueError _) => .closed 4400
  | .error .other => .ignored

def receiveSigned (s : Session) (p : ReplayProtector) (a : Arrival) (type message : Value) :
    Outcome × ReplayProtector :=
  -- Only what can be hashed can be looked up in the set of types.
  if !type.isHashable then (.ignored, p)
  else
    match Replay.checkAndUpdateSeq env.replay p a.redisNow a.reachable s.deviceId
      (extractSeqFromMessage message) with
    | (.error (.valueError _), p) =>
      (if Session.isTelemetry type then .softDropped else .closed 4401, p)
    | (.error .other, p) => (.ignored, p)
    | (.ok (), p) => (outcomeOf (validate env floatValue type message s.sessionId), p)

def receive (s : Session) (p : ReplayProtector) (a : Arrival) : Outcome × ReplayProtector :=
  match Value.loads env.readFloat a.raw with
  | none => (.ignored, p)
  | some message =>
    match message.get "type" .none with
    | none => (.ignored, p)
    | some type =>
      match Replay.validateTimestamp env.fromisoformat env.formatSeconds env.replay a.now
        ((message.getItem "timestamp").getD (.str "")) with
      | .error (.valueError _) => (.closed 4401, p)
      | .error .other => (.ignored, p)
      | .ok () =>
        match verifyEd25519Signature env message s.pubkey with
        | .error _ => (.closed 4401, p)
        | .ok () => receiveSigned env floatValue s p a type message

section Accepted

variable {env} {floatValue} {s : Session} {p : ReplayProtector} {a : Arrival} {type message : Value}

theorem outcomeOf_eq_accepted_iff {r : Except Raised Unit} : outcomeOf r = .accepted ↔ r = .ok () := by
  unfold outcomeOf
  split <;> simp

theorem receiveSigned_eq_accepted_iff (hh : type.isHashable) :
    (receiveSigned env floatValue s p a type message).1 = .accepted ↔
      (Replay.checkAndUpdateSeq env.replay p a.redisNow a.reachable s.deviceId
        (extractSeqFromMessage message)).1 = .ok () ∧
      validate env floatValue type message s.sessionId = .ok () := by
  simp only [receiveSigned, hh, Bool.not_true, Bool.false_eq_true, ↓reduceIte]
  split
  case h_1 hc =>
    rw [hc]
    split <;> simp
  case h_2 hc => simp [hc]
  case h_3 hc => simp [hc, outcomeOf_eq_accepted_iff]

theorem receive_eq_accepted_iff (hl : Value.loads env.readFloat a.raw = some message)
    (ht : message.get "type" .none = some type) (hh : type.isHashable) :
    (receive env floatValue s p a).1 = .accepted ↔
      Replay.validateTimestamp env.fromisoformat env.formatSeconds env.replay a.now
        ((message.getItem "timestamp").getD (.str "")) = .ok () ∧
      verifyEd25519Signature env message s.pubkey = .ok () ∧
      (Replay.checkAndUpdateSeq env.replay p a.redisNow a.reachable s.deviceId
        (extractSeqFromMessage message)).1 = .ok () ∧
      validate env floatValue type message s.sessionId = .ok () := by
  simp only [receive, hl, ht]
  split
  case h_1 hv => simp [hv]
  case h_2 hv => simp [hv]
  case h_3 hv =>
    split
    case h_1 he => simp [he]
    case h_2 he => simp [hv, he, receiveSigned_eq_accepted_iff hh]

end Accepted

end Gateway.MessageLoop
