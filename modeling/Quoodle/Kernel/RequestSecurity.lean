import Quoodle.Data.Base64
import Quoodle.Data.Sha256

-- The checks that the Windows driver makes of a request.
namespace Kernel

def ioctlVersion : UInt32 :=
  2

def maxRequestId : Nat :=
  64

def maxCommandId : Nat :=
  64

def maxPolicyHash : Nat :=
  128

def maxParams : Nat :=
  512

def maxSigB64 : Nat :=
  128

def hmacSha256Bytes : Nat :=
  32

def allowedTimestampSkewSec : Nat :=
  300

def maxCanonical : Nat :=
  8192

-- The buffer of an execute request. Arrays of characters need not be terminated.
structure Request where
  version : UInt32
  opcode : UInt32
  flags : UInt32
  paramsLength : UInt32
  agentSequence : UInt64
  timestampUnix : UInt64
  requestId : List.Vector UInt8 maxRequestId
  policyHash : List.Vector UInt8 maxPolicyHash
  commandMessageId : List.Vector UInt8 maxCommandId
  paramsJson : List.Vector UInt8 maxParams
  signatureLength : UInt32
  signatureB64 : List.Vector UInt8 maxSigB64

def ascii (s : String) : List UInt8 :=
  s.toList.map Char.toUInt8

def decimal (n : Nat) : List UInt8 :=
  (Nat.toDigits 10 n).map Char.toUInt8

def terminated (cs : List UInt8) : List UInt8 :=
  cs.takeWhile (· ≠ 0)

-- Models the conversions `%u:%.*s`.
def counted (length : Nat) (cs : List UInt8) : List UInt8 :=
  decimal length ++ ascii ":" ++ terminated (cs.take length)

def isNullTerminated (cs : List UInt8) : Bool :=
  cs.contains 0

namespace Request

def canonicalText (req : Request) : List UInt8 :=
  let field (cs : List UInt8) := counted (terminated cs).length cs
  ascii "v1\nseq=" ++ decimal req.agentSequence.toNat ++
    ascii "\ncmd=" ++ field req.commandMessageId.toList ++
    ascii "\nop=" ++ decimal req.opcode.toNat ++
    ascii "\nparams=" ++ counted req.paramsLength.toNat req.paramsJson.toList ++
    ascii "\npolicy=" ++ field req.policyHash.toList ++
    ascii "\nreq=" ++ field req.requestId.toList ++
    ascii "\nts=" ++ decimal req.timestampUnix.toNat ++ ascii "\n"

-- The text has to fit into a buffer, together with a terminator.
def buildCanonicalRequest (req : Request) : Option (List UInt8) :=
  if req.canonicalText.length < maxCanonical then some req.canonicalText else none

def validatePayload (req : Request) : Bool :=
  isNullTerminated req.requestId.toList &&
    isNullTerminated req.policyHash.toList &&
    isNullTerminated req.commandMessageId.toList &&
    isNullTerminated req.signatureB64.toList &&
    req.paramsLength.toNat < maxParams &&
    isNullTerminated req.paramsJson.toList &&
    req.paramsJson.toList[req.paramsLength.toNat]? = some 0

-- There is no key if it is empty. A signature is decoded into 64 bytes, so that no length of it lets
-- the decoder leave the array.
def verifyRequestSignature (key : List UInt8) (req : Request) : Bool :=
  if key = [] then false
  else
    match Base64.decode 64 (req.signatureB64.toList.take req.signatureLength.toNat) with
    | none => false
    | some provided =>
      if provided.length ≠ hmacSha256Bytes then false
      else
        match req.buildCanonicalRequest with
        | none => false
        | some canonical => provided = Sha256.hmac key canonical

def sequence (req : Request) : Int :=
  req.agentSequence.toInt64.toInt

-- Models `sign_driver_request` of the agent, for parameters without a terminator in them.
def sign (key : List UInt8) (req : Request) : Request :=
  let signature := Base64.encode (Sha256.hmac key req.canonicalText)
  have h : (signature ++ List.replicate (maxSigB64 - signature.length) 0).length = maxSigB64 := by
    simp only [signature, List.length_append, List.length_replicate, Base64.length_encode,
      Sha256.length_hmac, maxSigB64]
  { req with
    signatureLength := signature.length.toUInt32
    signatureB64 := ⟨_, h⟩ }

@[simp]
theorem canonicalText_sign (key : List UInt8) (req : Request) :
    (req.sign key).canonicalText = req.canonicalText :=
  rfl

theorem verifyRequestSignature_sign {key : List UInt8} {req : Request} (hk : key ≠ [])
    (hl : req.canonicalText.length < maxCanonical) :
    (req.sign key).verifyRequestSignature key := by
  have hn : (Base64.encode (Sha256.hmac key req.canonicalText)).length = 44 := by
    rw [Base64.length_encode, Sha256.length_hmac]
  have ht : (req.sign key).signatureB64.toList.take (req.sign key).signatureLength.toNat =
      Base64.encode (Sha256.hmac key req.canonicalText) := by
    simp only [sign, hn, List.Vector.toList]
    exact List.take_left' hn
  have hd : Base64.decode 64 (Base64.encode (Sha256.hmac key req.canonicalText)) =
      some (Sha256.hmac key req.canonicalText) :=
    Base64.decode_encode (by simp [Sha256.length_hmac])
  rw [verifyRequestSignature, if_neg hk, ht, hd]
  simp [Sha256.length_hmac, hmacSha256Bytes, buildCanonicalRequest, hl]

end Request

def isTimestampFresh (now ts : UInt64) : Bool :=
  if ts > now then (ts - now).toNat ≤ allowedTimestampSkewSec
  else (now - ts).toNat ≤ allowedTimestampSkewSec

-- The new value of `g_last_seq`, unless the sequence number is not a new one.
def updateSequenceIfNew (lastSeq seq : Int) : Option Int :=
  if seq ≤ lastSeq then none else some seq

end Kernel
