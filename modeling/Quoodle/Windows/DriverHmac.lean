import Quoodle.Kernel.Coverage
import Quoodle.Kernel.ResponseSecurity

-- How the agent signs what it sends to the driver, and verifies what it gets back.
namespace Windows

open Kernel (Request Response ascii decimal terminated pad)
open Kernel (authenticate counted field hmacKey hmacKeyMax hmacSha256Bytes loadHmacKeyFromRegistry
  maxParams maxResult maxSigB64 opcodes toList_pad)

section Hash

def hexDigit (n : UInt8) : UInt8 :=
  if n < 10 then '0'.toUInt8 + n else 'a'.toUInt8 + (n - 10)

def hexByte (b : UInt8) : List UInt8 :=
  [hexDigit (b >>> 4), hexDigit (b &&& 15)]

-- The rounds are those of the driver, on a message that is padded as a whole.
def sha256Hex (input : List UInt8) : List UInt8 :=
  (Sha256.digest input).toList.flatMap Sha256.writeWord |>.flatMap hexByte

def isHexChar (c : UInt8) : Bool :=
  '0'.toUInt8 ≤ c && c ≤ '9'.toUInt8 || 'a'.toUInt8 ≤ c && c ≤ 'f'.toUInt8 ||
    'A'.toUInt8 ≤ c && c ≤ 'F'.toUInt8

def hexVal (c : UInt8) : UInt8 :=
  if '0'.toUInt8 ≤ c && c ≤ '9'.toUInt8 then c - '0'.toUInt8
  else if 'a'.toUInt8 ≤ c && c ≤ 'f'.toUInt8 then 10 + (c - 'a'.toUInt8)
  else 10 + (c - 'A'.toUInt8)

def readHex : List UInt8 → Option (List UInt8)
  | [] => some []
  | [_] => none
  | a :: b :: cs =>
    if isHexChar a && isHexChar b then (readHex cs).map ((hexVal a <<< 4 ||| hexVal b) :: ·) else none

def hexToBytes (hex : List UInt8) : List UInt8 :=
  (readHex hex).getD []

def sha256Raw (input : List UInt8) : List UInt8 :=
  hexToBytes (sha256Hex input)

def hmacSha256Raw (key message : List UInt8) : List UInt8 :=
  let k := if key.length > 64 then sha256Raw key else key
  let k := k ++ List.replicate (64 - k.length) 0
  let oKeyPad := k.map (· ^^^ 0x5c)
  let iKeyPad := k.map (· ^^^ 0x36)
  sha256Raw (oKeyPad ++ sha256Raw (iKeyPad ++ message))

theorem readHex_hexByte (b : UInt8) :
    (isHexChar (hexDigit (b >>> 4)) && isHexChar (hexDigit (b &&& 15))) = true ∧
      hexVal (hexDigit (b >>> 4)) <<< 4 ||| hexVal (hexDigit (b &&& 15)) = b := by
  have h : ∀ n < 256, (isHexChar (hexDigit (UInt8.ofNat n >>> 4)) &&
        isHexChar (hexDigit (UInt8.ofNat n &&& 15))) = true ∧
      hexVal (hexDigit (UInt8.ofNat n >>> 4)) <<< 4 ||| hexVal (hexDigit (UInt8.ofNat n &&& 15)) =
        UInt8.ofNat n := by
    decide +kernel
  simpa only [UInt8.ofNat_toNat] using h b.toNat b.toNat_lt

theorem readHex_flatMap_hexByte (bs : List UInt8) : readHex (bs.flatMap hexByte) = some bs := by
  induction bs
  case nil => rfl
  case cons b bs hi =>
    obtain ⟨hh, hv⟩ := readHex_hexByte b
    rw [List.flatMap_cons, hexByte, List.cons_append, List.cons_append, List.nil_append, readHex,
      if_pos hh, hi, hv, Option.map_some]

theorem sha256Raw_eq_hash (input : List UInt8) : sha256Raw input = Sha256.hash input := by
  rw [sha256Raw, hexToBytes, sha256Hex, readHex_flatMap_hexByte, Option.getD_some,
    Sha256.hash_eq_digest]

theorem hmacSha256Raw_eq_hmac (key message : List UInt8) :
    hmacSha256Raw key message = Sha256.hmac key message := by
  simp only [hmacSha256Raw, Sha256.hmac, Sha256.final_update_update, sha256Raw_eq_hash, Sha256.pad,
    UInt8.xor_comm]

end Hash

section Base64

-- Six bits at a time are given out from the left, as long as there are that many.
def emit (val : Nat) : Nat → List UInt8
  | bits + 6 => Base64.symbol (val / 2 ^ bits % 64) :: emit val bits
  | _ => []

def encodeFrom (val bits : Nat) : List UInt8 → List UInt8
  | [] => if 0 < bits then [Base64.symbol (val * 2 ^ 8 % 2 ^ 32 / 2 ^ (bits + 2) % 64)] else []
  | c :: cs =>
    let val := (val * 2 ^ 8 + c.toNat) % 2 ^ 32
    emit val (bits + 8) ++ encodeFrom val ((bits + 8) % 6) cs

def base64EncodeBinary (input : List UInt8) : List UInt8 :=
  let output := encodeFrom 0 0 input
  output ++ List.replicate ((4 - output.length % 4) % 4) Base64.padding

-- At the beginning of each group of three no bits are held back.
theorem encodeFrom_eq_encode (val : Nat) (bs : List UInt8) :
    encodeFrom val 0 bs ++
      List.replicate ((4 - (encodeFrom val 0 bs).length % 4) % 4) Base64.padding =
    Base64.encode bs := by
  fun_induction Base64.encode bs generalizing val
  case case1 a b c bs v hi =>
    have ha := a.toNat_lt
    have hb := b.toNat_lt
    have hc := c.toNat_lt
    simp only [encodeFrom, emit, List.cons_append, List.nil_append, List.length_cons,
      Nat.reduceAdd, Nat.reduceMod, List.cons.injEq]
    have hm (n : Nat) : (4 - (n + 1 + 1 + 1 + 1) % 4) % 4 = (4 - n % 4) % 4 := by omega
    refine ⟨?_, ?_, ?_, ?_, ?_⟩
    · exact congrArg _ (by omega)
    · exact congrArg _ (by omega)
    · exact congrArg _ (by omega)
    · exact congrArg _ (by omega)
    · rw [hm, hi]
  case case2 a b v =>
    have ha := a.toNat_lt
    have hb := b.toNat_lt
    simp only [encodeFrom, emit, List.cons_append, List.nil_append, Nat.reduceAdd, Nat.reduceMod,
      Nat.ofNat_pos, if_true, List.cons.injEq]
    refine ⟨?_, ?_, ?_, rfl⟩
    · exact congrArg _ (by omega)
    · exact congrArg _ (by omega)
    · exact congrArg _ (by omega)
  case case3 a v =>
    have ha := a.toNat_lt
    simp only [encodeFrom, emit, List.cons_append, List.nil_append, Nat.reduceAdd, Nat.reduceMod,
      Nat.ofNat_pos, if_true, List.cons.injEq]
    refine ⟨?_, ?_, rfl⟩
    · exact congrArg _ (by omega)
    · exact congrArg _ (by omega)
  case case4 => simp [encodeFrom]

theorem base64EncodeBinary_eq_encode (input : List UInt8) :
    base64EncodeBinary input = Base64.encode input :=
  encodeFrom_eq_encode 0 input

def base64DecodeBinary (input : List UInt8) : Option (List UInt8) :=
  Base64.decode input.length input

end Base64

section Canonical

def boundedLen (cs : List UInt8) : Nat :=
  (terminated cs).length

def sized (n : Nat) (cs : List UInt8) : List UInt8 :=
  decimal n ++ ascii ":" ++ cs.take n

def buildDriverRequestCanonical (req : Request) : List UInt8 :=
  let field (cs : List UInt8) := sized (boundedLen cs) cs
  ascii "v1\n" ++
    ascii "seq=" ++ decimal req.agentSequence.toNat ++ ascii "\n" ++
    ascii "cmd=" ++ field req.commandMessageId.toList ++ ascii "\n" ++
    ascii "op=" ++ decimal req.opcode.toNat ++ ascii "\n" ++
    ascii "params=" ++ sized req.paramsLength.toNat req.paramsJson.toList ++ ascii "\n" ++
    ascii "policy=" ++ field req.policyHash.toList ++ ascii "\n" ++
    ascii "req=" ++ field req.requestId.toList ++ ascii "\n" ++
    ascii "ts=" ++ decimal req.timestampUnix.toNat ++ ascii "\n"

def buildDriverResponseCanonical (resp : Response) : List UInt8 :=
  let field (cs : List UInt8) := sized (boundedLen cs) cs
  let resultLen := min resp.resultLength.toNat maxResult
  let resultB64 := base64EncodeBinary (resp.resultJson.toList.take resultLen)
  ascii "v1\n" ++
    ascii "status=" ++ decimal resp.status.toNat ++ ascii "\n" ++
    ascii "error=" ++ decimal resp.errorCode.toNat ++ ascii "\n" ++
    ascii "kexec=" ++ field resp.kernelExecId.toList ++ ascii "\n" ++
    ascii "req=" ++ field resp.requestId.toList ++ ascii "\n" ++
    ascii "result=" ++ decimal resultLen ++ ascii ":" ++ decimal resultB64.length ++ ascii ":" ++
      resultB64 ++ ascii "\n" ++
    ascii "msg=" ++ field resp.errorMessage.toList ++ ascii "\n" ++
    ascii "ts=" ++ decimal resp.timestampUnix.toNat ++ ascii "\n"

end Canonical

structure DriverRequest where
  opcode : UInt32
  sequence : UInt64
  now : UInt64
  requestId : List UInt8
  policyHash : List UInt8
  commandMessageId : List UInt8
  paramsJson : List UInt8

-- Models `strncpy` into a buffer of zeros, which leaves the last one.
def copyString (n : Nat) (s : List UInt8) : List.Vector UInt8 n :=
  pad n ((terminated s).take (n - 1))

def DriverRequest.fill (q : DriverRequest) : Request :=
  let params := q.paramsJson.take (maxParams - 1)
  { version := Kernel.ioctlVersion
    opcode := q.opcode
    flags := 0
    paramsLength := params.length.toUInt32
    agentSequence := q.sequence
    timestampUnix := q.now
    requestId := copyString _ q.requestId
    policyHash := copyString _ q.policyHash
    commandMessageId := copyString _ q.commandMessageId
    paramsJson := pad _ params
    signatureLength := 0
    signatureB64 := pad _ [] }

def signDriverRequest (key : List UInt8) (req : Request) : Except String Request :=
  if key = [] then .error "hmac_key_missing"
  else
    let macRaw := hmacSha256Raw key (buildDriverRequestCanonical req)
    if macRaw.length ≠ hmacSha256Bytes then .error "hmac_compute_failed"
    else
      let sigB64 := base64EncodeBinary macRaw
      if sigB64.length ≥ maxSigB64 then .error "signature_too_long"
      else
        .ok { req with
          signatureB64 := pad _ sigB64
          signatureLength := sigB64.length.toUInt32 }

-- `required` is what the environment says about signatures of the kernel.
def verifyDriverResponseSignature (required : Bool) (key : List UInt8) (resp : Response) :
    Except String Unit :=
  if !required then .ok ()
  else if resp.signatureLength = 0 ∨ resp.signatureLength.toNat ≥ maxSigB64 then
    .error "signature_missing"
  else if resp.signatureB64.toList[resp.signatureLength.toNat]? ≠ some 0 then
    .error "signature_bad_payload"
  else if key = [] then .error "hmac_key_missing"
  else
    match base64DecodeBinary (resp.signatureB64.toList.take resp.signatureLength.toNat) with
    | none => .error "signature_decode_failed"
    | some provided =>
      if provided.length ≠ hmacSha256Bytes then .error "signature_invalid_length"
      else if hmacSha256Raw key (buildDriverResponseCanonical resp) ≠ provided then
        .error "signature_invalid"
      else .ok ()

-- The environment of the agent, and the text in the registry, in characters of one byte.
structure KeyConfiguration where
  env : Option (List UInt8)
  registry : Option (List UInt8)

def KeyConfiguration.getDriverHmacKey (cfg : KeyConfiguration) : List UInt8 :=
  match cfg.env with
  | some (c :: cs) => c :: cs
  | _ =>
    match cfg.registry with
    | none => []
    | some text => if text.length + 1 ≤ 256 ∧ text.length + 1 > 1 then terminated text else []

section Agreement

theorem take_boundedLen (cs : List UInt8) : cs.take (boundedLen cs) = terminated cs :=
  (List.prefix_iff_eq_take.mp (List.takeWhile_prefix _)).symm

theorem sized_boundedLen (cs : List UInt8) : sized (boundedLen cs) cs = field cs := by
  rw [sized, take_boundedLen, Kernel.field_eq, boundedLen]

variable {cs key : List UInt8} {req : Request}

theorem sized_eq_counted {n : Nat} (h : 0 ∉ cs.take n) : sized n cs = counted n cs := by
  rw [sized, counted, Kernel.terminated_eq_self h]

theorem buildDriverRequestCanonical_eq (h : 0 ∉ req.paramsJson.toList.take req.paramsLength.toNat) :
    buildDriverRequestCanonical req = req.canonicalText := by
  have hs : ascii "v1\nseq=" = ascii "v1\n" ++ ascii "seq=" := by decide
  have hc : ascii "\ncmd=" = ascii "\n" ++ ascii "cmd=" := by decide
  have ho : ascii "\nop=" = ascii "\n" ++ ascii "op=" := by decide
  have hp : ascii "\nparams=" = ascii "\n" ++ ascii "params=" := by decide
  have hh : ascii "\npolicy=" = ascii "\n" ++ ascii "policy=" := by decide
  have hr : ascii "\nreq=" = ascii "\n" ++ ascii "req=" := by decide
  have ht : ascii "\nts=" = ascii "\n" ++ ascii "ts=" := by decide
  rw [Request.canonicalText_eq, Request.tailText, hs, hc, ho, hp, hh, hr, ht]
  unfold buildDriverRequestCanonical
  simp only [sized_boundedLen, sized_eq_counted h, List.append_assoc]

theorem take_length_pad {n : Nat} (h : cs.length ≤ n) : (pad n cs).toList.take cs.length = cs := by
  rw [toList_pad, List.take_take, Nat.min_eq_left h, List.take_left]

theorem take_paramsLength_fill (q : DriverRequest) :
    q.fill.paramsJson.toList.take q.fill.paramsLength.toNat =
      q.paramsJson.take (maxParams - 1) := by
  have hl : (q.paramsJson.take (maxParams - 1)).length ≤ 511 := List.length_take_le ..
  have hn : q.fill.paramsLength.toNat = (q.paramsJson.take (maxParams - 1)).length :=
    Nat.mod_eq_of_lt (by omega)
  have hp : q.fill.paramsJson = pad maxParams (q.paramsJson.take (maxParams - 1)) := by
    rw [DriverRequest.fill]
  rw [hn, hp]
  exact take_length_pad (hl.trans (by decide))

theorem length_resultBytes (resp : Response) :
    resp.resultBytes.length = min resp.resultLength.toNat maxResult := by
  unfold Response.resultBytes
  rw [List.length_take, List.Vector.toList_length]

theorem take_resultJson (resp : Response) :
    resp.resultJson.toList.take (min resp.resultLength.toNat maxResult) =
      resp.resultBytes := by
  unfold Response.resultBytes
  apply List.take_eq_take_iff.mpr
  rw [List.Vector.toList_length, Nat.min_assoc, Nat.min_self]

theorem counted_encode (bs : List UInt8) :
    counted (Base64.encode bs).length (Base64.encode bs) =
      decimal (Base64.encode bs).length ++ ascii ":" ++ Base64.encode bs := by
  rw [counted, List.take_length, Kernel.terminated_eq_self (Base64.zero_not_mem_encode bs)]

theorem buildDriverResponseCanonical_eq (resp : Response) :
    buildDriverResponseCanonical resp = resp.canonicalText := by
  have hs : ascii "v1\nstatus=" = ascii "v1\n" ++ ascii "status=" := by decide
  have he : ascii "\nerror=" = ascii "\n" ++ ascii "error=" := by decide
  have hk : ascii "\nkexec=" = ascii "\n" ++ ascii "kexec=" := by decide
  have hr : ascii "\nreq=" = ascii "\n" ++ ascii "req=" := by decide
  have hb : ascii "\nresult=" = ascii "\n" ++ ascii "result=" := by decide
  have hm : ascii "\nmsg=" = ascii "\n" ++ ascii "msg=" := by decide
  have ht : ascii "\nts=" = ascii "\n" ++ ascii "ts=" := by decide
  rw [Response.canonicalText, hs, he, hk, hr, hb, hm, ht]
  unfold buildDriverResponseCanonical
  simp only [sized_boundedLen, take_resultJson, base64EncodeBinary_eq_encode, length_resultBytes,
    counted_encode, field, List.append_assoc]

theorem length_sign (key : List UInt8) (text : List UInt8) :
    (Base64.encode (Sha256.hmac key text)).length = 44 := by
  rw [Base64.length_encode, Sha256.length_hmac]

theorem signatureLength_sign (key : List UInt8) (req : Request) :
    (req.sign key).signatureLength = 44 := by
  simp only [Request.sign, length_sign]
  rfl

theorem signatureB64_sign (key : List UInt8) (req : Request) :
    (req.sign key).signatureB64.toList =
      Base64.encode (Sha256.hmac key req.canonicalText) ++ List.replicate 84 0 := by
  simp only [Request.sign, List.Vector.toList, length_sign, maxSigB64]

theorem signDriverRequest_eq (hk : key ≠ [])
    (h : 0 ∉ req.paramsJson.toList.take req.paramsLength.toNat) :
    signDriverRequest key req = .ok (req.sign key) := by
  have hl := length_sign key req.canonicalText
  have hv : pad maxSigB64 (Base64.encode (Sha256.hmac key req.canonicalText)) =
      (req.sign key).signatureB64 := by
    apply List.Vector.toList_injective
    rw [toList_pad, signatureB64_sign, List.take_append, hl, List.take_of_length_le,
      List.take_replicate]
    · rfl
    · rw [hl]
      decide
  simp only [signDriverRequest, hmacSha256Raw_eq_hmac, base64EncodeBinary_eq_encode,
    buildDriverRequestCanonical_eq h]
  rw [if_neg hk, if_neg (by simp [Sha256.length_hmac, hmacSha256Bytes]),
    if_neg (by rw [hl]; decide), hv]
  rfl

theorem verifyRequestSignature_sign (hk : key ≠ []) : (req.sign key).verifyRequestSignature key :=
  Request.verifyRequestSignature_sign hk
    (Option.ite_none_right_eq_some.mp req.buildCanonicalRequest_eq).left

theorem authenticate_sign (hk : key ≠ []) : authenticate key (req.sign key) =
      if req.opcode ∈ opcodes then .accepted else .rejected 4002 "invalid_opcode" := by
  have ht : (req.sign key).signatureB64.toList[(44 : UInt32).toNat]? = some 0 := by
    rw [signatureB64_sign, List.getElem?_append_right (by rw [length_sign]; decide), length_sign]
    rfl
  rw [authenticate, signatureLength_sign, if_neg hk, if_neg (by decide), if_neg, if_neg]
  · rfl
  · simp [verifyRequestSignature_sign hk]
  · rw [ht]
    decide

section Response

variable {key : List UInt8} (hk : key ≠ []) (resp : Response)
include hk

theorem signResponse_eq : resp.signResponse key =
    resp.setSignature (Base64.encode (Sha256.hmac key resp.canonicalText)) := by
  rw [Response.signResponse, if_neg hk, resp.buildCanonicalResponse_eq]

theorem signatureB64_signResponse : (resp.signResponse key).signatureB64.toList =
    Base64.encode (Sha256.hmac key resp.canonicalText) ++
      0 :: resp.signatureB64.toList.drop 45 := by
  have hl := length_sign key resp.canonicalText
  rw [signResponse_eq hk, Response.setSignature]
  simp only [toList_pad, hl]
  have hv : resp.signatureB64.toList.length = 128 := resp.signatureB64.toList_length
  refine List.take_left' ?_
  rw [List.length_append, hl, List.length_cons, List.length_drop, hv]
  rfl

theorem verifyDriverResponseSignature_signResponse (required : Bool) :
    verifyDriverResponseSignature required key (resp.signResponse key) = .ok () := by
  have hl := length_sign key resp.canonicalText
  have hn : (resp.signResponse key).signatureLength = 44 := by
    rw [signResponse_eq hk, Response.setSignature, hl]
    rfl
  have ht : (resp.signResponse key).signatureB64.toList.take (44 : UInt32).toNat =
      Base64.encode (Sha256.hmac key resp.canonicalText) := by
    rw [signatureB64_signResponse hk]
    exact List.take_left' hl
  have hz : (resp.signResponse key).signatureB64.toList[(44 : UInt32).toNat]? = some 0 := by
    rw [signatureB64_signResponse hk, List.getElem?_append_right (by rw [hl]; decide), hl]
    rfl
  have hd : base64DecodeBinary (Base64.encode (Sha256.hmac key resp.canonicalText)) =
      some (Sha256.hmac key resp.canonicalText) :=
    Base64.decode_encode (by rw [hl, Sha256.length_hmac]; decide)
  have hc : (resp.signResponse key).canonicalText = resp.canonicalText := by
    rw [signResponse_eq hk, Response.canonicalText_setSignature]
  cases required
  case false => rfl
  case true =>
    rw [verifyDriverResponseSignature, hn, if_neg (by simp), if_neg (by decide),
      if_neg (not_not.mpr hz), if_neg hk, ht, hd]
    simp [Sha256.length_hmac, hmacSha256Bytes, hmacSha256Raw_eq_hmac,
      buildDriverResponseCanonical_eq, hc]

end Response

end Agreement

structure Parity (driver agent : List UInt8) : Prop where
  macs : ∀ message, base64EncodeBinary (hmacSha256Raw agent message) =
    Base64.encode (Sha256.hmac driver message)
  requests : ∀ q : DriverRequest, 0 ∉ q.paramsJson →
    q.fill.buildCanonicalRequest = some (buildDriverRequestCanonical q.fill) ∧
    ∃ req, signDriverRequest agent q.fill = .ok req ∧ req.verifyRequestSignature driver ∧
      authenticate driver req =
        if q.opcode ∈ opcodes then .accepted else .rejected 4002 "invalid_opcode"
  responses : ∀ resp : Response,
    resp.buildCanonicalResponse = some (buildDriverResponseCanonical resp) ∧
    ∀ required, verifyDriverResponseSignature required agent (resp.signResponse driver) = .ok ()

theorem Parity.of_eq {key : List UInt8} (hk : key ≠ []) : Parity key key where
  macs message := by rw [hmacSha256Raw_eq_hmac, base64EncodeBinary_eq_encode]
  requests q hq := by
    have h0 : 0 ∉ q.fill.paramsJson.toList.take q.fill.paramsLength.toNat := by
      rw [take_paramsLength_fill]
      exact fun h => hq (List.mem_of_mem_take h)
    have hb := q.fill.buildCanonicalRequest_eq
    rw [buildDriverRequestCanonical_eq h0]
    exact ⟨hb, q.fill.sign key, signDriverRequest_eq hk h0, verifyRequestSignature_sign hk,
      authenticate_sign hk⟩
  responses resp := by
    rw [buildDriverResponseCanonical_eq]
    exact ⟨resp.buildCanonicalResponse_eq,
      verifyDriverResponseSignature_signResponse hk resp⟩

-- The text is the one in the registry, and in the environment of the agent if there is one.
structure KeyConfiguration.Holds (cfg : KeyConfiguration) (text : List UInt8) : Prop where
  registry : cfg.registry = some text
  env : cfg.env = none ∨ cfg.env = some [] ∨ cfg.env = some text
  nonzero : 0 ∉ text

theorem KeyConfiguration.Holds.getDriverHmacKey {cfg : KeyConfiguration} {text : List UInt8}
    (h : cfg.Holds text) (hk : cfg.getDriverHmacKey ≠ []) : cfg.getDriverHmacKey = text := by
  have hr (he : cfg.env = none ∨ cfg.env = some []) : cfg.getDriverHmacKey = text := by
    have hg : cfg.getDriverHmacKey =
        if text.length + 1 ≤ 256 ∧ text.length + 1 > 1 then terminated text else [] := by
      rcases he with he | he <;> simp only [KeyConfiguration.getDriverHmacKey, he, h.registry]
    rw [hg] at hk ⊢
    split at hk
    case isTrue ht => rw [if_pos ht, Kernel.terminated_eq_self h.nonzero]
    case isFalse => exact absurd rfl hk
  rcases h.env with he | he | he
  · exact hr (.inl he)
  · exact hr (.inr he)
  · cases text
    case nil => exact hr (.inr he)
    case cons c text => simp only [KeyConfiguration.getDriverHmacKey, he]

-- Both sides get the same key if it is not longer than what the driver has room for.
theorem parity_of_length_le {cfg : KeyConfiguration} {text : List UInt8} (h : cfg.Holds text)
    (ha : cfg.getDriverHmacKey ≠ []) :
    (loadHmacKeyFromRegistry text = cfg.getDriverHmacKey ↔ text.length ≤ hmacKeyMax) ∧
      (text.length ≤ hmacKeyMax →
        Parity (loadHmacKeyFromRegistry text) cfg.getDriverHmacKey) := by
  have hk : loadHmacKeyFromRegistry text = cfg.getDriverHmacKey ↔
      text.length ≤ hmacKeyMax := by
    rw [h.getDriverHmacKey ha]
    constructor
    · intro he
      rw [← he]
      exact List.length_take_le ..
    · intro hl
      simp only [hmacKeyMax] at hl
      rw [loadHmacKeyFromRegistry, List.take_of_length_le, List.take_of_length_le (by omega)]
      exact (List.length_take_le' ..).trans hl
  refine ⟨hk, fun hl => ?_⟩
  rw [hk.mpr hl]
  exact .of_eq ha

theorem parity_of_length_le_hmacKey :
    Parity hmacKey (KeyConfiguration.mk none (some hmacKey)).getDriverHmacKey := by
  refine (@parity_of_length_le ⟨none, some hmacKey⟩ hmacKey ⟨rfl, .inl rfl, ?_⟩
    ?_).right ?_
  all_goals decide +kernel

def pingDriverRequest : DriverRequest where
  opcode := 10
  sequence := 1
  now := 1700000000
  requestId := ascii "r-1"
  policyHash := []
  commandMessageId := ascii "c-1"
  paramsJson := [0x7b, 0x7d]

-- The key is one byte longer than what the driver has room for.
def longKey : List UInt8 :=
  List.replicate 129 0x6b

def longKeyConfiguration : KeyConfiguration :=
  ⟨none, some longKey⟩

theorem longKey_not_verified :
    longKeyConfiguration.Holds longKey ∧
      (signDriverRequest longKeyConfiguration.getDriverHmacKey pingDriverRequest.fill).map
        (·.verifyRequestSignature (loadHmacKeyFromRegistry longKey)) = .ok false := by
  refine ⟨⟨rfl, .inl rfl, by decide⟩, ?_⟩
  decide +kernel

end Windows
