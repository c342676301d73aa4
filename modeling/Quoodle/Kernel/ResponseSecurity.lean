import Quoodle.Kernel.Texts

-- The responses of the driver, which it signs with the key of the requests.
namespace Kernel

def maxResult : Nat :=
  2048

def maxErrorMessage : Nat :=
  128

def hmacKeyMax : Nat :=
  128

structure Response where
  version : UInt32
  status : UInt32
  errorCode : UInt32
  resultLength : UInt32
  timestampUnix : UInt64
  requestId : List.Vector UInt8 maxRequestId
  kernelExecId : List.Vector UInt8 maxRequestId
  errorMessage : List.Vector UInt8 maxErrorMessage
  resultJson : List.Vector UInt8 maxResult
  signatureLength : UInt32
  signatureB64 : List.Vector UInt8 maxSigB64

-- The text of the registry, in characters of one byte. Its length in bytes is kept in 16 bits.
def loadHmacKeyFromRegistry (text : List UInt8) : List UInt8 :=
  (text.take (2 * text.length % 2 ^ 16 / 2)).take hmacKeyMax

namespace Response

variable (resp : Response)

def resultBytes : List UInt8 :=
  resp.resultJson.toList.take resp.resultLength.toNat

def canonicalText : List UInt8 :=
  let field (cs : List UInt8) := counted (terminated cs).length cs
  let result := Base64.encode resp.resultBytes
  ascii "v1\nstatus=" ++ decimal resp.status.toNat ++
    ascii "\nerror=" ++ decimal resp.errorCode.toNat ++
    ascii "\nkexec=" ++ field resp.kernelExecId.toList ++
    ascii "\nreq=" ++ field resp.requestId.toList ++
    ascii "\nresult=" ++ decimal resp.resultBytes.length ++ ascii ":" ++
      counted result.length result ++
    ascii "\nmsg=" ++ field resp.errorMessage.toList ++
    ascii "\nts=" ++ decimal resp.timestampUnix.toNat ++ ascii "\n"

-- Both the result in base 64 and the whole text have to fit into a buffer.
def buildCanonicalResponse : Option (List UInt8) :=
  if (Base64.encode resp.resultBytes).length < maxResult * 4 / 3 + 8 ∧
      resp.canonicalText.length < maxCanonical then
    some resp.canonicalText
  else none

-- Writes a terminated signature. What is behind it stays in the buffer.
def setSignature (signature : List UInt8) : Response := { resp with
  signatureLength := signature.length.toUInt32
  signatureB64 := pad _ (signature ++ 0 :: resp.signatureB64.toList.drop (signature.length + 1)) }

-- Models `QuoodleRequestSecuritySignResponse`. There is no signature without a key.
def signResponse (key : List UInt8) : Response :=
  if key = [] then resp.setSignature []
  else
    match resp.buildCanonicalResponse with
    | none => resp.setSignature []
    | some canonical => resp.setSignature (Base64.encode (Sha256.hmac key canonical))

@[simp]
theorem canonicalText_setSignature (signature : List UInt8) :
    (resp.setSignature signature).canonicalText = resp.canonicalText :=
  rfl

theorem length_resultBytes_le : resp.resultBytes.length ≤ maxResult := by
  rw [resultBytes, List.length_take, List.Vector.toList_length]
  exact Nat.min_le_right ..

theorem length_canonicalText_lt : resp.canonicalText.length < maxCanonical := by
  have hr := resp.length_resultBytes_le
  have hd {n : Nat} (h : n < 10 ^ 20) : (decimal n).length ≤ 20 := length_decimal_le (by decide) h
  have hs := hd (resp.status.toNat_lt.trans (by decide))
  have he := hd (resp.errorCode.toNat_lt.trans (by decide))
  have ht := hd (resp.timestampUnix.toNat_lt.trans (by decide))
  have hn := hd (hr.trans_lt (by decide))
  have hk : (field resp.kernelExecId.toList).length ≤ 68 := length_field_le _ (by decide)
  have hq : (field resp.requestId.toList).length ≤ 68 := length_field_le _ (by decide)
  have hm : (field resp.errorMessage.toList).length ≤ 132 := length_field_le _ (by decide)
  have hl := Base64.length_encode resp.resultBytes
  have hb := length_counted_le (Base64.encode resp.resultBytes).length
    (Base64.encode resp.resultBytes)
  simp only [maxResult] at hr
  have hc := hd (n := (Base64.encode resp.resultBytes).length) (by omega)
  have ha : (ascii "v1\nstatus=").length + (ascii "\nerror=").length + (ascii "\nkexec=").length +
      (ascii "\nreq=").length + (ascii "\nresult=").length + (ascii ":").length +
      (ascii "\nmsg=").length + (ascii "\nts=").length + (ascii "\n").length ≤ 60 := by
    decide
  simp only [field] at hk hq hm
  simp only [canonicalText, List.length_append, maxCanonical]
  omega

theorem buildCanonicalResponse_eq : resp.buildCanonicalResponse = some resp.canonicalText := by
  have hr := resp.length_resultBytes_le
  refine if_pos ⟨?_, resp.length_canonicalText_lt⟩
  rw [Base64.length_encode]
  simp only [maxResult] at hr ⊢
  omega

end Response

end Kernel
