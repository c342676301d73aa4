import Quoodle.Kernel.Service

-- The responses of the service, which it signs, and then prints in another form.
namespace Kernel.Service

open Windows (canonicalObject quote)
open Json (intText)

structure KernelResponse where
  requestId : List Char
  status : List Char
  kernelExecId : List Char
  timestamp : List Char
  result : List Char
  errorCode : Int32
  errorMessage : List Char
  sig : List Char

structure Outcome where
  status : List Char
  result : List Char
  errorCode : Int32
  errorMessage : List Char

structure Stamp where
  execution : UInt32
  now : Int

def generateExecId (execution : UInt32) : List Char :=
  "kexec-".toList ++ Nat.toDigits 16 execution.toNat

def responsePayload (stamp : Stamp) (requestId : List Char) (o : Outcome) : List Char :=
  canonicalObject [
    ("error_code", intText o.errorCode.toInt),
    ("request_id", quote requestId),
    ("kernel_exec_id", quote (generateExecId stamp.execution)),
    ("result", quote o.result),
    ("status", quote o.status),
    ("timestamp", quote (Windows.isoTimestamp stamp.now)),
    ("error_message", if o.errorMessage = [] then "null".toList else quote o.errorMessage)]

-- `sign` is a signature, or the hash that is sent if there is no key.
def wrapResponse (sign : List Char → List Char) (stamp : Stamp) (requestId : List Char)
    (o : Outcome) : KernelResponse where
  requestId := requestId
  status := o.status
  kernelExecId := generateExecId stamp.execution
  timestamp := Windows.isoTimestamp stamp.now
  result := o.result
  errorCode := o.errorCode
  errorMessage := o.errorMessage
  sig := sign (responsePayload stamp requestId o)

-- Other control characters than these three are written as they are.
def jsonEscape (s : List Char) : List Char :=
  s.flatMap fun
    | '\\' => ['\\', '\\']
    | '"'  => ['\\', '"']
    | '\n' => ['\\', 'n']
    | '\r' => ['\\', 'r']
    | '\t' => ['\\', 't']
    | c => [c]

def jsonQuote (s : List Char) : List Char :=
  '"' :: jsonEscape s ++ ['"']

def toJson (r : KernelResponse) : List Char :=
  Json.rawObject [
    ("request_id", jsonQuote r.requestId),
    ("status", jsonQuote r.status),
    ("kernel_exec_id", jsonQuote r.kernelExecId),
    ("timestamp", jsonQuote r.timestamp),
    ("result", jsonQuote r.result),
    ("error_code", intText r.errorCode.toInt),
    ("error_message", jsonQuote r.errorMessage),
    ("sig", jsonQuote r.sig)]

-- A reader gets back what is written for a text unless it has other control characters.
def responseEscaper : Json.Escaper false where
  escape c := jsonEscape [c]
  legible c := 0x20 ≤ c.toNat || c = '\n' || c = '\r' || c = '\t'
  ne_quote c cs ds := by
    simp only [jsonEscape, List.flatMap_cons, List.flatMap_nil, List.append_nil]
    split
    case h_6 hq _ _ _ => exact fun h => hq (List.cons.inj h).left
    all_goals simp
  read c cs := by
    simp only [jsonEscape, List.flatMap_cons, List.flatMap_nil, List.append_nil]
    split
    case h_6 hb hq hn hr ht =>
      rw [List.singleton_append, Json.readChar.eq_def]
      split <;> simp_all
    all_goals rfl

theorem jsonQuote_eq (s : List Char) : jsonQuote s = responseEscaper.quote s := by
  have h : jsonEscape s = responseEscaper.text s := by
    simp [jsonEscape, Json.Escaper.text, responseEscaper]
  rw [jsonQuote, h, Json.Escaper.quote]

end Kernel.Service
