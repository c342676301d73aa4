import Quoodle.Kernel.Responses

-- What the agent sends to the kernel service over a named pipe if there is no driver, and how it
-- verifies what it gets back.
namespace Windows

open Json.Nlohmann
open Json (intText)
open Kernel.Service (Outcome Stamp responsePayload wrapResponse toJson jsonQuote responseEscaper)

structure PipeRequest where
  requestId : List Char
  opcode : List Char
  paramsJson : List Char
  policyHash : List Char
  commandMessageId : List Char
  now : Int
  sequence : Nat

-- The counter starts with the time in milliseconds.
def initialSequenceSeed (nowMs : Int) : Nat :=
  if nowMs ≤ 0 then 1 else nowMs.toNat % 2 ^ 64

def nextSequence (counter : Nat) : Nat :=
  (counter + 1) % 2 ^ 64

namespace PipeRequest

variable (q : PipeRequest)

def params : List Char :=
  if q.paramsJson = [] then ['{', '}'] else q.paramsJson

def buildCanonicalPayload : List Char :=
  canonicalObject [
    ("agent_sequence", intText q.sequence),
    ("command_message_id", quote q.commandMessageId),
    ("opcode", quote q.opcode),
    ("params", q.params),
    ("policy_hash", quote q.policyHash),
    ("request_id", quote q.requestId),
    ("timestamp", quote (isoTimestamp q.now))]

def fields : List (String × List Char) := [
  ("request_id", quote q.requestId),
  ("timestamp", quote (isoTimestamp q.now)),
  ("opcode", quote q.opcode),
  ("params", q.params),
  ("agent_sequence", intText q.sequence),
  ("policy_hash", quote q.policyHash),
  ("command_message_id", quote q.commandMessageId)]

def text (signature : List Char) : List Char :=
  Json.rawObject (q.fields ++ [("signature", quote signature)])

end PipeRequest

section Requests

open Kernel.Service

def writtenKeys : List String := [
  "request_id", "timestamp", "opcode", "params", "agent_sequence", "policy_hash",
  "command_message_id", "signature"]

def keysAfter (name : String) : List String :=
  (writtenKeys.dropWhile (· ≠ name)).tail

-- A text without quotes, backslashes and control characters that is not the name of a field which is
-- written after it.
structure Ordinary (name : String) (s : List Char) : Prop where
  plain : Json.Plain s
  ne : ∀ key ∈ keysAfter name, s ≠ key.toList

-- The conditions under which the service finds the fields of a request where the agent wrote them.
structure Recoverable (q : PipeRequest) : Prop where
  sequence : q.sequence < 2 ^ 31
  requestId : Ordinary "request_id" q.requestId
  opcode : Ordinary "opcode" q.opcode
  policyHash : Ordinary "policy_hash" q.policyHash
  commandMessageId : Ordinary "command_message_id" q.commandMessageId
  braced : ∃ cs, q.params = '{' :: cs ∧ closes 1 cs
  params : ∀ key ∈ keysAfter "params", ¬needle key <:+: q.params

theorem mem_signedKeys {key name : String} (h : key ∈ keysAfter name) : key ∈ signedKeys := by
  have hs : ∀ key ∈ writtenKeys, key ∈ signedKeys := by decide
  exact hs key ((List.dropWhile_sublist _).subset (List.mem_of_mem_tail h))

theorem Ordinary.isoTimestamp (now : Int) : Ordinary "timestamp" (isoTimestamp now) := by
  refine ⟨plain_isoTimestamp now, fun key hk he => ?_⟩
  have ht : 'T' ∈ Windows.isoTimestamp now := by
    apply List.mem_flatMap.mpr
    exact ⟨.literal 'T', by simp [Calendar.isoDateTime], by simp⟩
  exact (notMem_of_mem_signedKeys (mem_signedKeys hk)).right.right.right.right (he ▸ ht)

section Recoverable

variable {q : PipeRequest} (h : Recoverable q)
include h

variable {p : List (String × List Char)} {key : String}

-- The quoted name of a field occurs in no field that is written before it.
theorem Recoverable.not_isInfix {m : String × List Char} (hm : m ∈ q.fields)
    (hk : key ∈ keysAfter m.1) : ¬needle key <:+: Json.rawMember m := by
  have hw : ∀ name ∈ writtenKeys, '"' ∉ name.toList ∧ name ∉ keysAfter name := by decide
  have hq : '"' ∉ m.1.toList ∧ m.1 ∉ keysAfter m.1 := by
    apply hw
    simp only [PipeRequest.fields, List.mem_cons, List.not_mem_nil, or_false] at hm
    rcases hm with rfl | rfl | rfl | rfl | rfl | rfl | rfl <;> simp [writtenKeys]
  have ht {s : List Char} (hs : Ordinary m.1 s) : ¬needle key <:+: quote s := by
    have hq : '"' ∉ s := fun h => (hs.plain '"' h).left rfl
    rw [quote_of_plain hs.plain, isInfix_needle_iff hq]
    exact hs.ne key hk
  have hv : ¬needle key <:+: m.2 := by
    simp only [PipeRequest.fields, List.mem_cons, List.not_mem_nil, or_false] at hm
    rcases hm with rfl | rfl | rfl | rfl | rfl | rfl | rfl
    · exact ht h.requestId
    · exact ht (.isoTimestamp _)
    · exact ht h.opcode
    · exact h.params key hk
    · intro hi
      have hd := (Json.isDigits_toDigits q.sequence).right.left '"'
      rw [← Json.intText_natCast] at hd
      exact absurd (hd (hi.subset (by simp [needle]))) (by decide)
    · exact ht h.policyHash
    · exact ht h.commandMessageId
  rw [isInfix_rawMember_iff (notMem_of_mem_signedKeys (mem_signedKeys hk)).right.left hq.left]
  exact not_or.mpr ⟨fun he => hq.right (he ▸ hk), hv⟩

theorem Recoverable.afterColon {sig v : List Char} {n : Nat}
    (he : q.fields ++ [("signature", quote sig)] = q.fields.take n ++ (key, v) :: p)
    (hk : key ∈ signedKeys) (hl : ∀ m ∈ q.fields.take n, key ∈ keysAfter m.1) :
    afterColon (q.text sig) key = some (v ++ rawRest p) := by
  have hc := notMem_of_mem_signedKeys hk
  rw [PipeRequest.text, he]
  apply afterColon_rawObject hc.left hc.right.right.right.left
  exact fun m hm => h.not_isInfix (List.mem_of_mem_take hm) (hl m hm)

theorem Recoverable.extractJsonString (sig : List Char) {s : List Char} {n : Nat}
    (he : q.fields ++ [("signature", quote sig)] = q.fields.take n ++ (key, quote s) :: p)
    (hs : Json.Plain s) (hk : key ∈ signedKeys) (hl : ∀ m ∈ q.fields.take n, key ∈ keysAfter m.1) :
    extractJsonString (q.text sig) key = s := by
  have hq : '"' ∉ s := fun h => (hs '"' h).left rfl
  rw [Kernel.Service.extractJsonString, h.afterColon he hk hl]
  simp only [quote_of_plain hs]
  exact quoted_append hq _

theorem Recoverable.extractParams (sig : List Char) : extractParams (q.text sig) = q.params := by
  have ⟨cs, hp, hc⟩ := h.braced
  rw [Kernel.Service.extractParams, h.afterColon (n := 3) (p := _ :: _) rfl (by decide)
    (by simp +decide [PipeRequest.fields])]
  simp only [hp, Kernel.Service.params, List.cons_append]
  rw [List.dropWhile_cons_of_neg (by decide)]
  exact congrArg ('{' :: ·) (braces_append hc _)

theorem Recoverable.extractJsonInt (sig : List Char) :
    extractJsonInt (q.text sig) "agent_sequence" 0 = some (q.sequence : Int) := by
  rw [Kernel.Service.extractJsonInt, h.afterColon (n := 4) (p := _ :: _) rfl (by decide)
    (by simp +decide [PipeRequest.fields]), Json.intText_natCast]
  exact number_toDigits h.sequence _ 0

theorem Recoverable.buildCanonicalRequestPayload (sig : List Char) :
    buildCanonicalRequestPayload (q.text sig) = some q.buildCanonicalPayload := by
  have hr := h.extractJsonString sig (n := 0) rfl h.requestId.plain (by decide) (by simp)
  have ht := h.extractJsonString sig (n := 1) rfl (plain_isoTimestamp q.now) (by decide)
    (by simp +decide [PipeRequest.fields])
  have ho := h.extractJsonString sig (n := 2) rfl h.opcode.plain (by decide)
    (by simp +decide [PipeRequest.fields])
  have hp := h.extractJsonString sig (n := 5) rfl h.policyHash.plain (by decide)
    (by simp +decide [PipeRequest.fields])
  have hc := h.extractJsonString sig (n := 6) rfl h.commandMessageId.plain (by decide)
    (by simp +decide [PipeRequest.fields])
  rw [Kernel.Service.buildCanonicalRequestPayload, h.extractJsonInt, h.extractParams, hr, ht, ho, hp,
    hc]
  rfl

theorem Recoverable.signature {sig : List Char} (hs : Json.Plain sig) (hn : sig ≠ []) :
    signature (q.text sig) = sig := by
  have he := h.extractJsonString sig (n := 7) rfl hs (by decide) (by simp +decide [PipeRequest.fields])
  rw [Kernel.Service.signature, he, if_neg hn]

end Recoverable

variable {q : PipeRequest} {sig : List Char}

theorem plain_of_extractJsonString
    (h : extractJsonString (q.text sig) "request_id" = q.requestId) : Json.Plain q.requestId := by
  have hc : afterColon (q.text sig) "request_id" = some (quote q.requestId ++
      rawRest (q.fields.tail ++ [("signature", quote sig)])) :=
    @afterColon_rawObject _ _ [] _ (by decide) (by decide) (by simp)
  rw [extractJsonString, hc] at h
  have hq : '"' ∉ q.requestId := h ▸ notMem_quoted _
  simp only [quote, quoted_append fun hm => hq (mem_of_mem_escapeJson hm)] at h
  exact escapeJson_eq_self_iff.mp h

-- The service reads the sequence number as an `int`.
theorem lt_of_buildCanonicalRequestPayload
    (h : buildCanonicalRequestPayload (q.text sig) = some q.buildCanonicalPayload) :
    q.sequence < 2 ^ 31 ∧ Json.Plain q.requestId := by
  obtain ⟨n, hn, he⟩ := Option.bind_eq_some_iff.mp h
  have ⟨hs, _, hr⟩ := payload_cancel (Option.some.inj he)
  have hl := (extractJsonInt_range hn).right
  exact ⟨by omega, plain_of_extractJsonString hr⟩

-- The converse of neither part holds: a field can be shadowed by a text that happens to say the same.
theorem pipeRequest_accepted (env : Environment) (q : PipeRequest) (sig : List Char) :
    (Recoverable q →
        buildCanonicalRequestPayload (q.text sig) = some q.buildCanonicalPayload ∧
          (Json.Plain sig → sig ≠ [] → env.verify q.buildCanonicalPayload sig →
            Accepts env (q.text sig) q.buildCanonicalPayload sig)) ∧
      (buildCanonicalRequestPayload (q.text sig) = some q.buildCanonicalPayload →
        q.sequence < 2 ^ 31 ∧ Json.Plain q.requestId) := by
  refine ⟨fun h => ⟨h.buildCanonicalRequestPayload sig, fun hs hn hv => ?_⟩,
    lt_of_buildCanonicalRequestPayload⟩
  exact .of_valid (h.signature hs hn) (h.buildCanonicalRequestPayload sig) hn hv

def pingRequest (sequence : Nat) : PipeRequest where
  requestId := ['r']
  opcode := "ping".toList
  paramsJson := []
  policyHash := ['p']
  commandMessageId := ['c']
  now := 1767225600
  sequence := sequence

theorem recoverable_pingRequest : Recoverable (pingRequest 7) where
  sequence := by decide
  requestId := ⟨by decide, by decide⟩
  opcode := ⟨by decide, by decide⟩
  policyHash := ⟨by decide, by decide⟩
  commandMessageId := ⟨by decide, by decide⟩
  braced := ⟨['}'], rfl, rfl⟩
  params := by decide

theorem pipeRequest_accepted_ping :
    buildCanonicalRequestPayload ((pingRequest 7).text ['s']) =
        some (pingRequest 7).buildCanonicalPayload ∧
      Accepts exampleEnvironment ((pingRequest 7).text ['s']) (pingRequest 7).buildCanonicalPayload ['s'] :=
  have h := (pipeRequest_accepted exampleEnvironment (pingRequest 7) ['s']).left recoverable_pingRequest
  ⟨h.left, h.right (by decide) (by decide) rfl⟩

theorem pingRequest_throws :
    buildCanonicalRequestPayload
      ((pingRequest (nextSequence (initialSequenceSeed 1767225600000))).text ['s']) = none := by
  decide

end Requests

def buildCanonicalKernelResponse (double : FloatText → List Char) (responseJson : List Char) :
    List Char :=
  match parse responseJson with
  | some response =>
    buildCanonicalValue double (eraseMember (eraseMember response "signature") "sig")
  | none => []

open Json (Spelling Dialect) in
def responseFields (r : Kernel.Service.KernelResponse) : List (String × Spelling .rfc) :=
  let text (s : List Char) : Spelling .rfc := ⟨_, _, .string responseEscaper s⟩
  [("request_id", text r.requestId), ("status", text r.status),
    ("kernel_exec_id", text r.kernelExecId), ("timestamp", text r.timestamp),
    ("result", text r.result), ("error_code", ⟨_, _, .number (Json.isNumber_intText r.errorCode.toInt)⟩),
    ("error_message", text r.errorMessage), ("sig", text r.sig)]

theorem toJson_eq (r : Kernel.Service.KernelResponse) :
    toJson r = Json.rawObject (Json.onValues Json.Spelling.text (responseFields r)) := by
  simp only [toJson, Kernel.Service.jsonQuote_eq]
  rfl

theorem read_toJson (r : Kernel.Service.KernelResponse) :
    Json.Dialect.rfc.read (toJson r) = (Json.Spelling.fields (responseFields r)).map .obj := by
  rw [toJson_eq]
  apply (Json.Spelling.spells_rawObject _).read_eq
  change ∀ k ∈ ["request_id", "status", "kernel_exec_id", "timestamp", "result", "error_code",
    "error_message", "sig"], Json.Plain k.toList
  decide

variable {r : Kernel.Service.KernelResponse}

theorem fields_responseFields
    {ms : List (String × Json (List Char))} (h : Json.Spelling.fields (responseFields r) = some ms) :
    ms = [("request_id", .str (.ofList r.requestId)), ("status", .str (.ofList r.status)),
      ("kernel_exec_id", .str (.ofList r.kernelExecId)), ("timestamp", .str (.ofList r.timestamp)),
      ("result", .str (.ofList r.result)), ("error_code", .num (intText r.errorCode.toInt)),
      ("error_message", .str (.ofList r.errorMessage)), ("sig", .str (.ofList r.sig))] := by
  simp only [responseFields, Json.Spelling.fields_cons, Json.Spelling.fields_nil,
    Option.bind_eq_some_iff, Option.map_eq_some_iff, Option.ite_none_right_eq_some,
    Option.some.injEq] at h
  obtain ⟨_, ⟨_, rfl⟩, _, ⟨_, ⟨_, rfl⟩, _, ⟨_, ⟨_, rfl⟩, _, ⟨_, ⟨_, rfl⟩, _, ⟨_, ⟨_, rfl⟩, _, ⟨_, rfl, _,
    ⟨_, ⟨_, rfl⟩, _, ⟨_, ⟨_, rfl⟩, _, rfl, rfl⟩, rfl⟩, rfl⟩, rfl⟩, rfl⟩, rfl⟩, rfl⟩, rfl⟩ := h
  rfl

theorem parse_toJson {v : Json Number} (h : parse (toJson r) = some v) :
    ∃ n : Integer, n.val = r.errorCode.toInt ∧ v = .obj [
      ("error_code", .num (.integer n)), ("error_message", .str (.ofList r.errorMessage)),
      ("kernel_exec_id", .str (.ofList r.kernelExecId)), ("request_id", .str (.ofList r.requestId)),
      ("result", .str (.ofList r.result)), ("sig", .str (.ofList r.sig)),
      ("status", .str (.ofList r.status)), ("timestamp", .str (.ofList r.timestamp))] := by
  have hl := r.errorCode.le_toInt
  have hu := r.errorCode.toInt_lt
  let n : Integer := ⟨r.errorCode.toInt, by omega, by omega⟩
  refine ⟨n, rfl, ?_⟩
  rw [parse, parseWith, read_toJson] at h
  simp only [Option.bind_eq_bind, Option.bind_eq_some_iff, Option.map_eq_some_iff] at h
  obtain ⟨_, ⟨ms, hm, rfl⟩, u, hu, h⟩ := h
  rw [fields_responseFields hm] at hu
  have hn : Number.read (intText r.errorCode.toInt) = some (.integer n) := Number.read_text (.integer n)
  simp [Json.Scalar.mapNum?, hn] at hu
  subst hu
  cases h
  simp +decide [ofJson, Json.mapOf, Json.insertBy]

-- The agent sorts the members of a response before it verifies the signature. The service signs them
-- in another order, so that no response is signed in the form that is verified.
theorem buildCanonicalKernelResponse_ne (double : FloatText → List Char)
    (sign : List Char → List Char) (stamp : Stamp) (requestId : List Char) (o : Outcome) :
    buildCanonicalKernelResponse double (toJson (wrapResponse sign stamp requestId o)) ≠
      responsePayload stamp requestId o := by
  intro h
  rw [buildCanonicalKernelResponse] at h
  split at h
  case h_2 => cases h
  case h_1 v hv =>
    obtain ⟨n, hn, rfl⟩ := parse_toJson hv
    have hl := o.errorCode.le_toInt
    have hu := o.errorCode.toInt_lt
    have hb : n.val.bmod (2 ^ 64) = o.errorCode.toInt := by
      rw [hn]
      exact Int.bmod_eq_of_le (by simp [wrapResponse]; omega) (by simp [wrapResponse]; omega)
    simp +decide only [eraseMember, List.filter_cons, List.filter_nil, if_true, if_false] at h
    have hk : ["error_code", "error_message", "kernel_exec_id", "request_id", "result", "status",
        "timestamp"].Pairwise Json.byteLt := by decide
    rw [buildCanonicalValue_obj double (by exact hk)] at h
    simp only [Json.onValues_cons, buildCanonicalValue_leaf, canonicalScalar, hb] at h
    simp [canonicalObject, responsePayload, Json.rawObject, Json.rawMember,
      List.intercalate_cons_cons] at h

def pong : Outcome where
  status := "ok".toList
  result := "pong".toList
  errorCode := 0
  errorMessage := []

theorem buildCanonicalKernelResponse_pong :
    buildCanonicalKernelResponse FloatText.text (toJson (wrapResponse (fun _ => ['s']) ⟨1, 0⟩ ['r'] pong)) =
        "\x7b\"error_code\":0,\"error_message\":\"\",\"kernel_exec_id\":\"kexec-1\",".toList ++
          "\"request_id\":\"r\",\"result\":\"pong\",\"status\":\"ok\",".toList ++
          "\"timestamp\":\"1970-01-01T00:00:00Z\"\x7d".toList ∧
      responsePayload ⟨1, 0⟩ ['r'] pong =
        "\x7b\"error_code\":0,\"request_id\":\"r\",\"kernel_exec_id\":\"kexec-1\",".toList ++
          "\"result\":\"pong\",\"status\":\"ok\",\"timestamp\":\"1970-01-01T00:00:00Z\",".toList ++
          "\"error_message\":null\x7d".toList := by
  decide +kernel

end Windows
