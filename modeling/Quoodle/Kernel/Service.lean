import Quoodle.Data.Search
import Quoodle.Windows.Canonical

-- The service that stands in for the kernel driver. It takes its requests from a named pipe and looks
-- for their fields in the raw text.
namespace Kernel.Service

open Search (after)
open Windows (canonicalObject quote)
open Json (intText)

def needle (key : String) : List Char :=
  '"' :: key.toList ++ ['"']

-- The text after the first colon that follows the key, wherever the key stands first.
def afterColon (json : List Char) (key : String) : Option (List Char) :=
  (after (needle key) json).bind (after [':'])

-- The text between the next two quotes. Backslashes have no meaning.
def quoted (text : List Char) : List Char :=
  match after ['"'] text with
  | some r => if '"' ∈ r then r.takeWhile (· ≠ '"') else []
  | none => []

def extractJsonString (json : List Char) (key : String) : List Char :=
  match afterColon json key with
  | some r => quoted r
  | none => []

def sign : List Char → Int × List Char
  | '-' :: text => (-1, text)
  | text => (1, text)

-- Models `std::stoi` for a text of digits and minus signs. It throws an exception if no number can be
-- read, or one that does not fit into an `int`.
def stoi (text : List Char) : Option Int :=
  let digits := (sign text).2.takeWhile Char.isDigit
  let n := (sign text).1 * Nat.ofDigitChars 10 digits 0
  if digits ≠ [] ∧ -2 ^ 31 ≤ n ∧ n < 2 ^ 31 then some n else none

def isBlank (c : Char) : Bool :=
  c = ' ' || c = '\t'

def number (text : List Char) (default : Int) : Option Int :=
  let digits := (text.dropWhile isBlank).takeWhile fun c => c.isDigit || c = '-'
  if digits = [] then some default else stoi digits

def extractJsonInt (json : List Char) (key : String) (default : Int) : Option Int :=
  match afterColon json key with
  | some r => number r default
  | none => some default

def truth (text : List Char) (default : Bool) : Bool :=
  let text := text.dropWhile isBlank
  if "true".toList <+: text then true else if "false".toList <+: text then false else default

def extractJsonBool (json : List Char) (key : String) (default : Bool) : Bool :=
  match afterColon json key with
  | some r => truth r default
  | none => default

-- The texts between the first and the second quote, the third and the fourth and so on. `word` holds
-- what was read since the last opening quote.
def strings (word : Option (List Char)) : List Char → List (List Char)
  | [] => []
  | c :: cs =>
    match word with
    | none => strings (if c = '"' then some [] else none) cs
    | some word => if c = '"' then word :: strings none cs else strings (some (word ++ [c])) cs

def array (text : List Char) : List (List Char) :=
  match after ['['] text with
  | some r => if ']' ∈ r then strings none (r.takeWhile (· ≠ ']')) else []
  | none => []

def extractJsonStringArray (json : List Char) (key : String) : List (List Char) :=
  match afterColon json key with
  | some r => array r
  | none => []

-- The text up to the brace that closes the innermost `depth` of the open ones. Braces in strings count.
def braces : Nat → List Char → List Char
  | 0, _ => []
  | _, [] => []
  | depth + 1, c :: cs =>
    c :: braces (if c = '{' then depth + 2 else if c = '}' then depth else depth + 1) cs

-- Whether the text ends with that brace.
def closes : Nat → List Char → Bool
  | 0, [] => true
  | 0, _ :: _ => false
  | _ + 1, [] => false
  | depth + 1, c :: cs =>
    closes (if c = '{' then depth + 2 else if c = '}' then depth else depth + 1) cs

def params (text : List Char) : List Char :=
  match text.dropWhile fun c => c = ' ' || c = '\t' || c = '\n' with
  | '{' :: cs => '{' :: braces 1 cs
  | _ => ['{', '}']

def extractParams (req : List Char) : List Char :=
  match afterColon req "params" with
  | some r => params r
  | none => ['{', '}']

def buildCanonicalRequestPayload (req : List Char) : Option (List Char) := do
  let requestId := extractJsonString req "request_id"
  let timestamp := extractJsonString req "timestamp"
  let opcode := extractJsonString req "opcode"
  let policyHash := extractJsonString req "policy_hash"
  let commandMessageId := extractJsonString req "command_message_id"
  let agentSequence ← extractJsonInt req "agent_sequence" 0
  return canonicalObject [
    ("agent_sequence", intText agentSequence),
    ("command_message_id", quote commandMessageId),
    ("opcode", quote opcode),
    ("params", extractParams req),
    ("policy_hash", quote policyHash),
    ("request_id", quote requestId),
    ("timestamp", quote timestamp)]

structure Environment where
  -- The value of `KERNEL_REQUIRE_SIGNATURE`.
  requireSignature : Option String
  -- Whether a signature is one of a payload, with the key of the controller.
  verify : List Char → List Char → Bool

def isSignatureRequired (env : Environment) : Bool :=
  env.requireSignature.elim true (· = "1")

def signature (req : List Char) : List Char :=
  let sig := extractJsonString req "signature"
  if sig = [] then extractJsonString req "sig" else sig

-- Returns the error, if there is one. The outer option models exceptions.
def verifyRequestSignature (env : Environment) (req : List Char) : Option (Option String) :=
  if ¬isSignatureRequired env then some none
  else if signature req = [] then some (some "SIGNATURE_MISSING")
  else do
    let payload ← buildCanonicalRequestPayload req
    return if env.verify payload (signature req) then none else some "SIGNATURE_INVALID"

inductive Opcode where
  | lockScreen | reboot | shutdown | logout
  | ping | collectSystemInfo | getProcessList | killProcess | validateUpdatePackage
  | stageUpdate | commitUpdate | rollbackUpdate
  | runAttestation | runTamperCheck | selfRepair
  | unknown
  deriving DecidableEq

def opcodes : List (Opcode × List String) := [
  (.lockScreen, ["EXEC_LOCK_SCREEN", "lock_screen"]),
  (.reboot, ["EXEC_REBOOT", "reboot"]),
  (.shutdown, ["EXEC_SHUTDOWN", "shutdown"]),
  (.logout, ["EXEC_LOGOUT", "logout"]),
  (.ping, ["EXEC_PING_KERNEL", "ping"]),
  (.collectSystemInfo, ["EXEC_COLLECT_SYSTEM_INFO", "collect_system_info"]),
  (.getProcessList, ["EXEC_GET_PROCESS_LIST", "get_process_list"]),
  (.killProcess, ["EXEC_KILL_PROCESS", "KILL_PROCESS", "kill_process"]),
  (.validateUpdatePackage, ["EXEC_VALIDATE_UPDATE_PACKAGE", "validate_update_package"]),
  (.stageUpdate, ["STAGE_UPDATE", "stage_update"]),
  (.commitUpdate, ["COMMIT_UPDATE", "commit_update"]),
  (.rollbackUpdate, ["ROLLBACK_UPDATE", "rollback_update"]),
  (.runAttestation, ["EXEC_RUN_ATTESTATION", "run_attestation"]),
  (.runTamperCheck, ["EXEC_RUN_TAMPER_CHECK", "run_tamper_check"]),
  (.selfRepair, ["EXEC_SELF_REPAIR", "self_repair"])]

def Opcode.ofText (text : List Char) : Opcode :=
  match opcodes.find? fun o => o.2.any fun name => name.toList = text with
  | some o => o.1
  | none => .unknown

-- The handlers of the dispatcher, with the arguments that they are called with.
inductive Operation where
  | lockScreen
  | reboot (delaySeconds : Int)
  | shutdown (force : Bool)
  | logout
  | ping
  | collectSystemInfo (fields : List (List Char))
  | getProcessList (includeCmdline : Bool)
  | killProcess (pid : Int)
  | validateUpdatePackage (path : List Char)
  | stageUpdate (packagePath : List Char) (sandbox : Bool)
  | commitUpdate (sandboxId : List Char)
  | rollbackUpdate (snapshotId : List Char)
  | runAttestation (includeTpm : Bool)
  | runTamperCheck
  | selfRepair
  | unknown (opcode : List Char)
  deriving DecidableEq

-- Arguments are looked for in the whole request, not only in its `params`.
def dispatchOpcode (req opcode : List Char) : Option Operation :=
  match Opcode.ofText opcode with
  | .lockScreen => some .lockScreen
  | .reboot => (extractJsonInt req "delay_seconds" 0).map .reboot
  | .shutdown => some (.shutdown (extractJsonBool req "force" false))
  | .logout => some .logout
  | .ping => some .ping
  | .collectSystemInfo => some (.collectSystemInfo (extractJsonStringArray req "fields"))
  | .getProcessList => some (.getProcessList (extractJsonBool req "include_cmdline" false))
  | .killProcess => (extractJsonInt req "pid" 0).map .killProcess
  | .validateUpdatePackage => some (.validateUpdatePackage (extractJsonString req "path"))
  | .stageUpdate =>
    some (.stageUpdate (extractJsonString req "package_path") (extractJsonBool req "sandbox" true))
  | .commitUpdate => some (.commitUpdate (extractJsonString req "sandbox_id"))
  | .rollbackUpdate => some (.rollbackUpdate (extractJsonString req "snapshot_id"))
  | .runAttestation => some (.runAttestation (extractJsonBool req "include_tpm" false))
  | .runTamperCheck => some .runTamperCheck
  | .selfRepair => some .selfRepair
  | .unknown => some (.unknown opcode)

def requestId (req : List Char) : List Char :=
  let id := extractJsonString req "request_id"
  if id = [] then "req-unknown".toList else id

-- What the pipe server does with a request whose signature was verified: the handler it calls, and
-- the identifier that the response will have.
def dispatch (req : List Char) : Option (List Char × Operation) :=
  (dispatchOpcode req (extractJsonString req "opcode")).map (requestId req, ·)

structure Accepts (env : Environment) (req p sig : List Char) : Prop where
  payload : buildCanonicalRequestPayload req = some p
  signed : signature req = sig
  valid : env.verify p sig
  verified : verifyRequestSignature env req = some none

theorem Accepts.of_valid {env : Environment} {req p sig : List Char} (hs : signature req = sig)
    (hp : buildCanonicalRequestPayload req = some p) (hn : sig ≠ []) (hv : env.verify p sig) :
    Accepts env req p sig := by
  refine ⟨hp, hs, hv, ?_⟩
  cases hr : isSignatureRequired env
  case false => simp [verifyRequestSignature, hr]
  case true => simp [verifyRequestSignature, hr, hs, hn, hp, hv]

def Opcode.takesArguments : Opcode → Bool
  | .reboot | .shutdown | .collectSystemInfo | .getProcessList | .killProcess => true
  | .validateUpdatePackage | .stageUpdate | .commitUpdate | .rollbackUpdate | .runAttestation => true
  | .lockScreen | .logout | .ping | .runTamperCheck | .selfRepair | .unknown => false

theorem dispatchOpcode_of_not_takesArguments {opcode : List Char}
    (h : ¬(Opcode.ofText opcode).takesArguments) (req req' : List Char) :
    dispatchOpcode req opcode = dispatchOpcode req' opcode := by
  unfold dispatchOpcode
  cases ho : Opcode.ofText opcode <;> simp_all [Opcode.takesArguments]

section Append

variable {pre : List Char} {key : String}

theorem afterColon_append (hp : ¬needle key <:+: pre) (hk : ',' ∉ key.toList) (r : List Char) :
    afterColon (pre ++ ',' :: r) key = afterColon r key := by
  have hn : ',' ∉ needle key := by simpa [needle] using hk
  rw [afterColon, Search.after_append_cons hp hn, afterColon]

-- The fields that the payload and the signature are taken from.
def signedKeys : List String := [
  "request_id", "timestamp", "opcode", "policy_hash", "command_message_id", "agent_sequence",
  "params", "signature", "sig"]

def Unrelated (pre : List Char) : Prop :=
  ∀ key ∈ signedKeys, ¬needle key <:+: pre

instance : DecidablePred Unrelated :=
  fun pre => inferInstanceAs (Decidable (∀ key ∈ signedKeys, ¬needle key <:+: pre))

theorem notMem_of_mem_signedKeys (hk : key ∈ signedKeys) :
    ',' ∉ key.toList ∧ ':' ∉ key.toList ∧ '"' ∉ key.toList ∧ '{' ∉ key.toList ∧ 'T' ∉ key.toList := by
  revert key
  decide

theorem afterColon_of_unrelated (h : Unrelated pre) (hk : key ∈ signedKeys) (r : List Char) :
    afterColon (pre ++ ',' :: r) key = afterColon r key :=
  afterColon_append (h key hk) (notMem_of_mem_signedKeys hk).left r

variable (h : Unrelated pre) (r : List Char)
include h

theorem extractJsonString_append (key : String) (hk : key ∈ signedKeys) :
    extractJsonString (pre ++ ',' :: r) key = extractJsonString r key := by
  rw [extractJsonString, afterColon_of_unrelated h hk, extractJsonString]

theorem buildCanonicalRequestPayload_append :
    buildCanonicalRequestPayload (pre ++ ',' :: r) = buildCanonicalRequestPayload r := by
  have hi : extractJsonInt (pre ++ ',' :: r) "agent_sequence" 0 = extractJsonInt r "agent_sequence" 0 := by
    rw [extractJsonInt, afterColon_of_unrelated h (by decide), extractJsonInt]
  have hp : extractParams (pre ++ ',' :: r) = extractParams r := by
    rw [extractParams, afterColon_of_unrelated h (by decide), extractParams]
  unfold buildCanonicalRequestPayload
  rw [hi, hp]
  simp only [extractJsonString_append h r "request_id" (by decide),
    extractJsonString_append h r "timestamp" (by decide),
    extractJsonString_append h r "opcode" (by decide),
    extractJsonString_append h r "policy_hash" (by decide),
    extractJsonString_append h r "command_message_id" (by decide)]

theorem signature_append : signature (pre ++ ',' :: r) = signature r := by
  unfold signature
  rw [extractJsonString_append h r "signature" (by decide),
    extractJsonString_append h r "sig" (by decide)]

theorem Accepts.append {env : Environment} {r p sig : List Char} (hr : Accepts env r p sig) :
    Accepts env (pre ++ ',' :: r) p sig := by
  have hp := buildCanonicalRequestPayload_append h r
  have hs := signature_append h r
  refine ⟨hp.trans hr.payload, hs.trans hr.signed, hr.valid, ?_⟩
  have hv := hr.verified
  unfold verifyRequestSignature at hv ⊢
  rwa [hp, hs]

theorem dispatch_append : dispatch (pre ++ ',' :: r) =
    (dispatchOpcode (pre ++ ',' :: r) (extractJsonString r "opcode")).map (requestId r, ·) := by
  unfold dispatch requestId
  rw [extractJsonString_append h r "request_id" (by decide),
    extractJsonString_append h r "opcode" (by decide)]

end Append

section Field

-- A field written in front of a request.
def field (key value : String) : List Char :=
  needle key ++ ':' :: value.toList

variable {key : String} (r : List Char)

theorem afterColon_field (value : String) :
    afterColon (field key value ++ ',' :: r) key = some (value.toList ++ ',' :: r) := by
  rw [afterColon, field, List.append_assoc, Search.after_append, Option.bind_some]
  exact Search.after_append [':'] _

theorem extractJsonInt_field (default : Int) :
    extractJsonInt (field key "0" ++ ',' :: r) key default = some 0 ∧
      extractJsonInt (field key "1" ++ ',' :: r) key default = some 1 := by
  have hn {c : Char} (hb : isBlank c = false) (hc : c.isDigit) :
      number (c :: ',' :: r) default = stoi [c] := by
    simp [number, hb, hc]
  rw [extractJsonInt, extractJsonInt, afterColon_field, afterColon_field]
  exact ⟨(hn rfl rfl).trans (by decide), (hn rfl rfl).trans (by decide)⟩

theorem extractJsonBool_field (default : Bool) :
    extractJsonBool (field key "true" ++ ',' :: r) key default = true ∧
      extractJsonBool (field key "false" ++ ',' :: r) key default = false := by
  rw [extractJsonBool, extractJsonBool, afterColon_field, afterColon_field]
  exact ⟨rfl, rfl⟩

theorem extractJsonString_field :
    extractJsonString (field key "\"a\"" ++ ',' :: r) key = ['a'] ∧
      extractJsonString (field key "\"b\"" ++ ',' :: r) key = ['b'] := by
  rw [extractJsonString, extractJsonString, afterColon_field, afterColon_field]
  exact ⟨rfl, rfl⟩

theorem extractJsonStringArray_field :
    extractJsonStringArray (field key "[]" ++ ',' :: r) key = [] ∧
      extractJsonStringArray (field key "[\"a\"]" ++ ',' :: r) key = [['a']] := by
  rw [extractJsonStringArray, extractJsonStringArray, afterColon_field, afterColon_field]
  exact ⟨rfl, rfl⟩

-- Two fields that make an opcode with arguments do different things.
theorem exists_field_dispatchOpcode_ne {opcode : List Char}
    (h : (Opcode.ofText opcode).takesArguments) :
    ∃ pre pre', Unrelated pre ∧ Unrelated pre' ∧ ∀ r,
      dispatchOpcode (pre ++ ',' :: r) opcode ≠ dispatchOpcode (pre' ++ ',' :: r) opcode := by
  unfold dispatchOpcode
  generalize Opcode.ofText opcode = o at h
  cases o
  case reboot =>
    refine ⟨field "delay_seconds" "0", field "delay_seconds" "1", by decide, by decide, fun r => ?_⟩
    simp [extractJsonInt_field r 0]
  case killProcess =>
    refine ⟨field "pid" "0", field "pid" "1", by decide, by decide, fun r => ?_⟩
    simp [extractJsonInt_field r 0]
  case shutdown =>
    refine ⟨field "force" "true", field "force" "false", by decide, by decide, fun r => ?_⟩
    simp [extractJsonBool_field r false]
  case getProcessList =>
    refine ⟨field "include_cmdline" "true", field "include_cmdline" "false", by decide, by decide,
      fun r => ?_⟩
    simp [extractJsonBool_field r false]
  case runAttestation =>
    refine ⟨field "include_tpm" "true", field "include_tpm" "false", by decide, by decide,
      fun r => ?_⟩
    simp [extractJsonBool_field r false]
  case collectSystemInfo =>
    refine ⟨field "fields" "[]", field "fields" "[\"a\"]", by decide, by decide, fun r => ?_⟩
    simp [extractJsonStringArray_field r]
  case validateUpdatePackage =>
    refine ⟨field "path" "\"a\"", field "path" "\"b\"", by decide, by decide, fun r => ?_⟩
    simp [extractJsonString_field r]
  case stageUpdate =>
    refine ⟨field "package_path" "\"a\"", field "package_path" "\"b\"", by decide, by decide,
      fun r => ?_⟩
    simp [extractJsonString_field r]
  case commitUpdate =>
    refine ⟨field "sandbox_id" "\"a\"", field "sandbox_id" "\"b\"", by decide, by decide,
      fun r => ?_⟩
    simp [extractJsonString_field r]
  case rollbackUpdate =>
    refine ⟨field "snapshot_id" "\"a\"", field "snapshot_id" "\"b\"", by decide, by decide,
      fun r => ?_⟩
    simp [extractJsonString_field r]
  all_goals contradiction

end Field

section Members

open Json (rawMember rawObject)

variable {key : String} {v w : List Char} {ms post : List (String × List Char)}

def rawMembers (ms : List (String × List Char)) : List Char :=
  [','].intercalate (ms.map rawMember) ++ ['}']

def rawRest : List (String × List Char) → List Char
  | [] => ['}']
  | m :: ms => ',' :: rawMembers (m :: ms)

theorem rawMembers_cons (m : String × List Char) (ms : List (String × List Char)) :
    rawMembers (m :: ms) = rawMember m ++ rawRest ms := by
  cases ms
  case nil => simp [rawMembers, rawRest]
  case cons n ms => simp [rawMembers, rawRest, List.intercalate_cons_cons]

theorem isInfix_needle_iff (hw : '"' ∉ w) : needle key <:+: '"' :: w ++ ['"'] ↔ w = key.toList := by
  constructor
  case mp =>
    rintro ⟨a, b, h⟩
    have hc := congrArg (List.count '"') h
    simp only [needle, List.count_append, List.count_cons, List.count_nil, beq_self_eq_true,
      if_true, List.count_eq_zero_of_not_mem hw] at hc
    have ha : a = [] := by
      cases a
      case nil => rfl
      case cons d a =>
        have hd : d = '"' := (List.cons.inj h).left
        simp [hd] at hc
        omega
    have hb : b = [] := by
      by_contra hb
      obtain ⟨b, d, rfl⟩ := (List.eq_nil_or_concat' b).resolve_left hb
      rw [← List.append_assoc] at h
      have hd : d = '"' := (List.cons.inj (List.append_inj' h rfl).right).left
      simp [hd] at hc
      omega
    simpa [ha, hb, needle, eq_comm] using h
  case mpr =>
    rintro rfl
    exact List.infix_refl _

theorem isInfix_rawMember_iff {k : String} (hk : ':' ∉ key.toList) (hq : '"' ∉ k.toList) :
    needle key <:+: rawMember (k, v) ↔ k = key ∨ needle key <:+: v := by
  have hn : ':' ∉ needle key := by simpa [needle] using hk
  have hm : rawMember (k, v) = '"' :: k.toList ++ ['"'] ++ ':' :: v := by simp [rawMember]
  rw [hm, Search.isInfix_append_cons_iff hn, isInfix_needle_iff hq, String.toList_inj]

theorem after_rawMembers (hk : ',' ∉ key.toList) (hm : ∀ m ∈ ms, ¬needle key <:+: rawMember m) :
    Search.after (needle key) (rawMembers (ms ++ (key, v) :: post)) =
      some (':' :: v ++ rawRest post) := by
  have hn : ',' ∉ needle key := by simpa [needle] using hk
  induction ms
  case nil =>
    have he : rawMember (key, v) ++ rawRest post = needle key ++ (':' :: v ++ rawRest post) := by
      simp [rawMember, needle]
    rw [List.nil_append, rawMembers_cons, he, Search.after_append]
  case cons m ms hi =>
    rw [List.forall_mem_cons] at hm
    have hr : rawRest (ms ++ (key, v) :: post) = ',' :: rawMembers (ms ++ (key, v) :: post) := by
      cases ms <;> rfl
    rw [List.cons_append, rawMembers_cons, hr, Search.after_append_cons hm.left hn, hi hm.right]

theorem afterColon_rawObject (hk : ',' ∉ key.toList)
    (hb : '{' ∉ key.toList) (hm : ∀ m ∈ ms, ¬needle key <:+: rawMember m) :
    afterColon (rawObject (ms ++ (key, v) :: post)) key = some (v ++ rawRest post) := by
  have hn : '{' ∉ needle key := by simpa [needle] using hb
  have ho : rawObject (ms ++ (key, v) :: post) = '{' :: rawMembers (ms ++ (key, v) :: post) := by
    simp [rawObject, rawMembers]
  have hs := @Search.after_append_cons _ (needle key) [] _ _ (by simp [needle]) hn
  rw [afterColon, ho, ← List.nil_append ('{' :: _), hs, after_rawMembers hk hm, Option.bind_some]
  exact Search.after_append [':'] _

end Members

section Values

variable {s t : List Char}

theorem takeWhile_append_cons {p : Char → Bool} {c : Char} (hs : ∀ c ∈ s, p c)
    (hc : p c = false) (t : List Char) : (s ++ c :: t).takeWhile p = s := by
  rw [List.takeWhile_append_of_pos hs]
  simp [hc]

theorem quoted_append (h : '"' ∉ s) (t : List Char) : quoted ('"' :: s ++ ['"'] ++ t) = s := by
  have ha : Search.after ['"'] ('"' :: s ++ ['"'] ++ t) = some (s ++ '"' :: t) := by
    simpa using Search.after_append ['"'] (s ++ '"' :: t)
  rw [quoted, ha]
  simp only [List.mem_append, List.mem_cons, true_or, or_true, if_true]
  refine takeWhile_append_cons (fun c hc => ?_) (by simp) t
  simpa using fun he : c = '"' => h (he ▸ hc)

theorem notMem_quoted (t : List Char) : '"' ∉ quoted t := by
  unfold quoted
  split
  case h_2 => simp
  case h_1 r _ =>
    split
    case isFalse => simp
    intro h
    simpa using List.mem_takeWhile_imp h

theorem stoi_range {n : Int} (h : stoi t = some n) : -2 ^ 31 ≤ n ∧ n < 2 ^ 31 := by
  unfold stoi at h
  obtain ⟨hc, he⟩ := Option.ite_none_right_eq_some.mp h
  cases he
  exact hc.right

theorem extractJsonInt_range {key : String} {n : Int}
    (h : extractJsonInt t key 0 = some n) : -2 ^ 31 ≤ n ∧ n < 2 ^ 31 := by
  unfold extractJsonInt number at h
  split at h
  case h_1 =>
    simp only at h
    split at h
    case isTrue => cases h; decide
    case isFalse => exact stoi_range h
  case h_2 => cases h; decide

theorem number_toDigits {n : Nat} (hn : n < 2 ^ 31) (t : List Char) (default : Int) :
    number (Nat.toDigits 10 n ++ ',' :: t) default = some n := by
  have ⟨hne, hd, _⟩ := Json.isDigits_toDigits n
  have ho := Nat.ofDigitChars_ten_toDigits (n := n)
  have hm := Json.toDigits_ne_minus n
  generalize Nat.toDigits 10 n = ds at hne hd ho hm
  obtain ⟨c, cs, rfl⟩ := List.exists_cons_of_ne_nil hne
  have hb : isBlank c = false := by
    have hc := hd c List.mem_cons_self
    by_contra hb
    simp only [Bool.not_eq_false, isBlank, Bool.or_eq_true, decide_eq_true_eq] at hb
    rcases hb with rfl | rfl <;> cases hc
  have ht : (c :: cs ++ ',' :: t).takeWhile (fun c => c.isDigit || c = '-') = c :: cs :=
    takeWhile_append_cons (fun c hc => by simp [hd c hc]) (by decide) t
  have hs : stoi (c :: cs) = some n := by
    have hw : (c :: cs).takeWhile Char.isDigit = c :: cs := List.takeWhile_eq_self_iff.mpr hd
    have hc : sign (c :: cs) = (1, c :: cs) := by
      rw [sign]
      exact fun t he => hm t he
    simp only [stoi, hc, hw, ho, one_mul]
    exact if_pos ⟨by simp, by omega, by exact_mod_cast hn⟩
  rw [number, List.cons_append, List.dropWhile_cons_of_neg (by simp [hb]), ← List.cons_append, ht]
  simpa using hs

theorem braces_append {depth : Nat} {cs : List Char} (h : closes depth cs) (t : List Char) :
    braces depth (cs ++ t) = cs := by
  fun_induction closes depth cs
  all_goals simp_all [braces]

end Values

section Payload

theorem quote_cancel {s s' cs ds : List Char} (h : quote s ++ cs = quote s' ++ ds) :
    s = s' ∧ cs = ds :=
  have hl (c : Char) : (Windows.escaper true).legible c = true := rfl
  Json.Escaper.quote_cancel hl hl h

-- The parameters stand in the payload as they are. What is written before them can be read from the
-- left, and what is written behind them from the right.
theorem payload_cancel {n n' : Int} {c c' o o' ps ps' h h' i i' t t' : List Char}
    (he : canonicalObject [("agent_sequence", intText n), ("command_message_id", quote c),
        ("opcode", quote o), ("params", ps), ("policy_hash", quote h), ("request_id", quote i),
        ("timestamp", quote t)] =
      canonicalObject [("agent_sequence", intText n'), ("command_message_id", quote c'),
        ("opcode", quote o'), ("params", ps'), ("policy_hash", quote h'), ("request_id", quote i'),
        ("timestamp", quote t')]) : n = n' ∧ o = o' ∧ i = i' := by
  have hn (m : Int) : Json.Dialect.rfc.Spells (intText m) (some (.num (intText m))) :=
    .number (Json.isNumber_intText m)
  simp only [canonicalObject, Json.rawObject, List.map_cons, List.map_nil,
    List.intercalate_cons_cons, List.intercalate_singleton, Json.rawMember, List.cons_append,
    List.nil_append, List.append_assoc, List.cons.injEq, true_and, List.append_cancel_left_eq] at he
  obtain ⟨hi, hl⟩ := (hn n).cancel (hn n') he (.cons rfl) (.cons rfl)
  simp only [List.cons.injEq, true_and, List.append_cancel_left_eq] at hl
  have hl := (quote_cancel hl).right
  simp only [List.cons.injEq, true_and, List.append_cancel_left_eq] at hl
  obtain ⟨ho, hr⟩ := quote_cancel hl
  refine ⟨Json.intText_injective hi, ho, ?_⟩
  have hr : (',' :: needle "params" ++ ':' :: ps ++ ',' :: needle "policy_hash" ++ ':' :: quote h ++
        ',' :: needle "request_id" ++ ':' :: quote i ++ ',' :: needle "timestamp") ++
        ':' :: quote t ++ ['}'] =
      (',' :: needle "params" ++ ':' :: ps' ++ ',' :: needle "policy_hash" ++ ':' :: quote h' ++
        ',' :: needle "request_id" ++ ':' :: quote i' ++ ',' :: needle "timestamp") ++
        ':' :: quote t' ++ ['}'] := by
    simpa [needle] using hr
  have hi := (Windows.quote_cancel_right hr).right
  exact (Windows.quote_cancel_right hi).left

theorem eq_of_buildCanonicalRequestPayload {r r' p : List Char}
    (h : buildCanonicalRequestPayload r = some p) (h' : buildCanonicalRequestPayload r' = some p) :
    extractJsonString r "opcode" = extractJsonString r' "opcode" ∧
      extractJsonString r "request_id" = extractJsonString r' "request_id" := by
  obtain ⟨n, _, hp⟩ := Option.bind_eq_some_iff.mp h
  obtain ⟨n', _, hp'⟩ := Option.bind_eq_some_iff.mp h'
  exact (payload_cancel (Option.some.inj (hp.trans hp'.symm))).right

end Payload

-- A payload and its signature stand for one operation only if it has no arguments: any field can be
-- put in front of a request without changing what is signed.
theorem dispatch_determined_iff {env : Environment} {r p sig : List Char}
    (h : Accepts env r p sig) :
    (∀ r', Accepts env r' p sig → dispatch r' = dispatch r) ↔
      ¬(Opcode.ofText (extractJsonString r "opcode")).takesArguments := by
  constructor
  case mp =>
    intro hd ht
    obtain ⟨pre, pre', hu, hu', hne⟩ := exists_field_dispatchOpcode_ne ht
    have he := (hd _ (h.append hu)).trans (hd _ (h.append hu')).symm
    rw [dispatch_append hu, dispatch_append hu'] at he
    apply hne r
    exact Option.map_injective (Prod.mk_right_injective _) he
  case mpr =>
    intro ht r' h'
    have ⟨ho, hi⟩ := eq_of_buildCanonicalRequestPayload h'.payload h.payload
    unfold dispatch requestId
    rw [ho, hi, dispatchOpcode_of_not_takesArguments ht r' r]

def exampleEnvironment : Environment where
  requireSignature := none
  verify _ sig := sig = ['s']

def killFields : List Char :=
  "\"request_id\":\"r\",\"timestamp\":\"t\",\"opcode\":\"kill_process\",\"params\":\x7b\"pid\":42\x7d,".toList ++
    "\"agent_sequence\":7,\"policy_hash\":\"p\",\"command_message_id\":\"c\",\"signature\":\"s\"\x7d".toList

def killPayload : List Char :=
  "\x7b\"agent_sequence\":7,\"command_message_id\":\"c\",\"opcode\":\"kill_process\",".toList ++
    "\"params\":\x7b\"pid\":42\x7d,\"policy_hash\":\"p\",\"request_id\":\"r\",\"timestamp\":\"t\"\x7d".toList

theorem accepts_killFields : Accepts exampleEnvironment ('{' :: killFields) killPayload ['s'] :=
  .of_valid (by decide +kernel) (by decide +kernel) (by decide) rfl

theorem accepts_pid_killFields :
    Accepts exampleEnvironment ('{' :: field "pid" "7" ++ ',' :: killFields) killPayload ['s'] :=
  .of_valid (by decide +kernel) (by decide +kernel) (by decide) rfl

theorem dispatch_determined_iff_kill :
    Accepts exampleEnvironment ('{' :: killFields) killPayload ['s'] ∧
      ((∀ r', Accepts exampleEnvironment r' killPayload ['s'] →
          dispatch r' = dispatch ('{' :: killFields)) ↔
        ¬(Opcode.ofText (extractJsonString ('{' :: killFields) "opcode")).takesArguments) :=
  ⟨accepts_killFields, dispatch_determined_iff accepts_killFields⟩

-- The process that is killed is not the one that the signed parameters name.
theorem dispatch_other_process :
    Accepts exampleEnvironment ('{' :: killFields) killPayload ['s'] ∧
      Accepts exampleEnvironment ('{' :: field "pid" "7" ++ ',' :: killFields) killPayload ['s'] ∧
      dispatch ('{' :: killFields) = some (['r'], .killProcess 42) ∧
      dispatch ('{' :: field "pid" "7" ++ ',' :: killFields) = some (['r'], .killProcess 7) :=
  ⟨accepts_killFields, accepts_pid_killFields, by decide, by decide⟩

end Kernel.Service
