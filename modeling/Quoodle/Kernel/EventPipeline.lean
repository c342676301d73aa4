import Quoodle.Data.Utf8Decode
import Quoodle.Json.Spelling
import Quoodle.Kernel.Driver

-- The events that the driver emits for execute requests.
namespace Kernel.EventPipeline

open Json (Plain)

def maxEventPayload : Nat :=
  512

def opcodeStrings : List (UInt32 × String) := [
  (1, "LOCK_SCREEN"),
  (2, "REBOOT"),
  (3, "SHUTDOWN"),
  (4, "LOGOUT"),
  (10, "PING"),
  (11, "COLLECT_SYSTEM_INFO"),
  (12, "GET_PROCESS_LIST"),
  (15, "KILL_PROCESS"),
  (0x10001, "LIST_PROCESSES"),
  (0x10002, "LIST_SERVICES"),
  (0x10003, "LIST_CONNECTIONS"),
  (0x10004, "LIST_MOUNTS"),
  (0x10005, "NETWORK_INFO"),
  (0x10006, "GET_ACTIVE_WINDOW"),
  (0x20001, "LIST_FILES"),
  (0x20002, "DOWNLOAD_FILE"),
  (0x20003, "CREATE_DIRECTORY"),
  (0x20004, "CREATE_FILE"),
  (0x20005, "DELETE_FILE"),
  (0x20006, "DELETE_DIRECTORY"),
  (0x20007, "UPLOAD_FILE"),
  (0x50001, "SEC_APPLOCK_REPLACE_POLICY"),
  (0x50002, "SEC_APPLOCK_GET_STATUS"),
  (0x50003, "SEC_APPLOCK_CLEAR_POLICY"),
  (13, "VALIDATE_UPDATE_PACKAGE"),
  (14, "CAPTURE_SCREENSHOT"),
  (20, "STAGE_UPDATE"),
  (21, "COMMIT_UPDATE"),
  (22, "ROLLBACK_UPDATE"),
  (30, "RUN_ATTESTATION"),
  (31, "RUN_TAMPER_CHECK"),
  (32, "SELF_REPAIR")
]

def opcodeCategories : List (UInt32 × String) := [
  (30, "attestation"),
  (31, "integrity"),
  (32, "integrity"),
  (13, "update"),
  (20, "update"),
  (21, "update"),
  (22, "update"),
  (0x50001, "security"),
  (0x50002, "security"),
  (0x50003, "security"),
  (0x20001, "filesystem"),
  (0x20002, "filesystem"),
  (0x20003, "filesystem"),
  (0x20004, "filesystem"),
  (0x20005, "filesystem"),
  (0x20006, "filesystem"),
  (0x20007, "filesystem")
]

def opcodeSubtypes : List (UInt32 × String) := [
  (30, "attestation_check"),
  (31, "integrity_check"),
  (32, "integrity_check"),
  (13, "update_validate"),
  (20, "update_stage"),
  (21, "update_commit"),
  (22, "update_rollback"),
  (0x50001, "applock_replace_policy"),
  (0x50002, "applock_get_status"),
  (0x50003, "applock_clear_policy"),
  (15, "process_control"),
  (0x20001, "fs_list"),
  (0x20002, "fs_download"),
  (0x20003, "fs_create_directory"),
  (0x20004, "fs_create_file"),
  (0x20005, "fs_delete_file"),
  (0x20006, "fs_delete_directory"),
  (0x20007, "fs_upload_file")
]

def opcodeToString (opcode : UInt32) : String :=
  (opcodeStrings.lookup opcode).getD "UNKNOWN"

def opcodeCategory (opcode : UInt32) : String :=
  (opcodeCategories.lookup opcode).getD "exec"

def opcodeSubtype (opcode : UInt32) : String :=
  (opcodeSubtypes.lookup opcode).getD "opcode"

-- What the handler of an opcode has put into the response.
structure Response where
  status : UInt32
  errorCode : UInt32

structure Counters where
  queueDepth : UInt32
  dropped : UInt64
  validationRejects : UInt64
  runtimeInternalErrors : UInt64

structure Event where
  category : String
  subtype : String
  severity : String
  decision : String
  reasonCode : String
  opcode : String
  errorCode : UInt32
  durationMs : UInt64

def emitOpcodeEvent (opcode status errorCode : UInt32) (durationMs : UInt64) : Event where
  category := opcodeCategory opcode
  subtype := opcodeSubtype opcode
  severity := if status = 0 then "info" else "high"
  decision := if status = 0 then "allow" else "deny"
  reasonCode := if status = 0 then "ok" else "error"
  opcode := opcodeToString opcode
  errorCode := errorCode
  durationMs := durationMs

def emitValidationReject (opcode : UInt32) (reasonCode : String) (errorCode : UInt32)
    (durationMs : UInt64) : Event where
  category := "runtime"
  subtype := "validation_reject"
  severity := "medium"
  decision := "reject"
  reasonCode := reasonCode
  opcode := opcodeToString opcode
  errorCode := errorCode
  durationMs := durationMs

def eventOf (opcode : UInt32) (handled : Response) (durationMs : UInt64) : Verdict → Event
  | .accepted => emitOpcodeEvent opcode handled.status handled.errorCode durationMs
  | .rejected code errorMessage =>
    if errorMessage = "invalid_opcode" then emitOpcodeEvent opcode 1 code.toUInt32 durationMs
    else emitValidationReject opcode errorMessage code.toUInt32 durationMs

-- Models the conversion `\"%s\"`.
def quoted (s : List Char) : List Char :=
  '"' :: s ++ ['"']

-- The members that `qep_emit_kernel_category_event` prints before the reference to the policy.
def headFields (e : Event) (c : Counters) : List (String × List Char) := [
  ("category", quoted e.category.toList),
  ("subtype", quoted e.subtype.toList),
  ("severity", quoted e.severity.toList),
  ("decision", quoted e.decision.toList),
  ("reason_code", quoted e.reasonCode.toList),
  ("opcode", quoted e.opcode.toList),
  ("error_code", Nat.toDigits 10 e.errorCode.toNat),
  ("duration_ms", Nat.toDigits 10 e.durationMs.toNat),
  ("queue_depth", Nat.toDigits 10 c.queueDepth.toNat),
  ("drop_count", Nat.toDigits 10 c.dropped.toNat),
  ("validation_reject_count", Nat.toDigits 10 c.validationRejects.toNat),
  ("runtime_error_count", Nat.toDigits 10 c.runtimeInternalErrors.toNat)
]

def payloadHead (e : Event) (c : Counters) : List Char :=
  '{' :: [','].intercalate ((headFields e c).map Json.rawMember) ++ ",\"policy_ref\":\"".toList

def payloadTail : List Char :=
  "\",\"masked_fields\":[]\x7d".toList

def payloadText (e : Event) (c : Counters) (policyRef : List UInt8) : List UInt8 :=
  utf8 (payloadHead e c) ++ policyRef ++ utf8 payloadTail

-- The buffer has to hold a terminator, too.
def payload (e : Event) (c : Counters) (policyRef : List UInt8) : List UInt8 :=
  (payloadText e c policyRef).take (maxEventPayload - 1)

-- What is printed for the policy hash of a request. Unless it is terminated, the fields that follow it
-- are printed as well, of which the payload holds no more than these.
def policyRef (req : Request) : List UInt8 :=
  terminated (req.policyHash.toList ++ req.commandMessageId.toList ++ req.paramsJson.toList)

end Kernel.EventPipeline
