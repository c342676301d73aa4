import Quoodle.Kernel.AppLockdown
import Quoodle.Windows.WsClient

-- How the agent reads an app-lock bundle. Strings are given by their bytes, and the outer `Option` of
-- what is read stands for the exceptions of the library.
namespace Windows.AppLock

open Json.Nlohmann
open Kernel (ascii decimal isDigit maxParams)
open Kernel.AppLockdown (isSeparator ofDigits)

section Strings

def sanitizeChar (c : UInt8) : UInt8 :=
  if c = '\r'.toUInt8 ∨ c = '\n'.toUInt8 then ' '.toUInt8
  else if c = '='.toUInt8 then ':'.toUInt8
  else c

def sanitizeScalar (value : List UInt8) : List UInt8 :=
  value.map sanitizeChar

def isBlank (c : UInt8) : Bool :=
  c = ' '.toUInt8 || c = '\t'.toUInt8 || c = '\r'.toUInt8 || c = '\n'.toUInt8

def trimCopy (value : List UInt8) : List UInt8 :=
  (value.dropWhile isBlank).rdropWhile isBlank

def toLower (c : UInt8) : UInt8 :=
  if 'A'.toUInt8 ≤ c ∧ c ≤ 'Z'.toUInt8 then c - 'A'.toUInt8 + 'a'.toUInt8 else c

def toLowerCopy (value : List UInt8) : List UInt8 :=
  value.map toLower

def quotes : List UInt8 :=
  [0x22, 0x27]

def isQuoted (value : List UInt8) : Bool :=
  value.length ≥ 2 && quotes.any fun q => value.head? = some q && value.getLast? = some q

def stripQuotes (value : List UInt8) : List UInt8 :=
  if isQuoted value then trimCopy (value.drop 1).dropLast else value

-- Some interfaces of Windows write `\\?\` or `\??\` in front of a path.
def stripNamespace (value : List UInt8) : List UInt8 :=
  let lower := toLowerCopy value
  if ascii "\\\\?\\unc\\" <+: lower ∧ value.length > 8 then ascii "\\\\" ++ value.drop 8
  else if ascii "\\\\?\\" <+: lower ∧ value.length > 4 then value.drop 4
  else if ascii "\\??\\" <+: lower ∧ value.length > 4 then value.drop 4
  else value

def toBackslash (c : UInt8) : UInt8 :=
  if c = '/'.toUInt8 then '\\'.toUInt8 else c

def normalizeWindowsPath (value : List UInt8) : List UInt8 :=
  toLowerCopy ((stripNamespace (stripQuotes (trimCopy value))).map toBackslash)

-- Nothing if the path ends with a separator.
def basenameFromPath (path : List UInt8) : List UInt8 :=
  path.rtakeWhile (!isSeparator ·)

def normalizeBasename (value : List UInt8) (allowImplicitExe : Bool) : List UInt8 :=
  let candidate := trimCopy (basenameFromPath (normalizeWindowsPath value))
  if candidate = [] then []
  else if allowImplicitExe ∧ '.'.toUInt8 ∉ candidate then candidate ++ ascii ".exe"
  else candidate

def basenameWithoutExeSuffix (value : List UInt8) : List UInt8 :=
  if value.length > 4 ∧ ascii ".exe" <:+ value then value.take (value.length - 4) else value

end Strings

section Members

def readText (v : Json Number) : Option (List UInt8) :=
  (readString v).map fun s => utf8 s.toList

def readBool : Json Number → Option Bool
  | .bool b => some b
  | _ => none

-- Models `get<std::int64_t>` of a member that is an integer.
def integerMember (v : Json Number) (key : String) : Option Int :=
  match member v key with
  | some (.num (.integer n)) => some (n.val.bmod (2 ^ 64))
  | _ => none

-- Numbers that do not fit into 64 bits are refused as other texts are.
def tryParseUnixSeconds : Json Number → Option Nat
  | .num (.integer n) => if 0 ≤ n.val then some n.val.toNat else none
  | .str s =>
    let text := utf8 s.toList
    if text ≠ [] ∧ text.all isDigit ∧ ofDigits 0 text < 2 ^ 64 ∧ 0 < ofDigits 0 text then
      some (ofDigits 0 text)
    else none
  | _ => none

end Members

inductive MatchType where
  | basename
  | fullPath
  deriving DecidableEq

namespace MatchType

def text : MatchType → List UInt8
  | basename => ascii "basename"
  | fullPath => ascii "full_path"

def ofText (text : List UInt8) : Option MatchType :=
  if text = ascii "basename" then some basename
  else if text = ascii "full_path" then some fullPath
  else none

def normalize (value : List UInt8) : MatchType → List UInt8
  | basename => normalizeBasename value true
  | fullPath => normalizeWindowsPath value

end MatchType

structure RuntimeRule where
  matchType : MatchType
  value : List UInt8
  deriving DecidableEq

section Rules

variable {α : Type}

def readRuntimeRule (rule : Json Number) : Option (Option RuntimeRule) :=
  match rule with
  | .obj _ => do
    let action ← value readText rule "action" (ascii "block")
    if toLowerCopy action ≠ ascii "block" then some none else
    let matchType ← value readText rule "match_type" []
    match MatchType.ofText (toLowerCopy matchType) with
    | none => some none
    | some matchType => do
      let raw ← value readText rule "value" []
      let normalized := matchType.normalize (sanitizeScalar raw)
      if raw = [] ∨ normalized = [] then some none else some (some ⟨matchType, normalized⟩)
  | _ => some none

def ruleList (appLock : Json Number) : List (Json Number) :=
  match member appLock "rules" with
  | some (.arr rules) => rules
  | _ => []

-- A loop over the rules that skips some of them, and ends once there are `limit`.
def collect (limit : Nat) (read : Nat → Json Number → Option (Option α)) (taken : List α) :
    List (Json Number) → Option (List α)
  | [] => some taken
  | rule :: rules => do
    match ← read taken.length rule with
    | none => collect limit read taken rules
    | some r =>
      if taken.length + 1 ≥ limit then some (taken ++ [r])
      else collect limit read (taken ++ [r]) rules

def extractRuntimeBlockRules (appLock : Json Number) : Option (List RuntimeRule) :=
  match appLock with
  | .obj _ => do
    let enabled ← value readBool appLock "enabled" false
    if enabled then collect 256 (fun _ => readRuntimeRule) [] (ruleList appLock) else some []
  | _ => some []

def isOff (text : List UInt8) : Bool :=
  text = ascii "0" || text = ascii "false" || text = ascii "off" || text = ascii "no"

-- On by default.
def shouldKillRunningOnApply (appLock : Json Number) : Option Bool :=
  match appLock with
  | .obj _ => do
    let enabled ← value readBool appLock "enabled" false
    if !enabled then some false else
    match member appLock "kill_running_on_apply" with
    | some (.bool b) => some b
    | some (.num (.integer n)) => some (n.val.bmod (2 ^ 64) ≠ 0)
    | some (.str s) => some !isOff (toLowerCopy (utf8 s.toList))
    | _ => some true
  | _ => some false

end Rules

section Blob

structure BlobRule extends RuntimeRule where
  ruleId : List UInt8
  priority : Nat
  expiresAt : Option Nat
  deriving DecidableEq

def readPriority (rule : Json Number) : Nat :=
  match integerMember rule "priority" with
  | some parsed => if 0 < parsed ∧ parsed < 1000000 then parsed.toNat else 1000
  | none => 1000

def readExpiresAt (rule : Json Number) : Option Nat :=
  (member rule "expires_at").bind tryParseUnixSeconds |>.filter (0 < ·)

def readRuleId (rule : Json Number) : Option (List UInt8) :=
  (value readText rule "rule_id" []).map sanitizeScalar

def readBlobRule (ruleIndex : Nat) (rule : Json Number) : Option (Option BlobRule) := do
  match ← readRuntimeRule rule with
  | none => some none
  | some r =>
    let ruleId ← readRuleId rule
    some <| some {
      toRuntimeRule := r
      ruleId := if ruleId = [] then ascii "rule-" ++ decimal ruleIndex else ruleId
      priority := readPriority rule
      expiresAt := readExpiresAt rule }

def emittedRules (appLock : Json Number) : Option (List BlobRule) :=
  collect 64 readBlobRule [] (ruleList appLock)

structure Header where
  enabled : Bool
  mode : List UInt8
  failMode : List UInt8
  policyVersion : List UInt8
  policyHash : List UInt8
  eventDedupeSec : Nat

def readEventDedupeSec (appLock : Json Number) : Nat :=
  match integerMember appLock "event_dedupe_sec" with
  | some parsed => if parsed > 0 then (min parsed 3600).toNat else 30
  | none => 30

def readHeader (appLock : Json Number) (defaultPolicyHash : List UInt8) : Option Header := do
  let enabled ← value readBool appLock "enabled" false
  let mode ← value readText appLock "mode" (ascii "blocklist")
  let failMode ← value readText appLock "fail_mode" (ascii "open")
  let policyVersion ← value readText appLock "policy_version" []
  let policyHash ← value readText appLock "policy_hash" defaultPolicyHash
  some {
    enabled := enabled
    mode := sanitizeScalar mode
    failMode := sanitizeScalar failMode
    policyVersion := sanitizeScalar policyVersion
    policyHash := sanitizeScalar policyHash
    eventDedupeSec := readEventDedupeSec appLock }

abbrev Entry :=
  List UInt8 × List UInt8

def Entry.line (e : Entry) : List UInt8 :=
  e.1 ++ ascii "=" ++ e.2

def textOf (es : List Entry) : List UInt8 :=
  es.flatMap fun e => e.line ++ ascii "\n"

def Header.entries (h : Header) : List Entry := [
  (ascii "enabled", if h.enabled then ascii "1" else ascii "0"),
  (ascii "mode", h.mode),
  (ascii "fail_mode", h.failMode),
  (ascii "policy_version", h.policyVersion),
  (ascii "policy_hash", h.policyHash),
  (ascii "event_dedupe_sec", decimal h.eventDedupeSec)
]

def ruleKey (i : Nat) (field : String) : List UInt8 :=
  ascii "rule." ++ decimal i ++ ascii "." ++ ascii field

def BlobRule.entries (i : Nat) (r : BlobRule) : List Entry := [
  (ruleKey i "rule_id", r.ruleId),
  (ruleKey i "match_type", r.matchType.text),
  (ruleKey i "value", r.value),
  (ruleKey i "priority", decimal r.priority)
] ++ r.expiresAt.toList.map fun t => (ruleKey i "expires_at", decimal t)

def ruleEntries (i : Nat) : List BlobRule → List Entry
  | [] => []
  | r :: rs => r.entries i ++ ruleEntries (i + 1) rs

def blobText (h : Header) (rules : List BlobRule) : List UInt8 :=
  textOf (h.entries ++ ruleEntries 0 rules)

def buildPolicyBlob (appLock : Json Number) (defaultPolicyHash : List UInt8) :
    Option (Except String (List UInt8)) :=
  match appLock with
  | .obj _ => do
    let h ← readHeader appLock defaultPolicyHash
    if h.mode ≠ ascii "blocklist" then some (.error "unsupported_mode")
    else if h.failMode ≠ ascii "open" then some (.error "unsupported_fail_mode")
    else do
      let rules ← emittedRules appLock
      let blob := blobText h rules
      if blob = [] then some (.error "empty_policy_blob")
      else if blob.length ≥ maxParams then some (.error "policy_blob_too_large")
      else some (.ok blob)
  | _ => some (.error "app_lock_not_object")

end Blob

end Windows.AppLock
