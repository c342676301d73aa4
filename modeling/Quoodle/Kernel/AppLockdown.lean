import Quoodle.Data.Search
import Quoodle.Kernel.Texts

-- The policy that locks applications down: how the driver parses it, and which processes it denies.
-- Strings are given by the characters before their terminators.
namespace Kernel.AppLockdown

def maxRules : Nat :=
  128

def maxRuleId : Nat :=
  64

def maxRuleValue : Nat :=
  260

def maxPolicyVersion : Nat :=
  64

def maxMode : Nat :=
  16

def maxPriority : Nat :=
  0xffffffff

inductive MatchType where
  | none
  | basename
  | fullPath
  deriving DecidableEq

structure Rule where
  used : Bool
  ruleId : List UInt8
  matchType : MatchType
  value : List UInt8
  priority : Nat
  hasExpiresAt : Bool
  expiresAtUnix : Nat
  deriving DecidableEq

structure Policy where
  configured : Bool
  enabled : Bool
  mode : List UInt8
  failMode : List UInt8
  policyVersion : List UInt8
  policyHash : List UInt8
  eventDedupeSec : Nat
  ruleCount : Nat
  rules : Fin maxRules → Rule

def criticalAllowlist : List (List UInt8) := [
  ascii "smss.exe",
  ascii "csrss.exe",
  ascii "wininit.exe",
  ascii "winlogon.exe",
  ascii "services.exe",
  ascii "lsass.exe",
  ascii "svchost.exe",
  ascii "dwm.exe",
  ascii "explorer.exe",
  ascii "agent.exe",
  ascii "quoodle-agent.exe",
  ascii "quoodle-agent-windows.exe"
]

section Strings

def copyAscii (dstLen : Nat) (src : List UInt8) : List UInt8 :=
  src.take (dstLen - 1)

def normalizeChar (c : UInt8) : UInt8 :=
  if 'A'.toUInt8 ≤ c ∧ c ≤ 'Z'.toUInt8 then c - 'A'.toUInt8 + 'a'.toUInt8
  else if c = '/'.toUInt8 then '\\'.toUInt8
  else c

def normalizeAsciiPath (value : List UInt8) : List UInt8 :=
  value.map normalizeChar

-- Lengths are measured up to this number of characters.
def maxScan : Nat :=
  maxRuleValue * 2

def endsWith (value suffix : List UInt8) : Bool :=
  let valueLen := min value.length maxScan
  let suffixLen := min suffix.length maxScan
  if suffixLen = 0 ∨ suffixLen > valueLen then false
  else value.drop (valueLen - suffixLen) = suffix

def isSeparator (c : UInt8) : Bool :=
  c = '\\'.toUInt8 || c = '/'.toUInt8

def afterSeparator (path : List UInt8) : List UInt8 :=
  path.rtakeWhile (!isSeparator ·)

def extractBasename (path : List UInt8) (outLen : Nat) : List UInt8 :=
  let scanned := path.take maxScan
  let lastSep := scanned.length - (afterSeparator scanned).length
  if lastSep ≥ scanned.length then copyAscii outLen path else copyAscii outLen (path.drop lastSep)

def toAscii (wc : UInt16) : UInt8 :=
  if wc ≤ 0x7f then normalizeChar wc.toUInt8 else '?'.toUInt8

def unicodeToAsciiPath (input : List UInt16) (outLen : Nat) : List UInt8 :=
  terminated ((input.take (outLen - 1)).map toAscii)

def isCriticalAllowlisted (imageName : List UInt8) : Bool :=
  imageName ∈ criticalAllowlist

end Strings

section Numbers

def digit (c : UInt8) : Nat :=
  c.toNat - '0'.toNat

def ofDigits (n : Nat) (text : List UInt8) : Nat :=
  text.foldl (fun n c => n * 10 + digit c) n

def parseU32From (tmp : Nat) : List UInt8 → Option Nat
  | [] => some tmp
  | c :: cs =>
    if isDigit c then
      let tmp := tmp * 10 + digit c
      if tmp > maxPriority then none else parseU32From tmp cs
    else none

def parseU32 (value : List UInt8) (fallback : Nat) : Nat :=
  if value = [] then fallback else (parseU32From 0 value).getD fallback

def parseU64From (out : Nat) : List UInt8 → Option Nat
  | [] => some out
  | c :: cs => if isDigit c then parseU64From ((out * 10 + digit c) % 2 ^ 64) cs else none

def parseU64 (value : List UInt8) (fallback : Nat) : Nat :=
  if value = [] then fallback else (parseU64From 0 value).getD fallback

end Numbers

section Parse

def Rule.unused : Rule :=
  ⟨false, [], .none, [], 0, false, 0⟩

def Policy.reset : Policy where
  configured := false
  enabled := false
  mode := ascii "blocklist"
  failMode := ascii "open"
  policyVersion := []
  policyHash := []
  eventDedupeSec := 30
  ruleCount := 0
  rules := fun _ => .unused

def parseIndex (idx : Fin maxRules) : List UInt8 → Option (Fin maxRules × List UInt8)
  | [] => some (idx, [])
  | c :: cs =>
    if isDigit c then
      if h : idx * 10 + digit c < maxRules then parseIndex ⟨_, h⟩ cs else none
    else some (idx, c :: cs)

def parseRuleKey (key : List UInt8) : Option (Fin maxRules × List UInt8) :=
  if ascii "rule." <+: key then
    let digits := key.drop 5
    if digits.head?.any isDigit then
      match parseIndex ⟨0, by decide⟩ digits with
      | some (idx, c :: d :: field) =>
        if c = '.'.toUInt8 then some (idx, copyAscii 32 (d :: field)) else none
      | _ => none
    else none
  else none

def Rule.setField (r : Rule) (field value : List UInt8) : Except String Rule :=
  let rule := { r with used := true }
  if field = ascii "rule_id" then .ok { rule with ruleId := copyAscii maxRuleId value }
  else if field = ascii "match_type" then
    let value := normalizeAsciiPath value
    if value = ascii "basename" then .ok { rule with matchType := .basename }
    else if value = ascii "full_path" then .ok { rule with matchType := .fullPath }
    else .error "invalid_match_type"
  else if field = ascii "value" then
    .ok { rule with value := copyAscii maxRuleValue (normalizeAsciiPath value) }
  else if field = ascii "priority" then .ok { rule with priority := parseU32 value 1000 }
  else if field = ascii "expires_at" then
    let parsed := parseU64 value 0
    .ok { rule with hasExpiresAt := decide (parsed > 0), expiresAtUnix := parsed }
  else .ok rule

def Policy.setMember (p : Policy) (key value : List UInt8) : Except String Policy :=
  if key = ascii "enabled" then
    let enabled := value.head? = some '1'.toUInt8 ∨ value = ascii "true"
    .ok { p with enabled := decide enabled, configured := true }
  else if key = ascii "mode" then
    .ok { p with mode := copyAscii maxMode (normalizeAsciiPath value) }
  else if key = ascii "fail_mode" then
    .ok { p with failMode := copyAscii maxMode (normalizeAsciiPath value) }
  else if key = ascii "policy_version" then
    .ok { p with policyVersion := copyAscii maxPolicyVersion value }
  else if key = ascii "policy_hash" then
    .ok { p with policyHash := copyAscii maxPolicyHash value }
  else if key = ascii "event_dedupe_sec" then
    .ok { p with eventDedupeSec := min (parseU32 value 30) 3600 }
  else
    match parseRuleKey key with
    | none => .ok p
    | some (i, field) =>
      ((p.rules i).setField field value).map fun rule =>
        { p with rules := Function.update p.rules i rule }

def isBreak (c : UInt8) : Bool :=
  c = '\n'.toUInt8 || c = '\r'.toUInt8

-- A break takes another one with it that follows immediately.
def splitLines (line : List UInt8) : List UInt8 → List (List UInt8)
  | [] => [line]
  | [c] => if isBreak c then [line] else [line ++ [c]]
  | c :: d :: cs =>
    if isBreak c then
      if isBreak d then line :: splitLines [] cs else line :: splitLines [] (d :: cs)
    else splitLines (line ++ [c]) (d :: cs)

-- Lines without a separator are skipped.
def Policy.applyLine (p : Policy) (line : List UInt8) : Except String Policy :=
  match line.dropWhile (· ≠ '='.toUInt8) with
  | [] => .ok p
  | _ :: value =>
    let key := normalizeAsciiPath (copyAscii 96 (line.takeWhile (· ≠ '='.toUInt8)))
    p.setMember key (copyAscii maxRuleValue value)

def Rule.finish (i : Fin maxRules) (r : Rule) : Rule where
  used := r.used
  ruleId :=
    if r.ruleId = [] then copyAscii maxRuleId (ascii "rule-" ++ decimal i) else r.ruleId
  matchType := r.matchType
  value :=
    if r.matchType = .basename then extractBasename r.value maxRuleValue else r.value
  priority := if r.priority = 0 then 1000 else r.priority
  hasExpiresAt := r.hasExpiresAt
  expiresAtUnix := r.expiresAtUnix

def Rule.isInvalid (r : Rule) : Bool :=
  r.used && (r.matchType = .none || r.value = [])

def Policy.finish (p : Policy) : Except String Policy :=
  if p.mode ≠ ascii "blocklist" then .error "invalid_mode"
  else if p.failMode ≠ ascii "open" then .error "invalid_fail_mode"
  else if (List.finRange maxRules).any fun i => (p.rules i).isInvalid then .error "invalid_rule"
  else
    .ok { p with
      rules := fun i => if (p.rules i).used then (p.rules i).finish i else p.rules i
      ruleCount := (List.finRange maxRules).countP fun i => (p.rules i).used
      eventDedupeSec := if p.eventDedupeSec = 0 then 30 else p.eventDedupeSec
      configured := true }

def parseText (text : List UInt8) : Except String Policy :=
  (splitLines [] text).foldlM Policy.applyLine .reset >>= Policy.finish

def copyLength (params : List UInt8) (paramsLen : Nat) : Nat :=
  if paramsLen = 0 then (terminated (params.take maxParams)).length else paramsLen

-- The text ends at the first terminator, whatever its length is said to be.
def parsePolicyBlob (params : List UInt8) (paramsLen : Nat) : Except String Policy :=
  if copyLength params paramsLen = 0 ∨ copyLength params paramsLen > maxParams then
    .error "payload_too_large"
  else parseText (terminated (params.take (copyLength params paramsLen)))

def replacePolicy (outOfMemory : Bool) (params : List UInt8) (paramsLen : Nat) :
    Except String Policy :=
  if outOfMemory then .error "out_of_memory" else parsePolicyBlob params paramsLen

end Parse

section Callback

def Rule.isExpired (r : Rule) (now : Nat) : Bool :=
  if !r.hasExpiresAt then false
  else if r.expiresAtUnix = 0 then false
  else now ≥ r.expiresAtUnix

def fullPathMatches (ruleValue imagePath : List UInt8) : Bool :=
  let native := ascii "\\??\\"
  ruleValue = imagePath ||
    native <+: imagePath && imagePath.drop 4 = ruleValue ||
    native <+: ruleValue && ruleValue.drop 4 = imagePath ||
    (ruleValue.drop 1).take 2 = ascii ":\\" && endsWith imagePath (ruleValue.drop 2)

abbrev Best :=
  Nat × Option (Fin maxRules)

def Rule.isSkipped (now : Nat) (isMatch : Rule → Bool) (r : Rule) : Bool :=
  !r.used || r.isExpired now || !isMatch r

def Policy.search (p : Policy) (now : Nat) (isMatch : Rule → Bool) (best : Best) : Best :=
  ((List.finRange maxRules).filter (·.val < p.ruleCount)).foldl
    (Search.improve (fun i => (p.rules i).isSkipped now isMatch) fun i => (p.rules i).priority) best

def Rule.matchesPath (imagePath : List UInt8) (r : Rule) : Bool :=
  r.matchType = .fullPath && fullPathMatches r.value imagePath

def Rule.matchesName (imageName : List UInt8) (r : Rule) : Bool :=
  r.matchType = .basename && r.value = imageName

-- The rule that a process is denied for. Names are only looked at if no path matches.
def Policy.matchedRule (p : Policy) (now : Nat) (image : List UInt16) : Option (Fin maxRules) :=
  let imagePath := unicodeToAsciiPath image maxRuleValue
  let imageName := extractBasename imagePath 128
  if !p.configured || !p.enabled then none
  else if isCriticalAllowlisted imageName then none
  else
    let byPath := p.search now (Rule.matchesPath imagePath) (maxPriority, none)
    if byPath.2.isNone then (p.search now (Rule.matchesName imageName) byPath).2 else byPath.2

-- Models `qapp_process_create_notify`, which sets the status of a process that has an image path.
def Policy.denies (p : Policy) (now : Nat) (image : List UInt16) : Bool :=
  (p.matchedRule now image).isSome

end Callback

section Search

-- A rule that is in force at some time.
def Rule.InForce (now : Nat) (r : Rule) : Prop :=
  r.used ∧ r.isExpired now = false

-- The loops of the callback get to the rule, and take it if nothing better was found.
def Policy.Reached (p : Policy) (i : Fin maxRules) : Prop :=
  i < p.ruleCount ∧ (p.rules i).priority < maxPriority

variable {p : Policy} {now : Nat} {isMatch : Rule → Bool}

theorem Rule.isSkipped_eq_false_iff {r : Rule} :
    r.isSkipped now isMatch = false ↔ r.InForce now ∧ isMatch r := by
  simp [isSkipped, InForce, and_assoc]

theorem isSome_search_iff {m : Nat} :
    (p.search now isMatch (m, none)).2.isSome ↔
      ∃ i : Fin maxRules, (p.rules i).InForce now ∧ isMatch (p.rules i) ∧ i < p.ruleCount ∧
        (p.rules i).priority < m := by
  rw [Policy.search, Search.isSome_foldl_improve_iff]
  simp only [Option.isSome_none, Bool.false_eq_true, false_or, Rule.isSkipped_eq_false_iff,
    List.mem_filter, List.mem_finRange, true_and, decide_eq_true_eq]
  exact exists_congr fun i => by tauto

theorem inForce_of_search_eq_some {m : Nat} {i : Fin maxRules}
    (h : (p.search now isMatch (m, none)).2 = some i) :
    (p.rules i).InForce now ∧ isMatch (p.rules i) :=
  (Search.of_foldl_improve_eq_some h).resolve_left (by simp) |>.right
    |> Rule.isSkipped_eq_false_iff.mp

end Search

section Paths

def normalizedPath (image : List UInt16) : List UInt8 :=
  terminated (image.map toAscii)

-- The whole path if nothing follows its last separator.
def basename (path : List UInt8) : List UInt8 :=
  if afterSeparator path = [] then path else afterSeparator path

-- The path and its last component fit into the buffers of the callback.
structure Fits (image : List UInt16) : Prop where
  path : (normalizedPath image).length < maxRuleValue
  name : (basename (normalizedPath image)).length < 128

theorem terminated_take_comm (n : Nat) (cs : List UInt8) :
    terminated (cs.take n) = (terminated cs).take n := by
  induction cs generalizing n
  case nil => simp [terminated]
  case cons c cs hi =>
    cases n
    case zero => simp [terminated]
    case succ n =>
      simp only [terminated, List.take_succ_cons, List.takeWhile_cons] at hi ⊢
      split
      · rw [hi, List.take_succ_cons]
      · rw [List.take_nil]

theorem unicodeToAsciiPath_eq (image : List UInt16) (outLen : Nat) :
    unicodeToAsciiPath image outLen = copyAscii outLen (normalizedPath image) := by
  rw [unicodeToAsciiPath, List.map_take, terminated_take_comm]
  rfl

theorem copyAscii_eq_self {n : Nat} {src : List UInt8} (h : src.length < n) :
    copyAscii n src = src :=
  List.take_of_length_le (by omega)

theorem extractBasename_eq {path : List UInt8} (h : path.length ≤ maxScan) (outLen : Nat) :
    extractBasename path outLen = copyAscii outLen (basename path) := by
  have hs : (afterSeparator path) <:+ path := List.rtakeWhile_suffix ..
  have hl := hs.length_le
  simp only [extractBasename, List.take_of_length_le h, basename]
  by_cases ha : afterSeparator path = []
  case pos => simp [ha]
  have hp := List.length_pos_iff.mpr ha
  rw [if_neg ha, if_neg (by omega), ← List.suffix_iff_eq_drop.mp hs]

end Paths

section Denial

variable {p : Policy} {now : Nat} {image : List UInt16}
variable {params : List UInt8} {α β ε : Type} {paramsLen : Nat}

def Policy.Applies (p : Policy) (now : Nat) (image : List UInt16) (i : Fin maxRules) : Prop :=
  (p.rules i).InForce now ∧
    ((p.rules i).matchesPath (normalizedPath image) ∨
      (p.rules i).matchesName (basename (normalizedPath image)))

def Policy.ShouldDeny (p : Policy) (now : Nat) (image : List UInt16) : Prop :=
  p.enabled ∧ basename (normalizedPath image) ∉ criticalAllowlist ∧ ∃ i, p.Applies now image i

theorem Fits.imagePath (h : Fits image) :
    unicodeToAsciiPath image maxRuleValue = normalizedPath image := by
  rw [unicodeToAsciiPath_eq, copyAscii_eq_self h.path]

theorem Fits.imageName (h : Fits image) :
    extractBasename (normalizedPath image) 128 = basename (normalizedPath image) := by
  rw [extractBasename_eq (h.path.le.trans (by decide)), copyAscii_eq_self h.name]

def imagePath (image : List UInt16) : List UInt8 :=
  unicodeToAsciiPath image maxRuleValue

def imageName (image : List UInt16) : List UInt8 :=
  extractBasename (imagePath image) 128

def Rule.Matches (image : List UInt16) (r : Rule) : Prop :=
  r.matchesPath (imagePath image) ∨ r.matchesName (imageName image)

theorem Policy.matchedRule_eq (p : Policy) (now : Nat) (image : List UInt16) :
    p.matchedRule now image =
      if !p.configured || !p.enabled then none
      else if isCriticalAllowlisted (imageName image) then none
      else
        let byPath := p.search now (Rule.matchesPath (imagePath image)) (maxPriority, none)
        if byPath.2.isNone then (p.search now (Rule.matchesName (imageName image)) byPath).2
        else byPath.2 :=
  rfl

-- A search by path that finds nothing leaves the one by name where it would start.
theorem search_eq_of_isNone
    (h : (p.search now (Rule.matchesPath (imagePath image)) (maxPriority, none)).2.isNone) :
    p.search now (Rule.matchesPath (imagePath image)) (maxPriority, none) = (maxPriority, none) :=
  Search.foldl_improve_eq_self (Option.isNone_iff_eq_none.mp h)

theorem inForce_of_matchedRule {i : Fin maxRules} (h : p.matchedRule now image = some i) :
    (p.rules i).InForce now ∧ (p.rules i).Matches image := by
  rw [Policy.matchedRule_eq] at h
  split at h
  case isTrue => cases h
  split at h
  case isTrue => cases h
  simp only [] at h
  split at h
  case isFalse =>
    have hs := inForce_of_search_eq_some h
    exact ⟨hs.left, .inl hs.right⟩
  case isTrue hn =>
    rw [search_eq_of_isNone hn] at h
    have hs := inForce_of_search_eq_some h
    exact ⟨hs.left, .inr hs.right⟩

theorem denies_iff_exists_matches (hc : p.configured) :
    p.denies now image ↔
      p.enabled ∧ imageName image ∉ criticalAllowlist ∧
        ∃ i, (p.rules i).InForce now ∧ (p.rules i).Matches image ∧ p.Reached i := by
  simp only [Policy.denies, Policy.matchedRule_eq, hc, Bool.not_true, Bool.false_or,
    isCriticalAllowlisted, decide_eq_true_eq]
  by_cases he : p.enabled
  case neg => simp [he]
  by_cases ha : imageName image ∈ criticalAllowlist
  case pos => simp [he, ha]
  have hn := @isSome_search_iff p now (Rule.matchesName (imageName image)) maxPriority
  have hp := @isSome_search_iff p now (Rule.matchesPath (imagePath image)) maxPriority
  simp only [he, ha, Bool.not_true, Bool.false_eq_true, if_false, true_and, not_false_eq_true]
  split
  case isTrue ht =>
    have hb := search_eq_of_isNone ht
    rw [hb, hn]
    constructor
    · exact fun ⟨i, hf, hm, hr⟩ => ⟨i, hf, .inr hm, hr⟩
    · rintro ⟨i, hf, hm | hm, hr⟩
      · have hs := hp.mpr ⟨i, hf, hm, hr⟩
        rw [hb] at hs
        cases hs
      · exact ⟨i, hf, hm, hr⟩
  case isFalse ht =>
    have hs := Option.isSome_iff_ne_none.mpr fun h => ht (Option.isNone_iff_eq_none.mpr h)
    obtain ⟨i, hf, hm, hr⟩ := hp.mp hs
    simp only [hs, true_iff]
    exact ⟨i, hf, .inl hm, hr⟩

theorem denies_iff (h : Fits image) (hc : p.configured) :
    p.denies now image ↔
      p.enabled ∧ basename (normalizedPath image) ∉ criticalAllowlist ∧
        ∃ i, p.Applies now image i ∧ p.Reached i := by
  simp only [denies_iff_exists_matches hc, Rule.Matches, imageName, imagePath, h.imagePath,
    h.imageName, Policy.Applies, and_assoc]

theorem exists_of_bind_eq_ok {x : Except ε α} {f : α → Except ε β} {b : β}
    (h : (x >>= f) = .ok b) : ∃ a, x = .ok a ∧ f a = .ok b := by
  cases x
  case error => cases h
  case ok a => exact ⟨a, rfl, h⟩

theorem exists_of_map_eq_ok {x : Except ε α} {f : α → β} {b : β}
    (h : x.map f = .ok b) : ∃ a, x = .ok a ∧ f a = b := by
  cases x
  case error => cases h
  case ok a => exact ⟨a, rfl, Except.ok.inj h⟩

theorem Policy.of_finish {q : Policy} (h : p.finish = .ok q) :
    (q.enabled = p.enabled ∧
      q.ruleCount = (List.finRange maxRules).countP fun i => (p.rules i).used) ∧
      ∀ i, q.rules i = if (p.rules i).used then (p.rules i).finish i else p.rules i := by
  unfold Policy.finish at h
  split_ifs at h
  all_goals
    cases h
    exact ⟨⟨rfl, rfl⟩, fun _ => rfl⟩

theorem finish_of_parse
    (h : parsePolicyBlob params paramsLen = .ok p) : ∃ q : Policy, q.finish = .ok p := by
  unfold parsePolicyBlob at h
  split at h
  case isTrue => cases h
  obtain ⟨q, _, hq⟩ := exists_of_bind_eq_ok h
  exact ⟨q, hq⟩

theorem configured_of_parse (h : parsePolicyBlob params paramsLen = .ok p) : p.configured := by
  obtain ⟨q, hq⟩ := finish_of_parse h
  unfold Policy.finish at hq
  split at hq
  case isTrue => cases hq
  split at hq
  case isTrue => cases hq
  split at hq
  case isTrue => cases hq
  cases hq
  rfl

theorem denies_iff_shouldDeny_of_disabled (he : p.enabled = false) :
    p.denies now image ↔ p.ShouldDeny now image := by
  simp [Policy.denies, Policy.matchedRule_eq, Policy.ShouldDeny, he]

-- The callback decides as the policy says if one of the rules that apply is reached.
theorem denies_iff_shouldDeny_iff {params : List UInt8} {paramsLen : Nat}
    (hp : parsePolicyBlob params paramsLen = .ok p) (hf : p.enabled → Fits image) :
    (p.denies now image ↔ p.ShouldDeny now image) ↔
      (p.ShouldDeny now image → ∃ i, p.Applies now image i ∧ p.Reached i) := by
  cases he : p.enabled
  case false =>
    refine iff_of_true (denies_iff_shouldDeny_of_disabled he) fun hs => ?_
    cases he.symm.trans hs.left
  case true =>
    rw [denies_iff (hf he) (configured_of_parse hp)]
    constructor
    · intro h hs
      exact (h.mpr hs).right.right
    · intro h
      refine ⟨fun ⟨he, ha, i, hi, _⟩ => ⟨he, ha, i, hi⟩, fun hs => ⟨hs.left, hs.right.left, h hs⟩⟩

end Denial

section Lines

variable {p q : Policy} {i : Fin maxRules} {key value : List UInt8}

-- What a line says about the rule with the index.
def lineField (i : Fin maxRules) (line : List UInt8) : Option (List UInt8 × List UInt8) :=
  match line.dropWhile (· ≠ '='.toUInt8) with
  | [] => none
  | _ :: value =>
    let key := normalizeAsciiPath (copyAscii 96 (line.takeWhile (· ≠ '='.toUInt8)))
    (parseRuleKey key).bind fun k =>
      if k.1 = i then some (k.2, copyAscii maxRuleValue value) else none

def Rule.setFields (r : Rule) (fields : List (List UInt8 × List UInt8)) : Except String Rule :=
  fields.foldlM (fun r f => r.setField f.1 f.2) r

theorem parseRuleKey_eq_none (h : ¬ascii "rule." <+: key) : parseRuleKey key = none :=
  if_neg h

theorem setFields_of_setMember (h : p.setMember key value = .ok q) :
    (p.rules i).setFields ((parseRuleKey key).bind fun k =>
      if k.1 = i then some (k.2, value) else none).toList = .ok (q.rules i) := by
  simp only [Policy.setMember] at h
  split_ifs at h with h₁ h₂ h₃ h₄ h₅ h₆
  case neg =>
    split at h
    case h_1 hk =>
      cases h
      rw [hk]
      rfl
    case h_2 j field hk =>
      obtain ⟨r, hr, rfl⟩ := exists_of_map_eq_ok h
      rw [hk, Option.bind_some]
      by_cases hj : j = i
      case pos =>
        subst hj
        simp [Rule.setFields, hr]
      case neg =>
        simp [Rule.setFields, hj, Function.update_of_ne (Ne.symm hj)]
        rfl
  all_goals
    cases h
    rw [parseRuleKey_eq_none (by subst key; decide)]
    rfl

theorem setFields_of_applyLine {line : List UInt8} (h : p.applyLine line = .ok q) :
    (p.rules i).setFields (lineField i line).toList = .ok (q.rules i) := by
  unfold Policy.applyLine at h
  unfold lineField
  split at h
  case h_1 =>
    cases h
    rfl
  case h_2 => exact setFields_of_setMember h

theorem setFields_of_foldlM {lines : List (List UInt8)}
    (h : lines.foldlM Policy.applyLine p = .ok q) :
    (p.rules i).setFields (lines.filterMap (lineField i)) = .ok (q.rules i) := by
  induction lines generalizing p
  case nil =>
    cases h
    rfl
  case cons line lines hi =>
    obtain ⟨p', hp, h⟩ := exists_of_bind_eq_ok h
    have hl : (line :: lines).filterMap (lineField i) =
        (lineField i line).toList ++ lines.filterMap (lineField i) := by
      cases hf : lineField i line <;> simp [hf]
    rw [hl, Rule.setFields, List.foldlM_append]
    exact (congrArg (· >>= _) (setFields_of_applyLine hp)).trans (hi h)

-- The rule with an index is what the lines with the index say, wherever they are.
theorem rules_of_parse {params : List UInt8} {paramsLen : Nat}
    (h : parsePolicyBlob params paramsLen = .ok p) (i : Fin maxRules) :
    ∃ r, Rule.unused.setFields ((splitLines [] (terminated
        (params.take (copyLength params paramsLen)))).filterMap (lineField i)) = .ok r ∧
      p.rules i = if r.used then r.finish i else r := by
  unfold parsePolicyBlob at h
  split at h
  case isTrue => cases h
  obtain ⟨q, hq, hp⟩ := exists_of_bind_eq_ok h
  exact ⟨q.rules i, setFields_of_foldlM hq, (Policy.of_finish hp).right i⟩

end Lines

section Examples

instance (r : Rule) (now : Nat) : Decidable (r.InForce now) :=
  inferInstanceAs (Decidable (_ ∧ _))

instance (p : Policy) (now : Nat) (image : List UInt16) (i : Fin maxRules) :
    Decidable (p.Applies now image i) :=
  inferInstanceAs (Decidable (_ ∧ (_ ∨ _)))

instance (p : Policy) (now : Nat) (image : List UInt16) : Decidable (p.ShouldDeny now image) :=
  inferInstanceAs (Decidable (_ ∧ _ ∧ ∃ _, _))

def wide (s : String) : List UInt16 :=
  s.toList.map fun c => c.val.toUInt16

def calcBlob : List UInt8 :=
  ascii "enabled=1\nrule.0.match_type=basename\nrule.0.value=calc.exe\n"

-- The only rule has the index 1, so that the loops end before it.
def gapBlob : List UInt8 :=
  ascii "enabled=1\nrule.1.match_type=basename\nrule.1.value=calc.exe\n"

def lowestBlob : List UInt8 :=
  calcBlob ++ ascii "rule.0.priority=4294967295\n"

def calcImage : List UInt16 :=
  wide "\\??\\C:\\calc.exe"

def deepImage : List UInt16 :=
  wide "\\??\\C:\\" ++ List.replicate 250 0x61 ++ wide "\\calc.exe"

def decisions (blob : List UInt8) (image : List UInt16) : Except String (Bool × Bool) :=
  (parsePolicyBlob blob blob.length).map fun p =>
    (p.denies 1700000000 image, decide (p.ShouldDeny 1700000000 image))

instance (p : Policy) (i : Fin maxRules) : Decidable (p.Reached i) :=
  inferInstanceAs (Decidable (_ ∧ _))

theorem denies_iff_shouldDeny_iff_calc :
    ∃ p, parsePolicyBlob calcBlob calcBlob.length = .ok p ∧
      (p.denies 1700000000 calcImage ↔ p.ShouldDeny 1700000000 calcImage) := by
  have h : (parsePolicyBlob calcBlob calcBlob.length).map (fun p => decide
      (∃ i, p.Applies 1700000000 calcImage i ∧ p.Reached i)) = .ok true := by
    decide +kernel
  obtain ⟨p, hp, hr⟩ := exists_of_map_eq_ok h
  have hf : Fits calcImage := ⟨by decide, by decide⟩
  exact ⟨p, hp, (denies_iff_shouldDeny_iff hp fun _ => hf).mpr fun _ => of_decide_eq_true hr⟩

theorem not_denied :
    decisions gapBlob calcImage = .ok (false, true) ∧
      decisions lowestBlob calcImage = .ok (false, true) ∧
      decisions calcBlob deepImage = .ok (false, true) := by
  decide +kernel

example : decisions calcBlob calcImage = .ok (true, true) := by
  decide +kernel

end Examples

end Kernel.AppLockdown
