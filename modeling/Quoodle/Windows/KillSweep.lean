import Quoodle.Windows.CarriedPolicy

-- The processes that the agent kills for an app-lock bundle, and those that the driver denies.
namespace Windows.AppLock

open Json.Nlohmann Kernel Kernel.AppLockdown

section Sweep

def utf16EncodeChar (c : Char) : List UInt16 :=
  if c.toNat < 0x10000 then [c.toNat.toUInt16]
  else
    let n := c.toNat - 0x10000
    [(0xd800 + n / 0x400).toUInt16, (0xdc00 + n % 0x400).toUInt16]

structure Process where
  pid : Nat
  path : List Char
  -- Whether the agent may ask for the path.
  isAccessible : Bool

namespace Process

def name (p : Process) : List Char :=
  p.path.rtakeWhile fun c => c ≠ '\\' && c ≠ '/'

def image (p : Process) : List UInt16 :=
  p.path.flatMap utf16EncodeChar

def queryPath (p : Process) : List UInt8 :=
  if p.isAccessible ∧ p.image.length < 260 then utf8 p.path else []

end Process

def RuntimeRule.matchesProcess (exeName path pathBasename : List UInt8) (rule : RuntimeRule) : Bool :=
  match rule.matchType with
  | .basename =>
    if rule.value = exeName ∨ pathBasename ≠ [] ∧ rule.value = pathBasename then true
    else
      let ruleWithoutExe := basenameWithoutExeSuffix rule.value
      if ruleWithoutExe = [] then false
      else ruleWithoutExe = basenameWithoutExeSuffix exeName ||
        pathBasename ≠ [] && ruleWithoutExe = basenameWithoutExeSuffix pathBasename
  | .fullPath => path ≠ [] && rule.value = path

def Process.isSelected (p : Process) (self : Nat) (rules : List RuntimeRule) : Bool :=
  let exeName := normalizeBasename (utf8 p.name) true
  let path := normalizeWindowsPath p.queryPath
  let pathBasename := normalizeBasename path true
  !(p.pid < 2 || p.pid = self) && rules.any (·.matchesProcess exeName path pathBasename)

def killTargets (appLock : Json Number) (self : Nat) (snapshot : List Process) :
    Option (List Process) :=
  (extractRuntimeBlockRules appLock).map fun rules => snapshot.filter (·.isSelected self rules)

end Sweep

section Matches

variable {p : Process} {r : RuntimeRule} {self : Nat}

def Process.exeName (p : Process) : List UInt8 :=
  normalizeBasename (utf8 p.name) true

def Process.pathBasename (p : Process) : List UInt8 :=
  normalizeBasename (normalizeWindowsPath p.queryPath) true

def RuntimeRule.Names (p : Process) (r : RuntimeRule) : Prop :=
  match r.matchType with
  | .basename =>
    basenameWithoutExeSuffix r.value = basenameWithoutExeSuffix p.exeName ∨
      basenameWithoutExeSuffix r.value = basenameWithoutExeSuffix p.pathBasename
  | .fullPath => r.value = normalizeWindowsPath p.queryPath

theorem basenameWithoutExeSuffix_ne_nil {value : List UInt8} (h : value ≠ []) :
    basenameWithoutExeSuffix value ≠ [] := by
  unfold basenameWithoutExeSuffix
  split
  case isFalse => exact h
  case isTrue hl => exact List.ne_nil_of_length_pos (by rw [List.length_take]; omega)

theorem matchesProcess_iff (hr : r.Normal) :
    r.matchesProcess p.exeName (normalizeWindowsPath p.queryPath) p.pathBasename ↔ r.Names p := by
  cases hm : r.matchType
  case fullPath =>
    simp only [RuntimeRule.matchesProcess, RuntimeRule.Names, hm, Bool.and_eq_true,
      decide_eq_true_eq, and_iff_right_iff_imp]
    exact fun he => he ▸ hr.nonempty
  case basename =>
    have hw := basenameWithoutExeSuffix_ne_nil hr.nonempty
    have hp (h : basenameWithoutExeSuffix r.value = basenameWithoutExeSuffix p.pathBasename) :
        p.pathBasename ≠ [] := fun hn => hw (h.trans (by rw [hn]; rfl))
    simp only [RuntimeRule.matchesProcess, RuntimeRule.Names, hm]
    split
    case isTrue he =>
      simp only [true_iff]
      exact he.imp (congrArg _) fun he => congrArg _ he.right
    simp only [Bool.or_eq_true, Bool.and_eq_true, decide_eq_true_eq]
    exact or_congr_right (and_iff_right_of_imp hp)

theorem isSelected_iff {rules : List RuntimeRule} (hr : ∀ r ∈ rules, r.Normal) :
    p.isSelected self rules ↔ 2 ≤ p.pid ∧ p.pid ≠ self ∧ ∃ r ∈ rules, r.Names p := by
  have hs : (!(p.pid < 2 || p.pid = self)) = true ↔ 2 ≤ p.pid ∧ p.pid ≠ self := by
    simp [Nat.succ_le_iff]
  simp only [Process.isSelected, Bool.and_eq_true, List.any_eq_true, hs, and_assoc]
  exact and_congr_right' <| and_congr_right' <| exists_congr fun r => and_congr_right fun hm =>
    matchesProcess_iff (hr r hm)

end Matches

section Containment

variable {appLock rule : Json Number} {defaultPolicyHash blob : List UInt8} {rules : List BlobRule}
variable {before after : List (Json Number)} {policy : Policy} {image : List UInt16}
variable {p : Process} {self now : Nat} {h : Header} {i : Fin maxRules} {rs : List BlobRule}

def HasRule (appLock : Json Number) (P : RuntimeRule → Prop) : Prop :=
  ∃ r ∈ taken (ruleList appLock), P r

-- The sweep takes its rules from the same members as the blob.
theorem extractRuntimeBlockRules_eq (hd : Built appLock defaultPolicyHash h rules) :
    extractRuntimeBlockRules appLock =
      some (if h.enabled then rules.map BlobRule.toRuntimeRule else []) := by
  have he := (exists_of_readHeader hd.header).left
  unfold extractRuntimeBlockRules
  split
  case h_2 hn =>
    unfold value at he
    split at he
    case h_1 => exact absurd rfl (hn _)
    case h_2 => cases he
  case h_1 =>
    simp only [he, Option.bind_eq_bind, Option.bind_some]
    cases h.enabled
    case false => rfl
    case true => exact collect_toRuntimeRule hd.emitted hd.length_lt (by decide)

theorem getElem?_reaching_eq_some_iff {c : BlobRule} {i : Nat} :
    (reaching rules)[i]? = some c ↔
      (∀ r ∈ rules.take i, 0 ∉ r.value) ∧ ∃ b, rules[i]? = some b ∧ b.held = c := by
  induction rules generalizing i
  case nil => simp [reaching]
  case cons r rules hi =>
    cases i
    case zero => simp [reaching]
    case succ i =>
      by_cases hr : 0 ∈ r.value
      case pos => simp [reaching, hr]
      case neg => simp [reaching, hr, hi]

-- The text of the policy gets as far as the rule that follows these.
structure Visible (appLock : Json Number) (defaultPolicyHash : List UInt8)
    (before : List (Json Number)) : Prop where
  policyVersion : ∀ text, value readText appLock "policy_version" [] = some text → 0 ∉ text
  policyHash : ∀ text, value readText appLock "policy_hash" defaultPolicyHash = some text → 0 ∉ text
  rules : ∀ r ∈ taken before, 0 ∉ r.value

def RuntimeRule.held (r : RuntimeRule) : RuntimeRule :=
  { r with value := copyAscii maxRuleValue (terminated r.value) }

def RuntimeRule.CoversImage (r : RuntimeRule) (image : List UInt16) : Prop :=
  match r.matchType with
  | .basename => r.value = imageName image
  | .fullPath => fullPathMatches r.value (imagePath image)

-- The instant is written after the value, and is not seen if the value ends the text.
def NotExpired (now : Nat) (rule : Json Number) (r : RuntimeRule) : Prop :=
  0 ∉ r.value → ∀ t, readExpiresAt rule = some t → now < t

-- The driver applies the rule to the image.
structure Applicable (appLock : Json Number) (defaultPolicyHash : List UInt8) (now : Nat)
    (image : List UInt16) (before : List (Json Number)) (rule : Json Number) : Prop where
  visible : Visible appLock defaultPolicyHash before
  covers : ∃ r, readRuntimeRule rule = some (some r) ∧ r.held.CoversImage image ∧
    NotExpired now rule r

theorem matches_toKernel_iff {b : BlobRule} :
    b.toKernel.Matches image ↔ b.toRuntimeRule.CoversImage image := by
  cases hm : b.matchType
  case basename | fullPath =>
    simp [BlobRule.toKernel, Rule.Matches, Rule.matchesPath, Rule.matchesName,
      RuntimeRule.CoversImage, MatchType.toKernel, hm]

theorem held_inForce_iff {b : BlobRule} (hb : b.Normal) :
    b.held.toKernel.InForce now ↔ 0 ∉ b.value → ∀ t, b.expiresAt = some t → now < t := by
  by_cases hz : 0 ∈ b.value
  case pos => simp [BlobRule.toKernel, BlobRule.held, Rule.InForce, Rule.isExpired, hz]
  cases he : b.expiresAt
  case none => simp [BlobRule.toKernel, BlobRule.held, Rule.InForce, Rule.isExpired, hz, he]
  case some t =>
    have ht := (hb.expiresAt t he).left.ne'
    simp [BlobRule.toKernel, BlobRule.held, Rule.InForce, Rule.isExpired, hz, he, ht]

theorem visible_iff (hh : readHeader appLock defaultPolicyHash = some h)
    (hb : rs.map BlobRule.toRuntimeRule = taken before) : Visible appLock defaultPolicyHash before ↔
      ¬(0 ∈ h.policyVersion ∨ 0 ∈ h.policyHash) ∧ ∀ r ∈ rs, 0 ∉ r.value := by
  obtain ⟨_, ⟨version, hv, hv'⟩, ⟨hash, hs, hs'⟩, _⟩ := exists_of_readHeader hh
  have hr : (∀ r ∈ taken before, 0 ∉ r.value) ↔ ∀ r ∈ rs, 0 ∉ r.value := by
    rw [← hb, List.forall_mem_map]
  rw [hv', hs', zero_mem_sanitizeScalar_iff, zero_mem_sanitizeScalar_iff, not_or, ← hr]
  constructor
  · exact fun hx => ⟨⟨hx.policyVersion _ hv, hx.policyHash _ hs⟩, hx.rules⟩
  · rintro ⟨⟨h₁, h₂⟩, h₃⟩
    exact ⟨fun _ ht => Option.some_inj.mp (hv.symm.trans ht) ▸ h₁,
      fun _ ht => Option.some_inj.mp (hs.symm.trans ht) ▸ h₂, h₃⟩

theorem exists_seen_of_used {enabled : Bool} (hc : Carries policy enabled rs)
    (hu : (policy.rules i).used) : ∃ b, rs[i.val]? = some b ∧ policy.rules i = b.toKernel := by
  have hi := hc.rules i
  cases hg : rs[i.val]? <;> rw [hg] at hi
  case none =>
    rw [hi] at hu
    cases hu
  case some b => exact ⟨b, rfl, hi⟩

-- The entry with the number of the rule is the one that was made of it.
theorem applicable_iff (hd : Built appLock defaultPolicyHash h rules)
    (hc : Carries policy h.enabled (seen h rules))
    (hs : ruleList appLock = before ++ rule :: after) (ht : IsTaken rule)
    (hi : i.val = (taken before).length) :
    (policy.rules i).InForce now ∧ (policy.rules i).Matches image ↔
      Applicable appLock defaultPolicyHash now image before rule := by
  obtain ⟨b, hb, hb', hm⟩ := exists_getElem?_emitted hd.emitted hd.length_lt hs ht
  obtain ⟨hx, _, _, _, _, he⟩ := exists_of_readBlobRule hb'
  have hv := visible_iff hd.header hm
  rw [← hi] at hb hv
  have hk : policy.rules i = ((seen h rules)[i.val]?).elim .unused BlobRule.toKernel := hc.rules i
  by_cases hvis : Visible appLock defaultPolicyHash before
  case neg =>
    have hn : (seen h rules)[i.val]? = none := by
      refine Option.eq_none_iff_forall_ne_some.mpr fun c hc' => hvis (hv.mpr ?_)
      unfold seen at hc'
      split at hc'
      case isTrue => simp at hc'
      case isFalse hz => exact ⟨hz, (getElem?_reaching_eq_some_iff.mp hc').left⟩
    rw [hk, hn]
    exact iff_of_false (fun hf => absurd hf.left.left (by decide)) fun ha => hvis ha.visible
  case pos =>
    obtain ⟨hz, hr'⟩ := hv.mp hvis
    have hg : (seen h rules)[i.val]? = some b.held := by
      rw [seen, if_neg hz]
      exact getElem?_reaching_eq_some_iff.mpr ⟨hr', b, hb, rfl⟩
    rw [hk, hg, Option.elim_some, held_inForce_iff (normal_of_readBlobRule hb'), matches_toKernel_iff,
      he, and_comm]
    constructor
    · exact fun hp => ⟨hvis, b.toRuntimeRule, hx, hp⟩
    · rintro ⟨_, r, hr, hp⟩
      cases hx.symm.trans hr
      exact hp

theorem reached_of_used (hd : Built appLock defaultPolicyHash h rules)
    (hc : Carries policy h.enabled (seen h rules)) (hu : (policy.rules i).used) :
    policy.Reached i := by
  obtain ⟨c, hg, hk⟩ := exists_seen_of_used hc hu
  refine ⟨?_, ?_⟩
  · rw [hc.ruleCount]
    exact (List.getElem?_eq_some_iff.mp hg).choose
  · rw [hk]
    unfold seen at hg
    split at hg
    case isTrue => simp at hg
    obtain ⟨_, b, hb, rfl⟩ := getElem?_reaching_eq_some_iff.mp hg
    have hp := (hd.normal b (List.mem_of_getElem? hb)).priority.right
    simp only [BlobRule.toKernel, BlobRule.held, maxPriority]
    split <;> omega

-- What a policy that was built and parsed denies.
theorem denies_iff_exists_applicable (hb : buildPolicyBlob appLock defaultPolicyHash = some (.ok blob))
    (hp : parsePolicyBlob blob blob.length = .ok policy) :
    policy.denies now image ↔
      value readBool appLock "enabled" false = some true ∧ imageName image ∉ criticalAllowlist ∧
        ∃ before rule after, ruleList appLock = before ++ rule :: after ∧
          Applicable appLock defaultPolicyHash now image before rule := by
  obtain ⟨h, rules, hd, rfl⟩ := buildPolicyBlob_eq_ok_iff.mp hb
  have hc := carries_seen hd hp
  have he : policy.enabled ↔ value readBool appLock "enabled" false = some true := by
    rw [hc.enabled, (exists_of_readHeader hd.header).left, Option.some_inj]
  rw [denies_iff_exists_matches (configured_of_parse hp), he]
  refine and_congr_right' <| and_congr_right' ?_
  constructor
  · rintro ⟨i, hi, hm, _⟩
    obtain ⟨c, hg, _⟩ := exists_seen_of_used hc hi.left
    unfold seen at hg
    split at hg
    case isTrue => simp at hg
    obtain ⟨_, b, hb, _⟩ := getElem?_reaching_eq_some_iff.mp hg
    obtain ⟨before, rule, after, hs, hi', he⟩ := exists_of_getElem?_emitted hd.emitted hd.length_lt hb
    have ht : IsTaken rule := ⟨_, (exists_of_readBlobRule he).left⟩
    exact ⟨before, rule, after, hs, (applicable_iff hd hc hs ht hi'.symm).mp ⟨hi, hm⟩⟩
  · rintro ⟨before, rule, after, hs, ha⟩
    obtain ⟨r, ht, _⟩ := ha.covers
    have ht : IsTaken rule := ⟨r, ht⟩
    let i : Fin maxRules := ⟨(taken before).length, length_taken_lt hd.emitted hd.length_lt hs ht⟩
    have hf := (applicable_iff (i := i) hd hc hs ht rfl).mpr ha
    exact ⟨i, hf.left, hf.right, reached_of_used hd hc hf.left.left⟩

-- The process is one of those that the sweep looks at, and a rule is about it.
def Exposed (appLock : Json Number) (self : Nat) (p : Process) : Prop :=
  value readBool appLock "enabled" false = some true ∧ 2 ≤ p.pid ∧ p.pid ≠ self ∧
    HasRule appLock (·.Names p)

def Deniable (appLock : Json Number) (defaultPolicyHash : List UInt8) (now : Nat) (p : Process) :
    Prop :=
  imageName p.image ∉ criticalAllowlist ∧
    ∃ before rule after, ruleList appLock = before ++ rule :: after ∧
      Applicable appLock defaultPolicyHash now p.image before rule

theorem mem_killTargets_iff {snapshot targets : List Process}
    (hk : killTargets appLock self snapshot = some targets)
    (hd : Built appLock defaultPolicyHash h rules) (hm : p ∈ snapshot) :
    p ∈ targets ↔ Exposed appLock self p := by
  have he := (exists_of_readHeader hd.header).left
  rw [killTargets, extractRuntimeBlockRules_eq hd] at hk
  cases hk
  cases hn : h.enabled <;> rw [hn] at he
  case false => simp [Process.isSelected, Exposed, he]
  case true =>
    have hn : ∀ r ∈ rules.map BlobRule.toRuntimeRule, r.Normal :=
      List.forall_mem_map.mpr fun b hb => (hd.normal b hb).toNormal
    rw [map_toRuntimeRule_emitted hd.emitted hd.length_lt] at hn ⊢
    simp only [if_true, List.mem_filter, isSelected_iff hn, Exposed, HasRule, he, hm, true_and]

-- Where the agent may kill a process, the driver denies it: if it is not critical and a rule that
-- has not expired covers it.
theorem denies_of_killed_iff {snapshot targets : List Process}
    (hb : buildPolicyBlob appLock defaultPolicyHash = some (.ok blob))
    (hd : parsePolicyBlob blob blob.length = .ok policy)
    (hk : killTargets appLock self snapshot = some targets) (hm : p ∈ snapshot) :
    (p ∈ targets → policy.denies now p.image) ↔
      (Exposed appLock self p → Deniable appLock defaultPolicyHash now p) := by
  obtain ⟨h, rules, hx, _⟩ := buildPolicyBlob_eq_ok_iff.mp hb
  rw [mem_killTargets_iff hk hx hm, denies_iff_exists_applicable hb hd]
  refine imp_congr_right fun hx => ?_
  simp only [hx.left, true_and, Deniable]

def nameBundle (value expiresAt : String) : Json Number :=
  .obj [
    ("enabled", .bool true),
    ("rules", .arr [.obj [
      ("expires_at", .str expiresAt),
      ("match_type", .str "basename"),
      ("value", .str value)]])]

def running (path : String) : Process :=
  ⟨4711, path.toList, true⟩

def fate (appLock : Json Number) (now : Nat) (p : Process) : Option (Except String (Bool × Bool)) := do
  let targets ← killTargets appLock 42 [p]
  let blob ← buildPolicyBlob appLock []
  some <| blob >>= fun blob => (parsePolicyBlob blob blob.length).map fun policy =>
    (!targets.isEmpty, policy.denies now p.image)

theorem exists_of_fate {killed denied : Bool} (h : fate appLock now p = some (.ok (killed, denied))) :
    ∃ targets blob policy, killTargets appLock 42 [p] = some targets ∧
      buildPolicyBlob appLock [] = some (.ok blob) ∧ parsePolicyBlob blob blob.length = .ok policy ∧
      (!targets.isEmpty) = killed ∧ policy.denies now p.image = denied := by
  obtain ⟨targets, hk, h⟩ := Option.bind_eq_some_iff.mp h
  obtain ⟨x, hx, h⟩ := Option.bind_eq_some_iff.mp h
  obtain ⟨blob, rfl, hf⟩ := exists_of_bind_eq_ok (Option.some_inj.mp h)
  obtain ⟨policy, hp, hd⟩ := exists_of_map_eq_ok hf
  rw [Prod.mk.injEq] at hd
  exact ⟨targets, blob, policy, hk, hx, hp, hd.left, hd.right⟩

theorem denies_of_killed_iff_calc :
    ∃ targets, killTargets (nameBundle "calc.exe" "2000000000") 42
        [running "C:\\Tools\\Calc.exe"] = some targets ∧ targets ≠ [] ∧
      (Exposed (nameBundle "calc.exe" "2000000000") 42 (running "C:\\Tools\\Calc.exe") →
        Deniable (nameBundle "calc.exe" "2000000000") [] 1700000000
          (running "C:\\Tools\\Calc.exe")) := by
  have h : fate (nameBundle "calc.exe" "2000000000") 1700000000 (running "C:\\Tools\\Calc.exe") =
      some (.ok (true, true)) := by
    decide +kernel
  obtain ⟨targets, blob, policy, hk, hb, hp, ht, hd⟩ := exists_of_fate h
  refine ⟨targets, hk, by simpa using ht, ?_⟩
  exact (denies_of_killed_iff hb hp hk List.mem_cons_self).mp fun _ => hd

-- A critical process, a rule that has expired, and an executable without an extension.
theorem killed_not_denied :
    fate (nameBundle "explorer.exe" "") 1700000000 (running "C:\\Windows\\explorer.exe") =
        some (.ok (true, false)) ∧
      fate (nameBundle "calc.exe" "1600000000") 1700000000 (running "C:\\Tools\\Calc.exe") =
        some (.ok (true, false)) ∧
      fate (nameBundle "calc.exe" "") 1700000000 (running "C:\\Tools\\calc") =
        some (.ok (true, false)) := by
  decide +kernel

end Containment

end Windows.AppLock
