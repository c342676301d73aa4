import Quoodle.Windows.PolicyPush

-- What is done for the sake of a rule, and when it ends.
namespace Windows

open Json.Nlohmann AppLock
open Kernel (isDigit)
open Kernel.AppLockdown (Policy maxRules ofDigits parsePolicyBlob criticalAllowlist imageName)
open ControlPlane (AppLockBundle)
open Gateway (received AppLockRule)

namespace AppLock

variable {appLock rule : Json Number} {defaultPolicyHash blob : List UInt8}
variable {before after : List (Json Number)} {rules : List BlobRule} {policy : Policy}
variable {image : List UInt16} {now self : Nat}

-- The driver denies the process, and the entry that was made of the rule applies to it. Entries have
-- the numbers of the rules that were taken, whatever the driver leaves of their texts.
def DeniedFor (policy : Policy) (now : Nat) (before : List (Json Number)) (rule : Json Number)
    (image : List UInt16) : Prop :=
  policy.denies now image ∧ IsTaken rule ∧
    ∃ i : Fin maxRules, i.val = (taken before).length ∧ (policy.rules i).InForce now ∧
      (policy.rules i).Matches image

def KilledFor (appLock rule : Json Number) (self : Nat) (p : Process) : Prop :=
  (∃ targets, killTargets appLock self [p] = some targets ∧ p ∈ targets) ∧
    ∃ r, readRuntimeRule rule = some (some r) ∧ p.isSelected self [r]

-- The driver gets the rule, and there is a process that it denies for it while it lasts.
def CoversSome (appLock : Json Number) (defaultPolicyHash : List UInt8) (before : List (Json Number))
    (r : RuntimeRule) : Prop :=
  Visible appLock defaultPolicyHash before ∧
    ∃ image, imageName image ∉ criticalAllowlist ∧ r.held.CoversImage image

def SelectsSome (self : Nat) (rule : Json Number) : Prop :=
  ∃ r, ∃ p : Process, readRuntimeRule rule = some (some r) ∧ p.isSelected self [r]

theorem deniedFor_of_matchedRule {i : Fin maxRules} (hm : policy.matchedRule now image = some i)
    (ht : IsTaken rule) (hi : i.val = (taken before).length) :
    DeniedFor policy now before rule image :=
  ⟨Option.isSome_iff_exists.mpr ⟨i, hm⟩, ht, i, hi, Kernel.AppLockdown.inForce_of_matchedRule hm⟩

theorem exists_deniedFor_iff (hb : buildPolicyBlob appLock defaultPolicyHash = some (.ok blob))
    (hp : parsePolicyBlob blob blob.length = .ok policy)
    (hs : ruleList appLock = before ++ rule :: after) :
    (∃ image, DeniedFor policy now before rule image) ↔
      value readBool appLock "enabled" false = some true ∧
        ∃ r, readRuntimeRule rule = some (some r) ∧
          CoversSome appLock defaultPolicyHash before r ∧ NotExpired now rule r := by
  obtain ⟨h, rules, hd, rfl⟩ := buildPolicyBlob_eq_ok_iff.mp hb
  have hc := carries_seen hd hp
  constructor
  · rintro ⟨image, hx, ht, i, hi, ha⟩
    obtain ⟨he, hx, _⟩ := (denies_iff_exists_applicable hb hp).mp hx
    obtain ⟨hv, r, hr', hs, hl⟩ := (applicable_iff hd hc hs ht hi).mp ha
    exact ⟨he, r, hr', ⟨hv, image, hx, hs⟩, hl⟩
  · rintro ⟨he, r, hr', ⟨hv, image, hx, hs'⟩, hl⟩
    have ha : Applicable appLock defaultPolicyHash now image before rule := ⟨hv, r, hr', hs', hl⟩
    have hi := length_taken_lt hd.emitted hd.length_lt hs ⟨r, hr'⟩
    exact ⟨image, (denies_iff_exists_applicable hb hp).mpr ⟨he, hx, before, rule, after, hs, ha⟩,
      ⟨r, hr'⟩, ⟨_, hi⟩, rfl, (applicable_iff hd hc hs ⟨r, hr'⟩ rfl).mpr ha⟩

theorem isSelected_of_mem {p : Process} {r : RuntimeRule} {rs : List RuntimeRule}
    (h : p.isSelected self [r]) (hr : r ∈ rs) : p.isSelected self rs := by
  simp only [Process.isSelected, Bool.and_eq_true, List.any_eq_true, List.mem_singleton,
    exists_eq_left] at h ⊢
  exact ⟨h.left, r, hr, h.right⟩

theorem exists_killedFor_iff {h : Header} (hd : Built appLock defaultPolicyHash h rules)
    (hm : rule ∈ ruleList appLock) :
    (∃ p, KilledFor appLock rule self p) ↔ h.enabled ∧ SelectsSome self rule := by
  have hx := extractRuntimeBlockRules_eq hd
  constructor
  · rintro ⟨p, ⟨targets, hk, hp⟩, r, ht, hs⟩
    refine ⟨?_, r, p, ht, hs⟩
    by_contra hn
    rw [killTargets, hx, if_neg hn] at hk
    cases hk
    simp [Process.isSelected] at hp
  · rintro ⟨he, r, p, ht, hs⟩
    obtain ⟨_, _, b, hb, _, rfl⟩ := exists_mem_of_isTaken hd.emitted hd.length_lt hm ht
    refine ⟨p, ⟨_, by rw [killTargets, hx, if_pos he]; rfl, ?_⟩, _, ht, hs⟩
    exact List.mem_filter.mpr ⟨List.mem_singleton.mpr rfl,
      isSelected_of_mem hs (List.mem_map_of_mem hb)⟩

end AppLock

section Delivered

variable {f : Gateway.Number → Number} {bundle : AppLockBundle} {r : AppLockRule} {text : String}

def deliveredRule (f : Gateway.Number → Number) (r : AppLockRule) : Json Number :=
  received f r.stripped.modelDump

theorem received_list (vs : List Gateway.Value) :
    received f (.list vs) = .arr (vs.map (received f)) := by
  simp [received, Gateway.Value.list, ofJson, Function.comp_def]

theorem value_enabled_received (bundle : AppLockBundle) :
    value readBool (received f bundle.accepted.modelDump) "enabled" false = some bundle.enabled := by
  have he := getItem_modelDump bundle.accepted "enabled"
  obtain ⟨ms, hm⟩ := Gateway.received_of_isDict (f := f) (Gateway.isDict_of_getItem he)
  have hg := Gateway.member_received (f := f) bundle.accepted.modelDump "enabled"
  rw [he] at hg
  rw [hm] at hg ⊢
  simp only [value, hg]
  rfl

theorem ruleList_received (bundle : AppLockBundle) :
    ruleList (received f bundle.accepted.modelDump) = bundle.rules.map (deliveredRule f) := by
  have hg := Gateway.member_received (f := f) bundle.accepted.modelDump "rules"
  rw [getItem_modelDump] at hg
  rw [ruleList, hg]
  simp [List.lookup, received_list, AppLockBundle.accepted, deliveredRule]

-- The texts that stand for seconds since 1970.
def IsDigits (text : String) : Prop :=
  utf8 text.toList ≠ [] ∧ (utf8 text.toList).all isDigit

def secondsOf (text : String) : Nat :=
  ofDigits 0 (utf8 text.toList)

theorem readExpiresAt_deliveredRule_iff {n : Nat} (ht : r.expiresAt = some text) :
    readExpiresAt (deliveredRule f r) = some n ↔
      IsDigits text ∧ secondsOf text < 2 ^ 64 ∧ 0 < secondsOf text ∧ n = secondsOf text := by
  have hg := Gateway.member_received (f := f) r.stripped.modelDump "expires_at"
  rw [AppLockRule.getItem_modelDump] at hg
  have hm : member (deliveredRule f r) "expires_at" = some (.str text) := by
    rw [deliveredRule, hg]
    simp [List.lookup, AppLockRule.stripped, ht, Gateway.Value.optionalStr, Gateway.received_str]
  rw [readExpiresAt, hm, Option.bind_some, Option.filter_eq_some_iff, tryParseUnixSeconds,
    Option.ite_none_right_eq_some, IsDigits, secondsOf, Option.some_inj]
  constructor
  · rintro ⟨⟨⟨hn, hd, hl, h0⟩, rfl⟩, _⟩
    exact ⟨⟨hn, hd⟩, hl, h0, rfl⟩
  · rintro ⟨⟨hn, hd⟩, hl, h0, rfl⟩
    exact ⟨⟨⟨hn, hd, hl, h0⟩, rfl⟩, decide_eq_true h0⟩

end Delivered

section Expiry

variable {env : Environment} {o : Occasion} {a : Agent} {s : PolicyState} {x : Push}
variable {request msg v : Gateway.Value} {bundle : AppLockBundle} {r : AppLockRule} {text : String}
variable {defaultPolicyHash blob : List UInt8} {policy : Policy} {self : Nat} {t : Int}

-- The instant that is meant by a text. What is meant by texts other than digits is left to those who
-- write them.
def Denotes (text : String) (t : Int) : Prop :=
  IsDigits text → t = secondsOf text

-- There are sweeps all the time while the fallback is active, and when a bundle is applied.
def SweepsAt (o : Occasion) (s : PolicyState) (appLock : Json Number) (now : Int) : Prop :=
  s.fallback = some appLock ∨ shouldKillRunningOnApply appLock = some true ∧ now = o.now

-- From the instant on, nothing is done for the sake of the rule. The driver takes times before 1970
-- for 1970, and has 64 bits for others.
def Expires (o : Occasion) (s : PolicyState) (blob : List UInt8) (appLock : Json Number)
    (before : List (Json Number)) (rule : Json Number) (self : Nat) (t : Int) : Prop :=
  ∀ now ≥ t,
    (parsePolicyBlob blob blob.length = .ok s.kernel → now < 2 ^ 64 →
      ∀ image, ¬DeniedFor s.kernel now.toNat before rule image) ∧
      (SweepsAt o s appLock now → ∀ p, ¬KilledFor appLock rule self p)

-- What has to hold if the bundle is enabled. The driver has its policy and gets to the rule, and sees
-- an instant in seconds; or the sweeps are over.
structure Harmless (o : Occasion) (s : PolicyState) (blob : List UInt8) (appLock : Json Number)
    (defaultPolicyHash : List UInt8) (before : List (Json Number)) (rule : Json Number) (pid : Nat)
    (text : String) (t : Int) : Prop where
  denied : parsePolicyBlob blob blob.length = .ok s.kernel →
    ∀ r, readRuntimeRule rule = some (some r) → CoversSome appLock defaultPolicyHash before r →
      (0 ∉ r.value ∧ IsDigits text ∧ 0 < secondsOf text) ∨ 2 ^ 64 ≤ t
  killed : s.fallback = some appLock ∨ t ≤ o.now → ¬SelectsSome pid rule

theorem exists_notExpired_iff {x : RuntimeRule} (he : r.expiresAt = some text) (hi : Denotes text t) :
    (∃ now ≥ t, now < 2 ^ 64 ∧ NotExpired now.toNat (deliveredRule env.number r) x) ↔
      ¬(0 ∉ x.value ∧ IsDigits text ∧ 0 < secondsOf text) ∧ t < 2 ^ 64 := by
  simp only [NotExpired, readExpiresAt_deliveredRule_iff he]
  constructor
  · rintro ⟨now, hn, hl, hx⟩
    refine ⟨fun ⟨hz, hd⟩ => ?_, by omega⟩
    have hs := hi hd.left
    have ht := hx hz _ ⟨hd.left, by omega, hd.right, rfl⟩
    omega
  · rintro ⟨hd, hl⟩
    exact ⟨t, le_rfl, hl, fun hz n hn => absurd ⟨hz, hn.left, hn.right.right.left⟩ hd⟩

def chessRule (expiresAt : String) : AppLockRule :=
  ⟨"r-1", .basename, "chess.exe", 1000, some expiresAt⟩

def chessImage : List UInt16 :=
  Kernel.AppLockdown.wide "\\??\\C:\\Games\\chess.exe"

def handled (msg : Gateway.Value) : PolicyState :=
  (handleMessage exampleEnvironment smooth idle (received exampleEnvironment.number msg)).policy

-- What an agent makes of the message for a request, and the policy that its driver then has.
structure Applied (request : Gateway.Value) (bundle : AppLockBundle) (msg v : Gateway.Value)
    (blob : List UInt8) : Prop where
  run : lockPush.run request = some (bundle, msg)
  delivered : deliveredBundle msg = some v
  built : buildPolicyBlob (received exampleEnvironment.number v) [] = some (.ok blob)

theorem exists_applied {request : Gateway.Value} {P : AppLockBundle → Gateway.Value → Bool}
    (h : (lockPush.run request).any fun o => (deliveredBundle o.2).any fun v =>
      (buildPolicyBlob (received exampleEnvironment.number v) []).any fun x =>
        x.toOption.isSome && P o.1 o.2) :
    ∃ bundle msg v blob, Applied request bundle msg v blob ∧ P bundle msg := by
  simp only [Option.any_eq_true, Bool.and_eq_true, Option.isSome_iff_exists] at h
  obtain ⟨⟨bundle, msg⟩, hm, v, hv, x, hb, ⟨blob, hx⟩, hP⟩ := h
  rw [mem_toOption_iff.mp hx] at hb
  exact ⟨bundle, msg, v, blob, ⟨hm, hv, hb⟩, hP⟩

-- The instant 1893456000, as other times are written in the control plane.
def newYear : String :=
  "2030-01-01T00:00:00Z"

end Expiry

end Windows
