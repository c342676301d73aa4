import Quoodle.Windows.CommandVerifier
import Quoodle.Windows.PolicyBlob

-- What the messages of the gateway do to the policy of the agent and of the driver.
namespace Windows

open Json.Nlohmann AppLock
open Kernel (ascii maxParams)
open Kernel.AppLockdown (Policy replacePolicy parsePolicyBlob)

structure PolicyState where
  policyHash : String
  -- The blob that was applied last, if there is one.
  lastGoodBlob : List UInt8
  -- The bundle that the agent enforces by itself while the fallback is active.
  fallback : Option (Json Number)
  kernel : Policy

-- What becomes of a request to the driver. It may be done without an answer.
structure Exchange where
  isDelivered : Bool
  outOfMemory : Bool
  isAnswered : Bool

namespace Exchange

def replace (x : Exchange) (kernel : Policy) (blob : List UInt8) : Policy × Bool :=
  if x.isDelivered then
    match replacePolicy x.outOfMemory blob blob.length with
    | .ok policy => (policy, x.isAnswered)
    | .error _ => (kernel, false)
  else (kernel, false)

def clear (x : Exchange) (kernel : Policy) : Policy × Bool :=
  if x.isDelivered then (.reset, x.isAnswered) else (kernel, false)

end Exchange

structure Occasion where
  now : Int
  quarantined : Bool
  first : Exchange
  rollback : Exchange

structure Agent where
  commands : State
  policy : PolicyState

section Handle

def clearBundle (o : Occasion) (s : PolicyState) : PolicyState :=
  let (kernel, isOk) := o.first.clear s.kernel
  { s with
    kernel := kernel
    lastGoodBlob := if isOk then [] else s.lastGoodBlob
    fallback := none }

-- The steps after the driver did not take a blob.
def fallBack (o : Occasion) (appLock : Json Number) (s : PolicyState) : PolicyState :=
  match extractRuntimeBlockRules appLock with
  | none => s
  | some rules =>
    { s with
      fallback := if rules ≠ [] then some appLock else none
      kernel := if s.lastGoodBlob ≠ [] then (o.rollback.replace s.kernel s.lastGoodBlob).1
        else s.kernel }

-- Sweeps change nothing here, but they throw the exceptions of what they read.
def sweep (appLock : Json Number) : Option Unit := do
  let kill ← shouldKillRunningOnApply appLock
  if kill then (extractRuntimeBlockRules appLock).map fun _ => () else some ()

def applyBundle (o : Occasion) (appLock : Json Number) (policyHash : String) (s : PolicyState) :
    PolicyState :=
  match buildPolicyBlob appLock (utf8 policyHash.toList) with
  | none => s
  | some (.error _) => { s with fallback := none }
  | some (.ok blob) =>
    match sweep appLock with
    | none => s
    | some _ =>
      let (kernel, isOk) := o.first.replace s.kernel blob
      if isOk then { s with kernel := kernel, lastGoodBlob := blob, fallback := none }
      else fallBack o appLock { s with kernel := kernel }

def handlePolicyUpdate (o : Occasion) (body : Json Number) (s : PolicyState) : PolicyState :=
  match value readString body "policy_hash" "" with
  | none => s
  | some policyHash =>
    let s := { s with policyHash := policyHash }
    match member body "app_lock" with
    | none => s
    | some .null => clearBundle o s
    | some appLock => applyBundle o appLock policyHash s

def handleAuthAck (body : Json Number) (s : PolicyState) : PolicyState :=
  match value readString body "session_id" "" with
  | none => s
  | some sessionId =>
    if sessionId = "" then s
    else
      match value readString body "policy_hash" "" with
      | none => s
      | some policyHash => if policyHash = "" then s else { s with policyHash := policyHash }

-- Commands are run by requests to the driver that do not concern its policy. The other types of
-- messages are about errors of the authentication and about releases.
def handleMessage (env : Environment) (o : Occasion) (a : Agent) (msg : Json Number) : Agent :=
  match value readString msg "type" "" with
  | some "AUTH_ACK" =>
    { a with policy := (index msg "body").elim a.policy fun body => handleAuthAck body a.policy }
  | some "POLICY_UPDATE" =>
    { a with policy := (index msg "body").elim a.policy fun body =>
      handlePolicyUpdate o body a.policy }
  | some "COMMAND_DELIVERY" =>
    let c : Circumstances := ⟨o.now, o.quarantined, a.policy.policyHash⟩
    { a with commands := (handleCommandDelivery env c a.commands msg).2 }
  | _ => a

def handleText (env : Environment) (o : Occasion) (a : Agent) (text : List Char) : Agent :=
  (parse text).elim a (handleMessage env o a)

end Handle

section Enforced

variable {env : Environment} {o : Occasion} {a : Agent} {s : PolicyState}
variable {msg body appLock : Json Number}
variable {policyHash : String} {rules : List RuntimeRule} {blob : List UInt8}

-- The members of the bundle can be read, and its blob is short enough.
def HasBlob (appLock : Json Number) (policyHash : String) : Prop :=
  ∃ h rules, readHeader appLock (utf8 policyHash.toList) = some h ∧ h.mode = ascii "blocklist" ∧
    h.failMode = ascii "open" ∧ emittedRules appLock = some rules ∧
    (blobText h rules).length < maxParams

theorem hasBlob_iff : HasBlob appLock policyHash ↔
      ∃ blob, buildPolicyBlob appLock (utf8 policyHash.toList) = some (.ok blob) := by
  simp only [buildPolicyBlob_eq_ok_iff]
  constructor
  · rintro ⟨h, rules, hh, hm, hf, hr, hl⟩
    exact ⟨_, h, rules, ⟨hh, hm, hf, hr, hl⟩, rfl⟩
  · rintro ⟨_, h, rules, ⟨hh, hm, hf, hr, hl⟩, _⟩
    exact ⟨h, rules, hh, hm, hf, hr, hl⟩

-- The members of the bundle can be read, but the driver does not know its mode or its fail mode, or
-- its blob is too long.
def IsRefused (appLock : Json Number) (policyHash : String) : Prop :=
  ∃ h, readHeader appLock (utf8 policyHash.toList) = some h ∧
    (h.mode ≠ ascii "blocklist" ∨ h.failMode ≠ ascii "open" ∨
      ∃ rules, emittedRules appLock = some rules ∧ maxParams ≤ (blobText h rules).length)

theorem isRefused_iff {ms : List (String × Json Number)} : IsRefused (.obj ms) policyHash ↔
      ∃ error, buildPolicyBlob (.obj ms) (utf8 policyHash.toList) = some (.error error) := by
  unfold IsRefused buildPolicyBlob
  cases readHeader (.obj ms) (utf8 policyHash.toList)
  case none => simp
  case some h =>
    simp only [Option.some_inj, exists_eq_left', Option.bind_eq_bind, Option.bind_some]
    by_cases hm : h.mode = ascii "blocklist"
    case neg => simp [hm]
    by_cases hf : h.failMode = ascii "open"
    case neg => simp [hm, hf]
    cases emittedRules (.obj ms)
    case none => simp [hm, hf]
    case some rules =>
      by_cases hl : maxParams ≤ (blobText h rules).length
      case pos | neg => simp [hm, hf, hl, blobText_ne_nil]

-- The bundle of a message is enforced by the driver or by the agent itself.
def Enforced (body appLock : Json Number) (s : PolicyState) : Prop :=
  s.fallback = some appLock ∨
    ∃ policyHash blob, value readString body "policy_hash" "" = some policyHash ∧
      buildPolicyBlob appLock (utf8 policyHash.toList) = some (.ok blob) ∧
      parsePolicyBlob blob blob.length = .ok s.kernel

theorem parse_of_replace {x : Exchange} {kernel : Policy} (h : (x.replace kernel blob).2 = true) :
    parsePolicyBlob blob blob.length = .ok (x.replace kernel blob).1 := by
  unfold Exchange.replace at h ⊢
  split
  case isFalse hd => simp [hd] at h
  case isTrue hd =>
    split
    case h_2 he => simp [hd, he] at h
    case h_1 policy hp =>
      unfold replacePolicy at hp
      split at hp
      case isTrue => cases hp
      case isFalse => exact hp

theorem exists_of_extract (hr : extractRuntimeBlockRules appLock = some rules) (hn : rules ≠ []) :
    (∃ ms, appLock = .obj ms) ∧ value readBool appLock "enabled" false = some true := by
  unfold extractRuntimeBlockRules at hr
  split at hr
  case h_2 =>
    cases hr
    exact absurd rfl hn
  case h_1 ms =>
    obtain ⟨enabled, he, hr⟩ := Option.bind_eq_some_iff.mp hr
    cases enabled
    case true => exact ⟨⟨ms, rfl⟩, he⟩
    case false =>
      cases hr
      exact absurd rfl hn

theorem exists_sweep (hr : extractRuntimeBlockRules appLock = some rules) (hn : rules ≠ []) :
    ∃ u, sweep appLock = some u := by
  obtain ⟨⟨ms, rfl⟩, he⟩ := exists_of_extract hr hn
  have hk : ∃ kill, shouldKillRunningOnApply (.obj ms) = some kill := by
    simp only [shouldKillRunningOnApply, he, Option.bind_eq_bind, Option.bind_some, Bool.not_true,
      Bool.false_eq_true, if_false]
    split
    all_goals exact ⟨_, rfl⟩
  obtain ⟨kill, hk⟩ := hk
  cases kill
  case false => exact ⟨(), by simp [sweep, hk]⟩
  case true => exact ⟨(), by simp [sweep, hk, hr]⟩

-- A blob that the driver does not take, or that the agent is not told about, makes the agent enforce
-- the bundle by itself.
theorem fallback_applyBundle
    (hb : buildPolicyBlob appLock (utf8 policyHash.toList) = some (.ok blob))
    (hr : extractRuntimeBlockRules appLock = some rules) (hn : rules ≠ []) :
    (applyBundle o appLock policyHash s).fallback = some appLock ∨
      parsePolicyBlob blob blob.length = .ok (applyBundle o appLock policyHash s).kernel := by
  obtain ⟨u, hu⟩ := exists_sweep hr hn
  simp only [applyBundle, hb, hu]
  split
  case isTrue ho => exact .inr (parse_of_replace ho)
  case isFalse => exact .inl (by simp [fallBack, hr, hn])

theorem handleMessage_policyUpdate (ht : value readString msg "type" "" = some "POLICY_UPDATE")
    (hb : index msg "body" = some body) :
    (handleMessage env o a msg).policy = handlePolicyUpdate o body a.policy := by
  simp [handleMessage, ht, hb]

theorem handlePolicyUpdate_of_ne_null
    (hh : value readString body "policy_hash" "" = some policyHash)
    (ha : member body "app_lock" = some appLock) (hn : appLock ≠ .null) :
    handlePolicyUpdate o body s =
      applyBundle o appLock policyHash { s with policyHash := policyHash } := by
  simp only [handlePolicyUpdate, hh, ha]

-- A bundle with runtime rules is enforced if and only if a blob can be made of it, or it had been
-- enforced by the agent itself and is not refused.
theorem enforced_iff {rules : List RuntimeRule}
    (ht : value readString msg "type" "" = some "POLICY_UPDATE")
    (hb : index msg "body" = some body) (ha : member body "app_lock" = some appLock)
    (hr : extractRuntimeBlockRules appLock = some rules) (hn : rules ≠ []) :
    Enforced body appLock (handleMessage env o a msg).policy ↔
      (∃ policyHash, value readString body "policy_hash" "" = some policyHash ∧
        HasBlob appLock policyHash) ∨
      (¬∃ policyHash, value readString body "policy_hash" "" = some policyHash ∧
        IsRefused appLock policyHash) ∧ a.policy.fallback = some appLock := by
  rw [handleMessage_policyUpdate ht hb]
  obtain ⟨⟨ms, rfl⟩, _⟩ := exists_of_extract hr hn
  cases hh : value readString body "policy_hash" ""
  case none => simp [Enforced, handlePolicyUpdate, hh]
  case some policyHash =>
    rw [handlePolicyUpdate_of_ne_null hh ha (by simp)]
    simp only [Enforced, hh, Option.some_inj, exists_eq_left', exists_and_left, hasBlob_iff,
      isRefused_iff]
    cases hx : buildPolicyBlob (.obj ms) (utf8 policyHash.toList)
    case none => simp [applyBundle, hx]
    case some x =>
      cases x
      case error e => simp [applyBundle, hx]
      case ok blob =>
        have he := fallback_applyBundle (o := o) (s := { a.policy with policyHash := policyHash })
          hx hr hn
        simpa using he

def nameRule (name : String) : Json Number :=
  .obj [("match_type", .str "basename"), ("value", .str name)]

def blockBundle (names : List String) : Json Number :=
  .obj [("enabled", .bool true), ("rules", .arr (names.map nameRule))]

def updateBody (appLock : Json Number) : Json Number :=
  .obj [("app_lock", appLock), ("policy_hash", .str "p-1")]

def policyUpdate (appLock : Json Number) : Json Number :=
  .obj [("body", updateBody appLock), ("type", .str "POLICY_UPDATE")]

def smooth : Occasion :=
  ⟨0, false, ⟨true, false, true⟩, ⟨true, false, true⟩⟩

def idle : Agent :=
  ⟨⟨0, []⟩, "", [], none, .reset⟩

def games : List String :=
  ["chess.exe", "sudoku.exe", "tetris.exe", "snake.exe", "poker.exe"]

theorem value_type_policyUpdate (appLock : Json Number) :
    value readString (policyUpdate appLock) "type" "" = some "POLICY_UPDATE" :=
  rfl

theorem index_policyUpdate (appLock : Json Number) :
    index (policyUpdate appLock) "body" = some (updateBody appLock) :=
  rfl

theorem member_updateBody (appLock : Json Number) :
    member (updateBody appLock) "app_lock" = some appLock :=
  rfl

theorem value_updateBody (appLock : Json Number) :
    value readString (updateBody appLock) "policy_hash" "" = some "p-1" :=
  rfl

theorem exists_blob_chess :
    ∃ blob, buildPolicyBlob (blockBundle ["chess.exe"]) (utf8 "p-1".toList) = some (.ok blob) := by
  have h : (buildPolicyBlob (blockBundle ["chess.exe"]) (utf8 "p-1".toList)).map Except.isOk =
      some true := by
    decide +kernel
  obtain ⟨x, hx, h⟩ := Option.map_eq_some_iff.mp h
  cases x
  case error => cases h
  case ok blob => exact ⟨blob, hx⟩

theorem enforced_iff_chess :
    ∃ rules, extractRuntimeBlockRules (blockBundle ["chess.exe"]) = some rules ∧ rules ≠ [] ∧
      ∀ env : Environment, Enforced (updateBody (blockBundle ["chess.exe"]))
        (blockBundle ["chess.exe"])
        (handleMessage env smooth idle (policyUpdate (blockBundle ["chess.exe"]))).policy := by
  have hr : extractRuntimeBlockRules (blockBundle ["chess.exe"]) =
      some [⟨.basename, ascii "chess.exe"⟩] := by
    decide
  refine ⟨_, hr, by simp, fun env => ?_⟩
  apply (enforced_iff (value_type_policyUpdate _) (index_policyUpdate _) (member_updateBody _) hr
    (by simp)).mpr
  exact .inl ⟨"p-1", value_updateBody _, hasBlob_iff.mpr exists_blob_chess⟩

-- The blob of five rules is too long.
theorem games_not_enforced :
    extractRuntimeBlockRules (blockBundle games) =
        some (games.map fun name => ⟨.basename, ascii name⟩) ∧
      ∀ env : Environment, ¬Enforced (updateBody (blockBundle games)) (blockBundle games)
        (handleMessage env smooth idle (policyUpdate (blockBundle games))).policy := by
  have hb : buildPolicyBlob (blockBundle games) (utf8 "p-1".toList) =
      some (.error "policy_blob_too_large") := by
    decide +kernel
  refine ⟨by decide, fun env => ?_⟩
  rw [handleMessage_policyUpdate (value_type_policyUpdate _) (index_policyUpdate _),
    handlePolicyUpdate_of_ne_null (value_updateBody _) (member_updateBody _) (by simp [blockBundle])]
  rintro (h | ⟨policyHash, blob, hh, hs, _⟩)
  · rw [applyBundle, hb] at h
    cases h
  · cases (value_updateBody _).symm.trans hh
    rw [hb] at hs
    cases hs

end Enforced

section Verified

variable {env : Environment} {o : Occasion} {a : Agent} {s : PolicyState}
variable {text : List Char} {msg body : Json Number} {policyHash : String}

-- One of the things that only the controller may change has changed.
def PolicyState.Differs (s t : PolicyState) : Prop :=
  t.policyHash ≠ s.policyHash ∨ t.kernel ≠ s.kernel ∨ t.fallback ≠ s.fallback

def IsVerifiedUpdate (env : Environment) (msg : Json Number) : Prop :=
  value readString msg "type" "" = some "POLICY_UPDATE" ∧
    ∃ sig, member msg "sig" = some (.str sig) ∧ env.verify msg sig

-- An update whose policy hash can be read, signed or not.
def IsUpdate (msg : Json Number) : Prop :=
  value readString msg "type" "" = some "POLICY_UPDATE" ∧
    ∃ body policyHash, index msg "body" = some body ∧
      value readString body "policy_hash" "" = some policyHash

def IsAckWithHash (msg : Json Number) : Prop :=
  value readString msg "type" "" = some "AUTH_ACK" ∧
    ∃ body sessionId policyHash, index msg "body" = some body ∧
      value readString body "session_id" "" = some sessionId ∧ sessionId ≠ "" ∧
      value readString body "policy_hash" "" = some policyHash ∧ policyHash ≠ ""

theorem not_differs (s : PolicyState) : ¬s.Differs s := by
  simp [PolicyState.Differs]

theorem policyHash_applyBundle (appLock : Json Number) (policyHash : String) (s : PolicyState) :
    (applyBundle o appLock policyHash s).policyHash = s.policyHash := by
  unfold applyBundle
  split
  case h_1 => rfl
  case h_2 => rfl
  split
  case h_1 => rfl
  simp only []
  split
  case isTrue => rfl
  unfold fallBack
  split
  case h_1 => rfl
  case h_2 => rfl

theorem policyHash_handlePolicyUpdate
    (hh : value readString body "policy_hash" "" = some policyHash) :
    (handlePolicyUpdate o body s).policyHash = policyHash := by
  simp only [handlePolicyUpdate, hh]
  split
  case h_1 => rfl
  case h_2 => rfl
  case h_3 => exact policyHash_applyBundle ..

theorem handleAuthAck_of_eq {sessionId policyHash : String}
    (hs : value readString body "session_id" "" = some sessionId) (h₁ : sessionId ≠ "")
    (hh : value readString body "policy_hash" "" = some policyHash) (h₂ : policyHash ≠ "") :
    handleAuthAck body s = { s with policyHash } := by
  simp only [handleAuthAck, hs, hh, if_neg h₁, if_neg h₂]

theorem exists_of_handleAuthAck_ne (h : handleAuthAck body s ≠ s) :
    ∃ sessionId policyHash, value readString body "session_id" "" = some sessionId ∧
      sessionId ≠ "" ∧ value readString body "policy_hash" "" = some policyHash ∧
      policyHash ≠ "" := by
  unfold handleAuthAck at h
  split at h
  case h_1 => exact absurd rfl h
  case h_2 sessionId hs =>
    have h₁ : sessionId ≠ "" := fun h₁ => h (if_pos h₁)
    rw [if_neg h₁] at h
    split at h
    case h_1 => exact absurd rfl h
    case h_2 policyHash hh =>
      have h₂ : policyHash ≠ "" := fun h₂ => h (if_pos h₂)
      exact ⟨sessionId, policyHash, hs, h₁, hh, h₂⟩

theorem exists_of_handlePolicyUpdate_ne (h : handlePolicyUpdate o body s ≠ s) :
    ∃ policyHash, value readString body "policy_hash" "" = some policyHash := by
  unfold handlePolicyUpdate at h
  split at h
  case h_1 => exact absurd rfl h
  case h_2 policyHash hh => exact ⟨policyHash, hh⟩

theorem handleMessage_authAck (ht : value readString msg "type" "" = some "AUTH_ACK")
    (hb : index msg "body" = some body) :
    handleMessage env o a msg = { a with policy := handleAuthAck body a.policy } := by
  simp only [handleMessage, ht, hb, Option.elim_some]

-- What a message must be to have an effect on the policy, by the branches of the handler.
theorem isUpdate_or_isAck_of_ne (h : (handleMessage env o a msg).policy ≠ a.policy) :
    IsUpdate msg ∨ IsAckWithHash msg := by
  unfold handleMessage at h
  split at h
  case h_1 ht =>
    cases hb : index msg "body"
    case none => simp [hb] at h
    case some body =>
      simp only [hb, Option.elim_some] at h
      obtain ⟨sessionId, policyHash, hs⟩ := exists_of_handleAuthAck_ne h
      exact .inr ⟨ht, body, sessionId, policyHash, hb, hs⟩
  case h_2 ht =>
    cases hb : index msg "body"
    case none => simp [hb] at h
    case some body =>
      simp only [hb, Option.elim_some] at h
      obtain ⟨policyHash, hh⟩ := exists_of_handlePolicyUpdate_ne h
      exact .inl ⟨ht, body, policyHash, hb, hh⟩
  case h_3 | h_4 => exact absurd rfl h

theorem policyHash_of_isUpdate (h : IsUpdate msg) :
    ∃ policyHash, ∀ env o a, (handleMessage env o a msg).policy.policyHash = policyHash := by
  obtain ⟨ht, body, policyHash, hb, hh⟩ := h
  refine ⟨policyHash, fun env o a => ?_⟩
  rw [handleMessage_policyUpdate ht hb]
  exact policyHash_handlePolicyUpdate hh

theorem policyHash_of_isAckWithHash (h : IsAckWithHash msg) :
    ∃ policyHash, ∀ env o a, (handleMessage env o a msg).policy.policyHash = policyHash := by
  obtain ⟨ht, body, sessionId, policyHash, hb, hs, h₁, hh, h₂⟩ := h
  refine ⟨policyHash, fun env o a => ?_⟩
  rw [handleMessage_authAck ht hb, handleAuthAck_of_eq hs h₁ hh h₂]

-- A message that always leaves the same hash changes the policy of some agent.
theorem exists_differs (h : ∀ env o a, (handleMessage env o a msg).policy.policyHash = policyHash)
    (env : Environment) :
    ∃ (o : Occasion) (a : Agent), a.policy.Differs (handleMessage env o a msg).policy := by
  refine ⟨smooth, { idle with policy.policyHash := policyHash ++ "0" }, .inl ?_⟩
  rw [h]
  intro he
  simpa using congrArg String.length he

-- A text changes the policy only if it is signed by the controller, if and only if it is neither an
-- acknowledgement with a policy hash nor an update that is not signed.
theorem differs_imp_verified_iff (env : Environment) (text : List Char) :
    (∀ (o : Occasion) (a : Agent), a.policy.Differs (handleText env o a text).policy →
      ∃ msg, parse text = some msg ∧ IsVerifiedUpdate env msg) ↔
      ∀ msg, parse text = some msg →
        ¬IsAckWithHash msg ∧ (IsUpdate msg → IsVerifiedUpdate env msg) := by
  constructor
  · intro h msg hp
    -- Both kinds of messages have an effect on an agent with another hash.
    have hv {policyHash : String}
        (hh : ∀ env o a, (handleMessage env o a msg).policy.policyHash = policyHash) :
        IsVerifiedUpdate env msg := by
      obtain ⟨o, a, hd⟩ := exists_differs hh env
      obtain ⟨msg', hp', hv⟩ := h o a (by simpa [handleText, hp] using hd)
      cases hp.symm.trans hp'
      exact hv
    refine ⟨fun ha => ?_, fun hu => hv (policyHash_of_isUpdate hu).choose_spec⟩
    have ht := (hv (policyHash_of_isAckWithHash ha).choose_spec).1
    simp [ha.1] at ht
  · intro h o a hd
    cases hp : parse text
    case none =>
      simp only [handleText, hp, Option.elim_none] at hd
      exact (not_differs _ hd).elim
    case some msg =>
      simp only [handleText, hp, Option.elim_some] at hd
      refine ⟨msg, rfl, ?_⟩
      have hn : (handleMessage env o a msg).policy ≠ a.policy :=
        fun he => not_differs _ (he ▸ hd)
      cases isUpdate_or_isAck_of_ne hn
      case inl hu => exact (h msg hp).2 hu
      case inr ha => exact ((h msg hp).1 ha).elim

def guarded : Agent :=
  ⟨⟨0, []⟩, "p-0", [], some (blockBundle games), { Policy.reset with enabled := true }⟩

def unsignedText : List Char :=
  Json.print .minimal Number.format (policyUpdate .null)

-- A message without a signature is enough to switch everything off.
theorem unsigned_update_differs :
    (handleText exampleEnvironment smooth guarded unsignedText).policy =
        ⟨"p-1", [], none, .reset⟩ ∧
      guarded.policy.Differs
        (handleText exampleEnvironment smooth guarded unsignedText).policy ∧
      ¬∃ msg, parse unsignedText = some msg ∧ IsVerifiedUpdate exampleEnvironment msg := by
  have hp : parse unsignedText = some (policyUpdate .null) := parse_print (by decide)
  have hs : (handleText exampleEnvironment smooth guarded unsignedText).policy =
      ⟨"p-1", [], none, .reset⟩ := by
    rw [handleText, hp]
    rfl
  refine ⟨hs, ?_, ?_⟩
  · rw [hs]
    exact .inl (by decide)
  · rintro ⟨msg, hm, _, sig, hv, _⟩
    cases hp.symm.trans hm
    cases hv

end Verified

end Windows
