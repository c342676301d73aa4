import Quoodle.Data.Binary64
import Quoodle.Data.Unwinding
import Quoodle.Gateway.Reports

-- The last sequence numbers and the nonces that the gateway remembers for all devices.
namespace Gateway

deriving instance DecidableEq for Raised

namespace Replay

open Json (assign intText)
open Unwinding (accepted answers Isolated)
open Binary64 (limit)

structure ReplayConfig where
  -- Whether there is a Redis server, or everything is kept in a dictionary.
  hasRedis : Bool
  maxClockSkewSeconds : Int
  requireSeq : Bool
  keyNamespace : String

structure Record where
  value : String
  expireAt : Option Int
  deriving DecidableEq

def Record.isLive (now : Int) (r : Record) : Bool :=
  r.expireAt.all (now < ·)

structure ReplayProtector where
  memLastSeq : List (String × Int)
  redis : List (String × Record)

def ReplayProtector.empty : ReplayProtector :=
  ⟨[], []⟩

def replayError (message : String) : Except Raised Unit :=
  .error (.valueError message)

section Timestamps

-- `fromisoformat` finds the time in a string, in microseconds. A time without a zone is one of UTC.
variable (fromisoformat : String → Option Int) (formatSeconds : Int → String)

def parseIso8601 (ts : String) : Option Int :=
  fromisoformat (if ts.endsWith "Z" then (ts.dropEnd 1).toString ++ "+00:00" else ts)

def validateTimestamp (cfg : ReplayConfig) (now : Int) (timestamp : Value) : Except Raised Unit :=
  let parsed :=
    match timestamp.json with
    | .str ts => parseIso8601 fromisoformat ts
    | _ => none
  match parsed with
  | none => replayError "Invalid timestamp"
  | some dt =>
    let skew := |now - dt|
    if skew > cfg.maxClockSkewSeconds * 10 ^ 6 then
      replayError ("Timestamp skew too large (" ++ formatSeconds skew ++ "s)")
    else .ok ()

end Timestamps

def validateSeq (cfg : ReplayConfig) (seq : Value) : Except Raised (Option Int) :=
  if seq = .none then
    if cfg.requireSeq then .error (.valueError "Missing seq") else .ok none
  else
    match seq.asInt with
    | none => .error (.valueError "seq must be integer")
    | some n => if n ≤ 0 then .error (.valueError "seq must be > 0") else .ok (some n)

-- Models `str(seq)` for what is an `int` to Python.
def strOfInt (seq : Value) : String :=
  match seq.json with
  | .num (.int n) => .ofList (intText n)
  | .bool true => "True"
  | .bool false => "False"
  | _ => ""

-- Models Lua's `tonumber`, which gives a double, for the texts that `strOfInt` gives. Whatever is too
-- large for a double is infinite.
def toNumber (s : String) : Option Int :=
  (Json.readInt s.toList).map fun n => min (Binary64.round n) limit

-- The script that Redis runs: what it sets if it sets something. It fails if it compares something that
-- is no number.
def compareAndSet (cur : Option Record) (arg : String) : Option (Option Record) :=
  match cur with
  | none => some (some ⟨arg, none⟩)
  | some cur => do
    let c ← toNumber cur.value
    let n ← toNumber arg
    return if n > c then some ⟨arg, none⟩ else none

def nonceTtlSeconds : Int :=
  600

def ReplayProtector.get (p : ReplayProtector) (now : Int) (key : String) : Option Record :=
  (p.redis.lookup key).filter (Record.isLive now)

def lastSeqKey (cfg : ReplayConfig) (deviceId : String) : String :=
  if cfg.hasRedis then cfg.keyNamespace ++ ":last_seq:" ++ deviceId else deviceId

def nonceKey (cfg : ReplayConfig) (deviceId nonce : String) : String :=
  if cfg.hasRedis then cfg.keyNamespace ++ ":nonce:" ++ deviceId ++ ":" ++ nonce
  else deviceId ++ ":" ++ nonce

-- A call of Redis raises an exception if the server cannot be reached.
def checkAndUpdateSeq (cfg : ReplayConfig) (p : ReplayProtector) (now : Int) (reachable : Bool)
    (deviceId : String) (seq : Value) : Except Raised Unit × ReplayProtector :=
  match validateSeq cfg seq with
  | .error e => (.error e, p)
  | .ok none => (.ok (), p)
  | .ok (some n) =>
    let key := lastSeqKey cfg deviceId
    if cfg.hasRedis then
      match if reachable then compareAndSet (p.get now key) (strOfInt seq) else none with
      | none => (.error .other, p)
      | some none => (replayError "Replay detected (seq not increasing)", p)
      | some (some r) => (.ok (), { p with redis := assign key r p.redis })
    else
      if n ≤ (p.memLastSeq.lookup key).getD 0 then
        (replayError "Replay detected (seq not increasing)", p)
      else (.ok (), { p with memLastSeq := assign key n p.memLastSeq })

def checkAndStoreNonce (cfg : ReplayConfig) (p : ReplayProtector) (now : Int) (reachable : Bool)
    (deviceId nonce : String) : Except Raised Unit × ReplayProtector :=
  let key := nonceKey cfg deviceId nonce
  if nonce = "" then (replayError "Missing nonce", p)
  else if cfg.hasRedis then
    if !reachable then (.error .other, p)
    else if (p.get now key).isSome then (replayError "Replay detected (nonce reuse)", p)
    else (.ok (), { p with redis := assign key ⟨"1", some (now + nonceTtlSeconds)⟩ p.redis })
  else
    if (p.memLastSeq.lookup key).isSome then (replayError "Replay detected (nonce reuse)", p)
    else (.ok (), { p with memLastSeq := assign key 1 p.memLastSeq })

theorem pos_of_validateSeq {cfg : ReplayConfig} {seq : Value} {n : Int}
    (h : validateSeq cfg seq = .ok (some n)) : 0 < n := by
  unfold validateSeq at h
  split at h
  case isTrue => split at h <;> cases h
  split at h
  case h_1 => cases h
  split at h
  case isTrue => cases h
  case isFalse hn =>
    cases h
    exact not_le.mp hn

inductive Call where
  | checkAndUpdateSeq (deviceId : String) (seq : Value)
  | checkAndStoreNonce (deviceId nonce : String)
  deriving DecidableEq

structure Request where
  call : Call
  now : Int
  reachable : Bool
  deriving DecidableEq

def step (cfg : ReplayConfig) (p : ReplayProtector) (r : Request) :
    Except Raised Unit × ReplayProtector :=
  match r.call with
  | .checkAndUpdateSeq deviceId seq => checkAndUpdateSeq cfg p r.now r.reachable deviceId seq
  | .checkAndStoreNonce deviceId nonce => checkAndStoreNonce cfg p r.now r.reachable deviceId nonce

namespace Call

def deviceId : Call → String
  | checkAndUpdateSeq deviceId _ | checkAndStoreNonce deviceId _ => deviceId

def key (cfg : ReplayConfig) : Call → Option String
  | checkAndUpdateSeq deviceId seq =>
    match validateSeq cfg seq with
    | .ok (some _) => some (lastSeqKey cfg deviceId)
    | _ => none
  | checkAndStoreNonce deviceId nonce =>
    if nonce = "" then none else some (nonceKey cfg deviceId nonce)

variable {cfg : ReplayConfig} {d k : String}

theorem key_seq_eq_some_iff {seq : Value} :
    (checkAndUpdateSeq d seq).key cfg = some k ↔
      (∃ n, validateSeq cfg seq = .ok (some n)) ∧ lastSeqKey cfg d = k := by
  simp only [key]
  split
  case h_1 n hn => simp [hn]
  case h_2 hn =>
    simp only [reduceCtorEq, false_iff, not_and]
    exact fun ⟨n, h⟩ => absurd h (hn n)

theorem key_nonce_eq_some_iff {nonce : String} :
    (checkAndStoreNonce d nonce).key cfg = some k ↔ nonce ≠ "" ∧ nonceKey cfg d nonce = k := by
  simp [key]

end Call

-- The answers to the calls for a device are those that are given if there are no other devices.
def Isolates (cfg : ReplayConfig) (rs : List Request) : Prop :=
  ∀ deviceId, Isolated (step cfg) .empty (·.call.deviceId = deviceId) rs

def AgreeAt (k : String) (p p' : ReplayProtector) : Prop :=
  p.memLastSeq.lookup k = p'.memLastSeq.lookup k ∧ p.redis.lookup k = p'.redis.lookup k

section Steps

variable {cfg : ReplayConfig} {p p' : ReplayProtector} {r : Request} {k : String}

theorem AgreeAt.get (h : AgreeAt k p p') {now : Int} : p.get now k = p'.get now k :=
  congrArg (Option.filter _) h.right

theorem snd_step (cfg : ReplayConfig) (p : ReplayProtector) (r : Request) :
    (step cfg p r).2 = p ∨ ∃ k, r.call.key cfg = some k ∧
      ((∃ n, (step cfg p r).2 = { p with memLastSeq := assign k n p.memLastSeq }) ∨
        ∃ e, (step cfg p r).2 = { p with redis := assign k e p.redis }) := by
  obtain ⟨call, now, reachable⟩ := r
  cases call <;> simp only [step, Call.key]
  case checkAndUpdateSeq d seq =>
    unfold checkAndUpdateSeq
    rcases validateSeq cfg seq with _ | _ | n <;> dsimp only
    case error => exact .inl rfl
    case ok.none => exact .inl rfl
    case ok.some =>
      split
      case isTrue =>
        split
        case h_1 => exact .inl rfl
        case h_2 => exact .inl rfl
        case h_3 => exact .inr ⟨_, rfl, .inr ⟨_, rfl⟩⟩
      split
      case isTrue => exact .inl rfl
      case isFalse => exact .inr ⟨_, rfl, .inl ⟨n, rfl⟩⟩
  case checkAndStoreNonce d nonce =>
    simp only [checkAndStoreNonce]
    split
    case isTrue => exact .inl rfl
    split
    case isTrue =>
      split
      case isTrue => exact .inl rfl
      split
      case isTrue => exact .inl rfl
      case isFalse => exact .inr ⟨_, rfl, .inr ⟨_, rfl⟩⟩
    split
    case isTrue => exact .inl rfl
    case isFalse => exact .inr ⟨_, rfl, .inl ⟨1, rfl⟩⟩

theorem agreeAt_step_of_ne (h : r.call.key cfg ≠ some k) : AgreeAt k (step cfg p r).2 p := by
  obtain he | ⟨l, hl, ⟨n, he⟩ | ⟨e, he⟩⟩ := snd_step cfg p r
  · rw [he]
    exact ⟨rfl, rfl⟩
  · have hk : k ≠ l := fun hk => h (hk ▸ hl)
    rw [he]
    exact ⟨Json.lookup_assign_of_ne hk n p.memLastSeq, rfl⟩
  · have hk : k ≠ l := fun hk => h (hk ▸ hl)
    rw [he]
    exact ⟨rfl, Json.lookup_assign_of_ne hk e p.redis⟩

theorem AgreeAt.assign_memLastSeq (h : AgreeAt k p p') (n : Int) :
    AgreeAt k { p with memLastSeq := assign k n p.memLastSeq }
      { p' with memLastSeq := assign k n p'.memLastSeq } :=
  ⟨by simp only [Json.lookup_assign_self], h.right⟩

theorem AgreeAt.assign_redis (h : AgreeAt k p p') (e : Record) :
    AgreeAt k { p with redis := assign k e p.redis } { p' with redis := assign k e p'.redis } :=
  ⟨h.left, by simp only [Json.lookup_assign_self]⟩

theorem step_congr (h : ∀ k, r.call.key cfg = some k → AgreeAt k p p') :
    (step cfg p r).1 = (step cfg p' r).1 ∧
      ∀ k, r.call.key cfg = some k → AgreeAt k (step cfg p r).2 (step cfg p' r).2 := by
  obtain ⟨call, now, reachable⟩ := r
  cases call <;> simp only [step, Call.key] at h ⊢
  case checkAndUpdateSeq d seq =>
    revert h
    unfold checkAndUpdateSeq
    rcases validateSeq cfg seq with _ | _ | n <;> simp only [reduceCtorEq, false_implies,
      implies_true, and_true, Option.some.injEq, forall_eq']
    case ok.some =>
      intro h
      rw [h.get, h.left]
      split
      case isTrue =>
        split
        case h_1 => exact ⟨rfl, h⟩
        case h_2 => exact ⟨rfl, h⟩
        case h_3 => exact ⟨rfl, h.assign_redis _⟩
      split
      case isTrue => exact ⟨rfl, h⟩
      case isFalse => exact ⟨rfl, h.assign_memLastSeq n⟩
  case checkAndStoreNonce d nonce =>
    unfold checkAndStoreNonce
    by_cases hn : nonce = "" <;> simp only [hn, ↓reduceIte, reduceCtorEq, false_implies,
      implies_true, and_true, Option.some.injEq, forall_eq'] at h ⊢
    case neg =>
      rw [h.get, h.left]
      split
      case isTrue =>
        split
        case isTrue => exact ⟨rfl, h⟩
        split
        case isTrue => exact ⟨rfl, h⟩
        case isFalse => exact ⟨rfl, h.assign_redis _⟩
      split
      case isTrue => exact ⟨rfl, h⟩
      case isFalse => exact ⟨rfl, h.assign_memLastSeq 1⟩

end Steps

def Collide (cfg : ReplayConfig) (c c' : Call) : Prop :=
  ∃ k, c.key cfg = some k ∧ c'.key cfg = some k

section Isolation

variable {cfg : ReplayConfig} {D : Call → Prop} {d k nonce : String}

def AgreeFor (cfg : ReplayConfig) (D : Call → Prop) (deviceId : String) (p p' : ReplayProtector) :
    Prop :=
  ∀ c k, D c → c.deviceId = deviceId → c.key cfg = some k → AgreeAt k p p'

-- Calls for a device cannot tell apart what agrees on all the keys of the device.
theorem relation_agreeFor (h : ∀ c c', D c → D c' → Collide cfg c c' → c.deviceId = c'.deviceId)
    (deviceId : String) :
    Unwinding.Relation (step cfg) (D ·.call) (·.call.deviceId = deviceId)
      (AgreeFor cfg D deviceId) where
  answer hd hp hr := (step_congr fun k hk => hr _ k hd hp hk).left
  seen {p p' r} hd hp hr c k hc hi hk := by
    by_cases he : r.call.key cfg = some k
    case pos => exact (step_congr fun k hk => hr _ k hd hp hk).right k he
    have ⟨hm, hs⟩ := hr c k hc hi hk
    have h₁ := agreeAt_step_of_ne (p := p) he
    have h₂ := agreeAt_step_of_ne (p := p') he
    exact ⟨h₁.left.trans (hm.trans h₂.left.symm), h₁.right.trans (hs.trans h₂.right.symm)⟩
  unseen {p p' r} hd hp hr c k hc hi hk := by
    have he : r.call.key cfg ≠ some k := fun he => hp (h _ c hd hc ⟨k, he, hk⟩ ▸ hi)
    have ⟨hm, hs⟩ := hr c k hc hi hk
    have h₁ := agreeAt_step_of_ne (p := p) he
    exact ⟨h₁.left.trans hm, h₁.right.trans hs⟩

theorem isolates_of_not_collide
    (h : ∀ c c', D c → D c' → Collide cfg c c' → c.deviceId = c'.deviceId) {rs : List Request}
    (hd : ∀ r ∈ rs, D r.call) : Isolates cfg rs :=
  fun deviceId => (relation_agreeFor h deviceId).isolated (fun _ _ _ _ _ => ⟨rfl, rfl⟩) hd

theorem step_empty {c : Call} (h : c.key cfg = some k) : (step cfg .empty ⟨c, 0, true⟩).1 = .ok () ∧
      ∃ n e, Record.isLive 0 e ∧
        (step cfg .empty ⟨c, 0, true⟩).2 =
          if cfg.hasRedis then ⟨[], [(k, e)]⟩ else ⟨[(k, n)], []⟩ := by
  cases c
  case checkAndUpdateSeq d seq =>
    obtain ⟨⟨n, hn⟩, rfl⟩ := Call.key_seq_eq_some_iff.mp h
    simp only [step, checkAndUpdateSeq, hn]
    split
    case isTrue => exact ⟨rfl, 0, ⟨strOfInt seq, none⟩, rfl, rfl⟩
    have hl : ¬n ≤ (ReplayProtector.empty.memLastSeq.lookup (lastSeqKey cfg d)).getD 0 :=
      not_le.mpr (pos_of_validateSeq hn)
    rw [if_neg hl]
    exact ⟨rfl, n, ⟨"", none⟩, rfl, rfl⟩
  case checkAndStoreNonce d nonce =>
    obtain ⟨hn, rfl⟩ := Call.key_nonce_eq_some_iff.mp h
    simp only [step, checkAndStoreNonce, if_neg hn]
    split
    case isTrue => exact ⟨rfl, 0, ⟨"1", some 600⟩, rfl, rfl⟩
    case isFalse => exact ⟨rfl, 1, ⟨"1", none⟩, rfl, rfl⟩

theorem step_nonce_of_mem {n : Int} {e : Record} (he : Record.isLive 0 e)
    (hk : (Call.checkAndStoreNonce d nonce).key cfg = some k) :
    (step cfg (if cfg.hasRedis then ⟨[], [(k, e)]⟩ else ⟨[(k, n)], []⟩)
      ⟨.checkAndStoreNonce d nonce, 0, true⟩).1 = replayError "Replay detected (nonce reuse)" := by
  obtain ⟨hn, rfl⟩ := Call.key_nonce_eq_some_iff.mp hk
  simp only [step, checkAndStoreNonce, if_neg hn]
  split
  case isTrue => simp [ReplayProtector.get, he]
  case isFalse => simp

theorem not_isolates_of_collide {c : Call} (hd : c.deviceId ≠ d)
    (hc : Collide cfg c (.checkAndStoreNonce d nonce)) :
    ¬Isolates cfg [⟨c, 0, true⟩, ⟨.checkAndStoreNonce d nonce, 0, true⟩] := by
  intro h
  obtain ⟨k, hk, hk'⟩ := hc
  obtain ⟨-, n, e, he, hs⟩ := step_empty hk
  have ha := (h d).answer_eq hd rfl
  rw [hs, step_nonce_of_mem he hk', (step_empty hk').left] at ha
  cases ha

theorem deviceId_eq_of_lastSeqKey {d d' : String} (h : lastSeqKey cfg d = lastSeqKey cfg d') :
    d = d' := by
  unfold lastSeqKey at h
  split at h
  case isTrue => exact String.append_right_inj _ |>.mp h
  case isFalse => exact h

-- Devices are isolated by the calls that are made unless calls for two of them look up the same key.
theorem isolates_iff (cfg : ReplayConfig) (D : Call → Prop) :
    (∀ rs : List Request, (∀ r ∈ rs, D r.call) → Isolates cfg rs) ↔
      ∀ c c', D c → D c' → Collide cfg c c' → c.deviceId = c'.deviceId := by
  refine ⟨fun h c c' hc hc' hk => ?_, fun h rs hd => isolates_of_not_collide h hd⟩
  by_contra hd
  have hp {c c' : Call} (hc : D c) (hc' : D c') :
      Isolates cfg [⟨c, 0, true⟩, ⟨c', 0, true⟩] :=
    h _ (by simp [hc, hc'])
  cases c'
  case checkAndStoreNonce d nonce => exact not_isolates_of_collide hd hk (hp hc hc')
  case checkAndUpdateSeq d' seq' =>
    cases c
    case checkAndStoreNonce d nonce =>
      obtain ⟨k, hk, hk'⟩ := hk
      exact not_isolates_of_collide (Ne.symm hd) ⟨k, hk', hk⟩ (hp hc' hc)
    case checkAndUpdateSeq d seq =>
      obtain ⟨k, hk, hk'⟩ := hk
      have hs := (Call.key_seq_eq_some_iff.mp hk).right
      have hs' := (Call.key_seq_eq_some_iff.mp hk').right
      exact hd (deviceId_eq_of_lastSeqKey (hs.trans hs'.symm))

end Isolation

def memoryConfig : ReplayConfig :=
  ⟨false, 5, true, "agent"⟩

-- The nonce `x:c` of device `a` is the nonce `c` of device `a:x`, and the nonce `x` of device `a` is
-- where the dictionary has the last number of device `a:x`.
theorem nonce_of_other_device :
    ¬Isolates ⟨true, 5, true, "agent"⟩ [
        ⟨.checkAndStoreNonce "a" "x:c", 0, true⟩, ⟨.checkAndStoreNonce "a:x" "c", 1, true⟩] ∧
      ¬Isolates ⟨false, 5, true, "agent"⟩ [
        ⟨.checkAndStoreNonce "a" "x", 0, true⟩, ⟨.checkAndUpdateSeq "a:x" (.int 1), 1, true⟩] := by
  constructor
  · intro h
    exact absurd (h "a:x") (by unfold Isolated; decide)
  · intro h
    exact absurd (h "a:x") (by unfold Isolated; decide)

section Increasing

variable {cfg : ReplayConfig} {p : ReplayProtector} {d : String} {m n : Int} {r : Option Record}

-- The numbers that are compared as they are. Redis compares doubles.
def Exact (cfg : ReplayConfig) (n : Int) : Prop :=
  cfg.hasRedis → n < 2 ^ 53

-- No number above `m` was accepted from the device.
def LastAtMost (cfg : ReplayConfig) (p : ReplayProtector) (d : String) (m : Int) : Prop :=
  if cfg.hasRedis then
    ∀ r ∈ p.redis.lookup (lastSeqKey cfg d), ∃ l, 0 ≤ l ∧ l ≤ m ∧ r = ⟨.ofList (intText l), none⟩
  else (p.memLastSeq.lookup (lastSeqKey cfg d)).getD 0 ≤ m

theorem lastAtMost_empty (hm : 0 ≤ m) : LastAtMost cfg .empty d m := by
  unfold LastAtMost
  split
  case isTrue => exact fun r hr => absurd hr (by simp [ReplayProtector.empty])
  case isFalse => exact hm

-- Messages of the device with these numbers are all accepted.
def IsAccepted (cfg : ReplayConfig) (p : ReplayProtector) (d : String) (ns : List Int) : Prop :=
  ∀ rs : List Request, rs.map Request.call = ns.map (fun n => .checkAndUpdateSeq d (.int n)) →
    (∀ r ∈ rs, r.reachable) → ∀ a ∈ answers (step cfg) p rs, a.2 = .ok ()

theorem validateSeq_int (h : 0 < n) : validateSeq cfg (.int n) = .ok (some n) := by
  have hn : ¬n ≤ 0 := not_le.mpr h
  simp [validateSeq, Value.int, Value.none, Value.asInt, hn]

theorem toNumber_intText (h : 0 ≤ n) (hn : n < 2 ^ 53) :
    toNumber (.ofList (intText n)) = some n := by
  have hr : Binary64.round n = n := Binary64.round_eq_self (by omega)
  have hp : 2 ^ 53 ≤ limit := by
    unfold limit
    gcongr <;> decide
  have hl : n ≤ limit := hn.le.trans (by exact_mod_cast hp)
  simp only [toNumber, String.toList_ofList, Json.readInt_intText, Option.map_some, hr,
    min_eq_left hl]

theorem compareAndSet_of_lt (h : m < n) (hn : n < 2 ^ 53)
    (hr : ∀ e ∈ r, ∃ l, 0 ≤ l ∧ l ≤ m ∧ e = ⟨.ofList (intText l), none⟩) :
    compareAndSet r (.ofList (intText n)) = some (some ⟨.ofList (intText n), none⟩) := by
  cases r
  case none => rfl
  case some e =>
    obtain ⟨l, h0, hl, rfl⟩ := hr e rfl
    have hln : l < n := hl.trans_lt h
    simp [compareAndSet, toNumber_intText h0 (hln.trans hn), toNumber_intText (h0.trans hln.le) hn,
      hln]

theorem LastAtMost.checkAndUpdateSeq (hl : LastAtMost cfg p d m) (hm : 0 ≤ m) (h : m < n)
    (he : Exact cfg n) (now : Int) :
    (checkAndUpdateSeq cfg p now true d (.int n)).1 = .ok () ∧
      LastAtMost cfg (checkAndUpdateSeq cfg p now true d (.int n)).2 d n := by
  have hp : 0 < n := hm.trans_lt h
  unfold LastAtMost at hl ⊢
  simp only [Replay.checkAndUpdateSeq, validateSeq_int hp]
  split at hl
  case isTrue hr =>
    have hg : ∀ e ∈ p.get now (lastSeqKey cfg d), ∃ l, 0 ≤ l ∧ l ≤ m ∧
        e = ⟨.ofList (intText l), none⟩ := fun e hm =>
      hl e (Option.filter_eq_some_iff.mp hm).left
    have hs : strOfInt (.int n) = .ofList (intText n) := rfl
    simp only [hr, ↓reduceIte, hs, compareAndSet_of_lt h (he hr) hg, Json.lookup_assign_self,
      Option.mem_some, true_and]
    rintro r rfl
    exact ⟨n, hp.le, le_rfl, rfl⟩
  case isFalse hr =>
    have hn : ¬n ≤ (p.memLastSeq.lookup (lastSeqKey cfg d)).getD 0 := not_le.mpr (hl.trans_lt h)
    simp [hr, hn, Json.lookup_assign_self]

theorem LastAtMost.isAccepted {ns : List Int} (hl : LastAtMost cfg p d m) (hm : 0 ≤ m)
    (hn : (m :: ns).Pairwise (· < ·)) (he : ∀ n ∈ ns, Exact cfg n) : IsAccepted cfg p d ns := by
  induction ns generalizing p m
  case nil =>
    intro rs hr _
    rw [List.map_eq_nil_iff.mp hr]
    simp [answers]
  case cons n ns hi =>
    intro rs hr hc
    obtain ⟨r, rs, rfl, hr, ht⟩ := List.map_eq_cons_iff.mp hr
    obtain ⟨hr', hc⟩ := List.forall_mem_cons.mp hc
    obtain ⟨he, ht'⟩ := List.forall_mem_cons.mp he
    obtain ⟨hm', hn⟩ := List.pairwise_cons.mp hn
    have hmn : m < n := hm' n List.mem_cons_self
    have hs : step cfg p r = Replay.checkAndUpdateSeq cfg p r.now true d (.int n) := by
      simp only [step, hr, hr']
    obtain ⟨ha, hl⟩ := hl.checkAndUpdateSeq hm hmn he r.now
    intro a hx
    cases List.mem_cons.mp hx
    case inl hx =>
      rw [hx, hs]
      exact ha
    case inr hx =>
      rw [hs] at hx
      exact hi hl (hm.trans hmn.le) hn ht' rs ht hc a hx

def IsNewer (cfg : ReplayConfig) (p : ReplayProtector) (now : Int) (reachable : Bool) (d : String)
    (n : Int) : Prop :=
  0 < n ∧
    if cfg.hasRedis then
      reachable ∧ ∀ r ∈ p.get now (lastSeqKey cfg d),
        ∃ c m, toNumber r.value = some c ∧ toNumber (.ofList (intText n)) = some m ∧ c < m
    else (p.memLastSeq.lookup (lastSeqKey cfg d)).getD 0 < n

theorem exists_compareAndSet_iff {arg : String} : (∃ e, compareAndSet r arg = some (some e)) ↔
      ∀ e ∈ r, ∃ c m, toNumber e.value = some c ∧ toNumber arg = some m ∧ c < m := by
  cases r
  case none => simp [compareAndSet]
  case some e =>
    cases hc : toNumber e.value <;> cases hn : toNumber arg <;> simp [compareAndSet, hc, hn]

theorem checkAndUpdateSeq_int_eq_ok_iff {now : Int} {reachable : Bool} :
    (checkAndUpdateSeq cfg p now reachable d (.int n)).1 = .ok () ↔
      IsNewer cfg p now reachable d n := by
  unfold IsNewer
  by_cases hn : 0 < n
  case neg =>
    have he : validateSeq cfg (.int n) = .error (.valueError "seq must be > 0") := by
      simp [validateSeq, Value.int, Value.none, Value.asInt, not_lt.mp hn]
    simp [Replay.checkAndUpdateSeq, he, hn]
  case pos =>
    simp only [Replay.checkAndUpdateSeq, validateSeq_int hn, hn, true_and]
    split
    case isTrue hr =>
      have hs : strOfInt (.int n) = .ofList (intText n) := rfl
      rw [hs, ← exists_compareAndSet_iff]
      cases reachable
      case false => simp
      case true =>
        simp only [↓reduceIte, true_and]
        split <;> simp [*, replayError]
    case isFalse hr =>
      split
      case isTrue h => simp [replayError, not_lt.mpr h]
      case isFalse h => simp [not_le.mp h]

end Increasing

section Nonces

variable {cfg : ReplayConfig} {p : ReplayProtector} {d nonce : String} {t : Int}

-- The nonce was accepted from the device at a time, and is not forgotten before it expires.
def Remembers (cfg : ReplayConfig) (p : ReplayProtector) (d nonce : String) (t : Int) : Prop :=
  if cfg.hasRedis then
    ∃ r ∈ p.redis.lookup (nonceKey cfg d nonce), ∃ e ∈ r.expireAt, t + nonceTtlSeconds ≤ e
  else (p.memLastSeq.lookup (nonceKey cfg d nonce)).isSome

theorem isSome_lookup_assign {α : Type} {k l : String} {v : α} {ms : List (String × α)}
    (h : (ms.lookup k).isSome) : ((assign l v ms).lookup k).isSome := by
  by_cases hk : k = l
  case pos =>
    rw [hk, Json.lookup_assign_self]
    rfl
  case neg => rwa [Json.lookup_assign_of_ne hk]

theorem lastSeqKey_ne_nonceKey_of_hasRedis {d' : String} (h : cfg.hasRedis) :
    lastSeqKey cfg d' ≠ nonceKey cfg d nonce := by
  simp [lastSeqKey, nonceKey, h, ← String.toList_inj]

theorem snd_checkAndStoreNonce (cfg : ReplayConfig) (p : ReplayProtector) (now : Int)
    (reachable : Bool) (d nonce : String) :
    (checkAndStoreNonce cfg p now reachable d nonce).2 = p ∨
      (checkAndStoreNonce cfg p now reachable d nonce).1 = .ok () := by
  simp only [checkAndStoreNonce]
  split
  case isTrue => exact .inl rfl
  split
  case isTrue =>
    split
    case isTrue => exact .inl rfl
    split
    case isTrue => exact .inl rfl
    case isFalse => exact .inr rfl
  split
  case isTrue => exact .inl rfl
  case isFalse => exact .inr rfl

theorem remembers_of_accepted {now : Int} {reachable : Bool}
    (h : (checkAndStoreNonce cfg p now reachable d nonce).1 = .ok ()) :
    Remembers cfg (checkAndStoreNonce cfg p now reachable d nonce).2 d nonce now := by
  revert h
  unfold Remembers
  simp only [checkAndStoreNonce]
  split
  case isTrue => exact fun h => by cases h
  split
  case isTrue =>
    split
    case isTrue => exact fun h => by cases h
    split
    case isTrue => exact fun h => by cases h
    exact fun _ => ⟨_, Json.lookup_assign_self .., _, rfl, le_rfl⟩
  split
  case isTrue => exact fun h => by cases h
  exact fun _ => by simp [Json.lookup_assign_self]

namespace Remembers

variable {reachable : Bool}

theorem expired {now : Int} (h : Remembers cfg p d nonce t)
    (ha : (checkAndStoreNonce cfg p now reachable d nonce).1 = .ok ()) :
    cfg.hasRedis ∧ t + nonceTtlSeconds ≤ now := by
  revert ha
  unfold Remembers at h
  simp only [checkAndStoreNonce]
  split
  case isTrue => exact fun h => by cases h
  split
  case isTrue hr =>
    rw [if_pos hr] at h
    obtain ⟨r, hl, e, he, ht⟩ := h
    split
    case isTrue => exact fun h => by cases h
    split
    case isTrue => exact fun h => by cases h
    case isFalse hn =>
      intro _
      have hx : r.isLive now = false := by
        simpa [ReplayProtector.get, Option.mem_def.mp hl] using hn
      have hle : ¬now < e := by simpa [Record.isLive, Option.mem_def.mp he] using hx
      exact ⟨hr, ht.trans (not_lt.mp hle)⟩
  case isFalse hr =>
    rw [if_neg hr] at h
    rw [if_pos h]
    exact fun h => by cases h

theorem mono {t' : Int} (h : Remembers cfg p d nonce t) (ht : t' ≤ t) :
    Remembers cfg p d nonce t' := by
  unfold Remembers at h ⊢
  split at h
  case isTrue hr =>
    obtain ⟨r, hl, e, he, hle⟩ := h
    rw [if_pos hr]
    exact ⟨r, hl, e, he, (Int.add_le_add_right ht _).trans hle⟩
  case isFalse hr =>
    rw [if_neg hr]
    exact h

theorem of_agreeAt {p' : ReplayProtector} (h : Remembers cfg p d nonce t)
    (ha : AgreeAt (nonceKey cfg d nonce) p' p) : Remembers cfg p' d nonce t := by
  unfold Remembers at h ⊢
  rwa [ha.left, ha.right]

theorem checkAndStoreNonce {d' nonce' : String} {now : Int}
    (h : Remembers cfg p d nonce t) (hk : nonceKey cfg d' nonce' = nonceKey cfg d nonce) :
    Remembers cfg (checkAndStoreNonce cfg p now reachable d' nonce').2 d nonce t := by
  have h' : Remembers cfg p d' nonce' t := by
    unfold Remembers at h ⊢
    rwa [hk]
  cases snd_checkAndStoreNonce cfg p now reachable d' nonce'
  case inl he => rwa [he]
  case inr ha =>
    have ht : t + 600 ≤ now := (h'.expired ha).right
    have hle : t ≤ now := by omega
    have hm := (remembers_of_accepted ha).mono hle
    unfold Remembers at hm ⊢
    rwa [hk] at hm

theorem step (h : Remembers cfg p d nonce t) (r : Request) :
    Remembers cfg (step cfg p r).2 d nonce t := by
  by_cases he : r.call.key cfg = some (nonceKey cfg d nonce)
  case neg => exact h.of_agreeAt (agreeAt_step_of_ne he)
  obtain ⟨call, now, reachable⟩ := r
  cases call
  case checkAndStoreNonce d' nonce' =>
    exact h.checkAndStoreNonce (Call.key_nonce_eq_some_iff.mp he).right
  case checkAndUpdateSeq d' seq =>
    have hk := (Call.key_seq_eq_some_iff.mp he).right
    have hr : ¬cfg.hasRedis := fun hr => lastSeqKey_ne_nonceKey_of_hasRedis hr hk
    unfold Remembers at h ⊢
    rw [if_neg hr] at h ⊢
    obtain hs | ⟨k, _, ⟨n, hs⟩ | ⟨e, hs⟩⟩ :=
      snd_step cfg p ⟨.checkAndUpdateSeq d' seq, now, reachable⟩
    · rwa [hs]
    · rw [hs]
      exact isSome_lookup_assign h
    · rwa [hs]

end Remembers

end Nonces

section Reached

variable {cfg : ReplayConfig} {p : ReplayProtector} {d : String} {m n : Int} {seq : Value}
variable {now : Int} {reachable : Bool}

-- No number up to `n` is accepted from the device any more.
def Reached (cfg : ReplayConfig) (p : ReplayProtector) (d : String) (n : Int) : Prop :=
  if cfg.hasRedis then
    ∃ r ∈ p.redis.lookup (lastSeqKey cfg d), r.expireAt = none ∧
      ∀ c ∈ toNumber r.value, ∃ l, n ≤ l ∧ c = min (Binary64.round l) limit
  else n ≤ (p.memLastSeq.lookup (lastSeqKey cfg d)).getD 0

theorem Reached.mono (h : Reached cfg p d n) (hm : m ≤ n) : Reached cfg p d m := by
  unfold Reached at h ⊢
  split at h
  case isTrue hr =>
    obtain ⟨r, hl, hx, hc⟩ := h
    rw [if_pos hr]
    refine ⟨r, hl, hx, fun c hc' => ?_⟩
    obtain ⟨l, hnl, he⟩ := hc c hc'
    exact ⟨l, hm.trans hnl, he⟩
  case isFalse hr =>
    rw [if_neg hr]
    exact hm.trans h

theorem toNumber_strOfInt {c : Int} (hn : validateSeq cfg seq = .ok (some n))
    (hc : toNumber (strOfInt seq) = some c) : c = min (Binary64.round n) limit := by
  have ha : seq.asInt = some n := by
    unfold validateSeq at hn
    repeat' split at hn
    all_goals cases hn
    assumption
  unfold strOfInt Value.asInt at *
  split at ha
  case h_1 k hj =>
    obtain rfl := Option.some.inj ha
    simp only [hj, toNumber, String.toList_ofList, Json.readInt_intText, Option.map_some] at hc
    exact (Option.some.inj hc).symm
  case h_2 b hj =>
    have hb (b : Bool) : toNumber (if b then "True" else "False") = none := by cases b <;> rfl
    cases b <;> simp only [hj] at hc
    · cases (hb false).symm.trans hc
    · cases (hb true).symm.trans hc
  case h_3 => cases ha

theorem lt_of_double_lt (h0 : 0 < n)
    (h : min (Binary64.round m) limit < min (Binary64.round n) limit) :
    m < n := by
  by_contra hle
  have hr : Binary64.round n ≤ Binary64.round m := by
    rw [Binary64.round, Binary64.round, if_neg (by omega), if_neg (by omega)]
    exact_mod_cast Binary64.roundNat_mono (by omega)
  exact absurd h (not_lt.mpr (min_le_min_right _ hr))

theorem eq_of_compareAndSet {r : Option Record} {arg : String} {e : Record}
    (h : compareAndSet r arg = some (some e)) : e = ⟨arg, none⟩ := by
  cases r
  case none => simpa [compareAndSet] using h.symm
  case some r =>
    cases hc : toNumber r.value <;> cases hn : toNumber arg <;> simp [compareAndSet, hc, hn] at h
    exact h.right.symm

theorem reached_of_accepted (hm : validateSeq cfg seq = .ok (some m))
    (ha : (checkAndUpdateSeq cfg p now reachable d seq).1 = .ok ()) :
    (∀ n, Reached cfg p d n → n < m) ∧
      Reached cfg (checkAndUpdateSeq cfg p now reachable d seq).2 d m := by
  revert ha
  unfold Reached
  simp only [checkAndUpdateSeq, hm]
  split
  case isTrue hr =>
    split
    case h_1 | h_2 => exact fun h => by cases h
    case h_3 e he =>
      intro _
      obtain ⟨_, he⟩ := Option.ite_none_right_eq_some.mp he
      refine ⟨fun n ⟨r, hl, hx, hc⟩ => ?_, e, Json.lookup_assign_self .., ?_⟩
      · have hg : p.get now (lastSeqKey cfg d) = some r := by
          simp [ReplayProtector.get, Option.mem_def.mp hl, Record.isLive, hx]
        obtain ⟨c, k, hc', hk, hlt⟩ := exists_compareAndSet_iff.mp ⟨e, he⟩ r hg
        obtain ⟨l, hnl, rfl⟩ := hc c hc'
        rw [toNumber_strOfInt hm hk] at hlt
        exact hnl.trans_lt (lt_of_double_lt (pos_of_validateSeq hm) hlt)
      · rw [eq_of_compareAndSet he]
        exact ⟨rfl, fun c hc => ⟨m, le_rfl, toNumber_strOfInt hm hc⟩⟩
  case isFalse hr =>
    split
    case isTrue => exact fun h => by cases h
    case isFalse h => exact fun _ => ⟨fun n hn => hn.trans_lt (not_le.mp h), by
      rw [Json.lookup_assign_self]; exact le_rfl⟩

theorem snd_checkAndUpdateSeq (cfg : ReplayConfig) (p : ReplayProtector) (now : Int)
    (reachable : Bool) (d : String) (seq : Value) :
    (checkAndUpdateSeq cfg p now reachable d seq).2 = p ∨
      (∃ n, validateSeq cfg seq = .ok (some n)) ∧
        (checkAndUpdateSeq cfg p now reachable d seq).1 = .ok () := by
  unfold checkAndUpdateSeq
  rcases validateSeq cfg seq with _ | _ | n <;> dsimp only
  all_goals repeat' split
  all_goals simp

theorem Reached.step (h : Reached cfg p d n) (r : Request) : Reached cfg (step cfg p r).2 d n := by
  by_cases he : r.call.key cfg = some (lastSeqKey cfg d)
  case neg =>
    have ha := agreeAt_step_of_ne (p := p) he
    unfold Reached at h ⊢
    rwa [ha.left, ha.right]
  case pos =>
    obtain ⟨call, now, reachable⟩ := r
    cases call
    case checkAndUpdateSeq d' seq =>
      obtain rfl := deviceId_eq_of_lastSeqKey (Call.key_seq_eq_some_iff.mp he).right
      obtain hs | ⟨⟨m, hm⟩, ha⟩ := snd_checkAndUpdateSeq cfg p now reachable d' seq
      · rwa [Replay.step, hs]
      · obtain ⟨hlt, hr⟩ := reached_of_accepted hm ha
        exact hr.mono (hlt n h).le
    case checkAndStoreNonce d' nonce =>
      -- Only in memory, where the nonce is refused if there is a number.
      have hk := (Call.key_nonce_eq_some_iff.mp he).right
      have hr : ¬cfg.hasRedis := fun hr => lastSeqKey_ne_nonceKey_of_hasRedis hr hk.symm
      unfold Reached at h ⊢
      rw [if_neg hr] at h ⊢
      simp only [Replay.step, checkAndStoreNonce, hk, if_neg hr]
      repeat' split
      case isTrue => exact h
      case isTrue => exact h
      case isFalse hn =>
        rw [Option.not_isSome_iff_eq_none.mp hn] at h
        rw [Json.lookup_assign_self]
        exact h.trans (by decide)

def Call.number (cfg : ReplayConfig) (d : String) : Call → Option Int
  | checkAndUpdateSeq d' seq => if d' = d then (validateSeq cfg seq).toOption.join else none
  | _ => none

theorem Call.number_eq_some {c : Call} (h : c.number cfg d = some n) :
    ∃ seq, c = .checkAndUpdateSeq d seq ∧ validateSeq cfg seq = .ok (some n) := by
  cases c
  case checkAndStoreNonce => cases h
  case checkAndUpdateSeq d' seq =>
    obtain ⟨rfl, hv⟩ := Option.ite_none_right_eq_some.mp h
    cases hs : validateSeq cfg seq <;> rw [hs] at hv
    case error => cases hv
    case ok => exact ⟨seq, rfl, hs.trans (congrArg _ hv)⟩

-- Whatever calls are made, at whatever times, and however often Redis fails.
theorem accepted_increasing (cfg : ReplayConfig) (p : ReplayProtector) (d : String)
    (rs : List Request) :
    (accepted (.ok ()) (·.call.number cfg d) (answers (step cfg) p rs)).Pairwise (· < ·) := by
  have hc {p : ReplayProtector} {r : Request} {m : Int} (ha : (step cfg p r).1 = .ok ())
      (h : r.call.number cfg d = some m) :
      (∀ n, Reached cfg p d n → n < m) ∧ Reached cfg (step cfg p r).2 d m := by
    obtain ⟨seq, hs, hv⟩ := Call.number_eq_some h
    simp only [step, hs] at ha ⊢
    exact reached_of_accepted hv ha
  exact Unwinding.pairwise_accepted (T := fun _ _ => True) (fun _ p => Reached cfg p d)
    (fun r _ h => h.step r) (fun ha h => (hc ha h).right) (fun _ hp ha h => (hc ha h).left _ hp) p
    (List.pairwise_of_forall fun _ _ => trivial)

end Reached

section Removal

variable {cfg : ReplayConfig} {p : ReplayProtector} {d nonce : String} {t : Int}

-- Redis removes a key at some time after it has expired.
def ReplayProtector.remove (p : ReplayProtector) (now : Int) (keys : List String) :
    ReplayProtector :=
  { p with redis := p.redis.filter fun e => e.1 ∉ keys ∨ (p.get now e.1).isSome }

structure Turn extends Request where
  -- The keys among which Redis has removed those that have expired since the call before.
  keys : List String

def turn (cfg : ReplayConfig) (p : ReplayProtector) (r : Turn) :
    Except Raised Unit × ReplayProtector :=
  step cfg (p.remove r.now r.keys) r.toRequest

theorem lookup_filter_keys {α : Type} {P : String → Prop} [DecidablePred P] {k : String} (h : P k)
    (ms : List (String × α)) : (ms.filter (P ·.1)).lookup k = ms.lookup k := by
  induction ms
  case nil => rfl
  case cons m ms hi =>
    obtain ⟨l, v⟩ := m
    by_cases hk : k = l
    case pos =>
      have hl : P l := hk ▸ h
      simp [hk, hl]
    case neg =>
      have hb : (k == l) = false := beq_false_of_ne hk
      by_cases hl : P l <;> simp [List.lookup_cons, hl, hb, hi]

theorem Remembers.remove {now : Int} (h : Remembers cfg p d nonce t) (keys : List String) :
    Remembers cfg (p.remove now keys) d nonce t ∨ cfg.hasRedis ∧ t + nonceTtlSeconds ≤ now := by
  unfold Remembers at h ⊢
  split at h
  case isFalse hr => exact .inl ((if_neg hr).symm ▸ h)
  case isTrue hr =>
    obtain ⟨r, hl, e, he, ht⟩ := h
    rw [if_pos hr]
    by_cases hn : now < e
    case neg => exact .inr ⟨hr, ht.trans (not_lt.mp hn)⟩
    have hg : (p.get now (nonceKey cfg d nonce)).isSome := by
      simp [ReplayProtector.get, Option.mem_def.mp hl, Record.isLive, Option.mem_def.mp he, hn]
    refine .inl ⟨r, ?_, e, he, ht⟩
    rwa [ReplayProtector.remove, lookup_filter_keys
      (P := fun k => k ∉ keys ∨ (p.get now k).isSome) (.inr hg)]

-- Without Redis a nonce is accepted once, and with Redis once in ten minutes, as long as the clock of
-- the server does not go back.
theorem nonce_accepted_apart (cfg : ReplayConfig) (p : ReplayProtector) (d nonce : String)
    {rs : List Turn} (h : rs.Pairwise (·.now ≤ ·.now)) :
    (accepted (.ok ()) (fun r => if r.call = .checkAndStoreNonce d nonce then some r.now else none)
      (answers (turn cfg) p rs)).Pairwise fun t t' => cfg.hasRedis ∧ t + nonceTtlSeconds ≤ t' := by
  refine Unwinding.pairwise_accepted
    (fun r p t => Remembers cfg p d nonce t ∨ cfg.hasRedis ∧ t + nonceTtlSeconds ≤ r.now) ?_ ?_ ?_ p h
  · intro p t r r' hle hp
    obtain hp | ⟨hr, ht⟩ := hp
    · exact (hp.remove r'.keys).imp_left fun hp => hp.step r'.toRequest
    · exact .inr ⟨hr, ht.trans hle⟩
  · intro p r t ha h
    obtain ⟨hr, rfl⟩ := by simpa using h
    simp only [turn, step, hr] at ha ⊢
    exact .inl (remembers_of_accepted ha)
  · intro p t r r' t' hle hp ha h
    obtain ⟨hr, rfl⟩ := by simpa using h
    simp only [turn, step, hr] at ha
    obtain hp | ⟨hr, ht⟩ := hp
    · exact (hp.remove r'.keys).elim (fun hp => hp.expired ha) id
    · exact ⟨hr, ht.trans hle⟩

def redisConfig : ReplayConfig :=
  ⟨true, 5, true, "agent"⟩

def sampleTurns : List Turn :=
  [0, 599, 600, 601].map fun now =>
    ⟨⟨.checkAndStoreNonce "a" "x", now, true⟩, ["agent:nonce:a:x"]⟩

theorem nonce_accepted_apart_sample :
    (accepted (.ok ()) (fun r => if r.call = .checkAndStoreNonce "a" "x" then some r.now else none)
      (answers (turn redisConfig) .empty sampleTurns)) = [0, 600] ∧
    (accepted (.ok ()) (fun r => if r.call = .checkAndStoreNonce "a" "x" then some r.now else none)
      (answers (turn redisConfig) .empty sampleTurns)).Pairwise
        fun t t' => redisConfig.hasRedis ∧ t + nonceTtlSeconds ≤ t' :=
  ⟨by decide, nonce_accepted_apart redisConfig .empty "a" "x" (by decide)⟩

end Removal

end Replay

end Gateway
