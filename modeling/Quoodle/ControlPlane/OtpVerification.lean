import Quoodle.ControlPlane.Accounts
import Quoodle.Data.Exclusion

-- Requests that verify one-time codes, where their reads and writes of the database overlap.
namespace ControlPlane.OtpVerification

open Gateway (Value)
open Accounts (lower newViewer)
open Overlap (Excludes Excluding Frame Left)
open Transition (Steps)

structure Shared where
  accounts : Accounts
  now : Int
  -- The challenges whose hash was compared with a code, once for each time.
  compared : List String
  -- The challenges for which a session was issued.
  issued : List String

inductive Phase where
  | compare
  | reject
  | lookup
  | register
  | accept (u : Account)
  | issue (userId : String)

structure Call where
  data : Authentication.OtpData
  fresh : FreshTokens
  challenge : OtpChallenge
  phase : Phase

inductive Event where
  | wait (seconds : Nat)

namespace Call

variable (c : Call)

def email : String :=
  lower (trim c.data.email)

def id : String :=
  c.challenge.id

def counted : OtpChallenge :=
  { c.challenge with attempts := c.challenge.attempts + 1 }

def consumed (now : Int) (userId : Option String) : OtpChallenge :=
  { c.counted with userId := userId, consumedAt := some now }

end Call

def saveRow (loaded changed row : OtpChallenge) : OtpChallenge :=
  { row with
    userId := Rows.merge loaded.userId changed.userId row.userId
    attempts := Rows.merge loaded.attempts changed.attempts row.attempts
    consumedAt := Rows.merge loaded.consumedAt changed.consumedAt row.consumedAt }

def Shared.save (s : Shared) (loaded changed : OtpChallenge) : Shared :=
  { s with accounts.challenges :=
      Rows.update OtpChallenge.id s.accounts.challenges loaded.id (saveRow loaded changed) }

section Source

variable (auth : Authentication)

def begin (s : Shared) (body : Value) (fresh : FreshTokens) : Option Call :=
  match auth.otpData body with
  | none => none
  | some d =>
    match s.accounts.challenges.find? fun c =>
        c.id = d.challengeId ∧ c.email = lower (trim d.email) with
    | none => none
    | some c =>
      if c.consumedAt.isSome ∨ c.expiresAt < s.now ∨ c.maxAttempts ≤ c.attempts then none
      else some ⟨d, fresh, c, .compare⟩

def issue (s : Shared) (c : Call) (userId : String) : Shared :=
  match s.accounts.issue auth s.now c.fresh userId c.fresh.sessionId with
  | (accounts, .issued ..) => { s with accounts, issued := s.issued ++ [c.id] }
  | (_, _) => s

def resume (s : Shared) (c : Call) : Shared × Option Call :=
  match c.phase with
  | .compare =>
    let phase := if auth.checkHash c.data.otp c.challenge.otpHash then .lookup else .reject
    ({ s with compared := s.compared ++ [c.id] }, some { c with phase })
  | .reject => (s.save c.challenge c.counted, none)
  | .lookup =>
    match s.accounts.challengedUser c.counted c.email with
    | some u => (s, some { c with phase := .accept u })
    | none => (s, some { c with phase := .register })
  | .register =>
    let u := newViewer s.now c.fresh c.email
    match s.accounts.createUser u with
    | some accounts => ({ s with accounts }, some { c with phase := .accept u })
    | none => (s, none)
  | .accept u =>
    if !u.isActive then (s, none)
    else if lower u.email ≠ lower c.email then
      (s.save c.challenge (c.consumed s.now c.challenge.userId), none)
    else
      (s.save c.challenge (c.consumed s.now (some u.id)), some { c with phase := .issue u.id })
  | .issue userId => (issue auth s c userId, none)

def system : Overlap.System Shared Call (Value × FreshTokens) Unit Event where
  begin s i := (s, begin auth s i.1 i.2)
  resume s c _ := resume auth s c
  change s
    | .wait seconds => { s with now := s.now + seconds }

end Source

abbrev State := Overlap.State Shared Call
abbrev Action := Overlap.Action (Value × FreshTokens) Unit Event

-- Every hash was compared no more often than allowed, and every challenge was used for one session at
-- most.
def OneTime (s : Shared) : Prop :=
  ∀ c ∈ s.accounts.challenges,
    s.compared.count c.id ≤ c.maxAttempts ∧ s.issued.count c.id ≤ 1

instance : DecidablePred OneTime := fun s =>
  inferInstanceAs (Decidable (∀ c ∈ s.accounts.challenges, _))

-- Once the code was compared, the request gets as far as to save the challenge.
def Call.Saves (s : Shared) (c : Call) : Prop :=
  match c.phase with
  | .register => (s.accounts.createUser (newViewer s.now c.fresh c.email)).isSome
  | .accept u => u.isActive
  | .compare | .reject | .lookup | .issue _ => True

instance (s : Shared) : DecidablePred (Call.Saves s)
  | ⟨_, _, _, .register⟩ | ⟨_, _, _, .accept _⟩ => inferInstanceAs (Decidable (_ = true))
  | ⟨_, _, _, .compare⟩ | ⟨_, _, _, .reject⟩ | ⟨_, _, _, .lookup⟩ | ⟨_, _, _, .issue _⟩ =>
    .isTrue trivial

def Call.CanFail (c : Call) : Prop :=
  match c.phase with
  | .compare | .issue _ => True
  | .reject | .lookup | .register | .accept _ => False

-- A challenge is read only while no other request is between its read and its last write, and requests
-- save what they have counted.
def Serial (auth : Authentication) (s : State) : Action → Prop
  | .begin _ i => ∀ c ∈ begin auth s.shared i.1 i.2, ∀ k, ∀ c' ∈ s.tasks k, c'.id ≠ c.id
  | .resume k _ => ∀ c ∈ s.tasks k, c.Saves s.shared
  | .fail k => ∀ c ∈ s.tasks k, c.CanFail
  | .change _ => True

variable {auth : Authentication} {s : Shared} {c : Call} {id : String}

def rowsOf (a : Accounts) (id : String) : List OtpChallenge :=
  a.challenges.filter (·.id = id)

-- A row that no request works on has counted every comparison.
structure Settled (s : Shared) (id : String) (row : OtpChallenge) : Prop where
  attempts : s.compared.count id ≤ row.attempts
  max : s.compared.count id ≤ row.maxAttempts
  once : s.issued.count id ≤ 1
  consumed : row.consumedAt = none → s.issued.count id = 0

def SettledAt (s : Shared) (id : String) : Prop :=
  ∃ row : Option OtpChallenge, rowsOf s.accounts id = row.toList ∧ ∀ r ∈ row, Settled s id r

-- The row is as it was read, and its attempts are behind by what the request has compared.
structure Open (s : Shared) (c : Call) (pending : Nat) : Prop where
  rows : rowsOf s.accounts c.id = [c.challenge]
  free : c.challenge.consumedAt = none
  lt : c.challenge.attempts < c.challenge.maxAttempts
  compared : s.compared.count c.id ≤ c.challenge.attempts + pending
  issued : s.issued.count c.id = 0

structure Consumed (s : Shared) (c : Call) (row : OtpChallenge) : Prop where
  rows : rowsOf s.accounts c.id = [row]
  consumed : row.consumedAt.isSome
  attempts : s.compared.count c.id ≤ row.attempts
  max : s.compared.count c.id ≤ row.maxAttempts
  issued : s.issued.count c.id = 0

def Working (s : Shared) (c : Call) : Prop :=
  match c.phase with
  | .compare => Open s c 0
  | .reject | .lookup | .register | .accept _ => Open s c 1
  | .issue _ => ∃ row, Consumed s c row

section Frames

-- Two states are the same as far as one challenge is concerned.
structure Agree (s s' : Shared) (id : String) : Prop where
  rows : rowsOf s'.accounts id = rowsOf s.accounts id
  compared : s'.compared.count id = s.compared.count id
  issued : s'.issued.count id = s.issued.count id

variable {s' : Shared}

theorem SettledAt.congr (h : SettledAt s id) (ha : Agree s s' id) : SettledAt s' id := by
  obtain ⟨row, hr, hs⟩ := h
  refine ⟨row, ha.rows.trans hr, fun r hm => ?_⟩
  have ⟨h₁, h₂, h₃, h₄⟩ := hs r hm
  rw [← ha.compared] at h₁ h₂
  rw [← ha.issued] at h₃ h₄
  exact ⟨h₁, h₂, h₃, h₄⟩

theorem Open.congr {pending : Nat} (h : Open s c pending) (ha : Agree s s' c.id) :
    Open s' c pending where
  rows := ha.rows.trans h.rows
  free := h.free
  lt := h.lt
  compared := ha.compared.symm ▸ h.compared
  issued := ha.issued.trans h.issued

theorem Consumed.congr {row : OtpChallenge} (h : Consumed s c row) (ha : Agree s s' c.id) :
    Consumed s' c row where
  rows := ha.rows.trans h.rows
  consumed := h.consumed
  attempts := ha.compared.symm ▸ h.attempts
  max := ha.compared.symm ▸ h.max
  issued := ha.issued.trans h.issued

theorem Working.congr (h : Working s c) (ha : Agree s s' c.id) : Working s' c := by
  unfold Working at h ⊢
  split at h
  case h_6 =>
    obtain ⟨row, h⟩ := h
    exact ⟨row, h.congr ha⟩
  all_goals exact h.congr ha

theorem frame_of_agree (h : ∀ y, y ≠ id → Agree s s' y) :
    Frame Call.id SettledAt Working id s s' where
  free y hy hs := hs.congr (h y hy)
  held c hc hw := hw.congr (h c.id hc)

theorem Agree.refl : Agree s s id :=
  ⟨rfl, rfl, rfl⟩

theorem rowsOf_save {loaded changed : OtpChallenge} :
    rowsOf (s.save loaded changed).accounts id =
      if loaded.id = id then (rowsOf s.accounts id).map (saveRow loaded changed)
      else rowsOf s.accounts id :=
  Rows.filter_update fun _ => rfl

theorem agree_save {changed : OtpChallenge} (h : id ≠ c.id) :
    Agree s (s.save c.challenge changed) id :=
  ⟨rowsOf_save.trans (if_neg h.symm), rfl, rfl⟩

theorem challenges_createUser {a a' : Accounts} {u : Account} (h : a.createUser u = some a') :
    a'.challenges = a.challenges := by
  unfold Accounts.createUser at h
  split at h <;> cases h
  rfl

theorem issue_cases (auth : Authentication) (s : Shared) (c : Call) (userId : String) :
    issue auth s c userId = s ∨
      ∃ accounts, accounts.challenges = s.accounts.challenges ∧
        issue auth s c userId = { s with accounts, issued := s.issued ++ [c.id] } := by
  unfold issue
  split
  case h_2 => exact .inl rfl
  case h_1 accounts _ _ _ h =>
    refine .inr ⟨accounts, ?_, rfl⟩
    unfold Accounts.issue at h
    split at h
    case h_2 => cases h
    case h_1 s' hc =>
      obtain rfl := (Prod.mk.inj h).left
      unfold Accounts.createToken at hc
      split at hc <;> cases hc
      rfl

theorem count_append_of_ne {ids : List String} {x : String} (h : id ≠ x) :
    (ids ++ [x]).count id = ids.count id := by
  rw [List.count_append, List.count_singleton, if_neg (by simpa using h.symm), Nat.add_zero]

theorem frame_resume :
    Frame Call.id SettledAt Working c.id s (resume auth s c).1 := by
  refine frame_of_agree fun y hy => ?_
  unfold resume
  split
  case h_1 => exact ⟨rfl, count_append_of_ne hy, rfl⟩
  case h_2 => exact agree_save hy
  case h_3 => split <;> exact .refl
  case h_4 =>
    simp only
    split
    case h_1 accounts ha =>
      exact ⟨congrArg _ (challenges_createUser ha), rfl, rfl⟩
    case h_2 => exact .refl
  case h_5 =>
    split
    case isTrue => exact .refl
    case isFalse => split <;> exact agree_save hy
  case h_6 userId _ =>
    obtain hi | ⟨accounts, ha, hi⟩ := issue_cases auth s c userId
    · simp only [hi]
      exact .refl
    · simp only [hi]
      exact ⟨congrArg _ ha, rfl, count_append_of_ne hy⟩

end Frames

section Requests

theorem saveRow_loaded {loaded changed : OtpChallenge} :
    saveRow loaded changed loaded =
      { loaded with
        userId := changed.userId
        attempts := changed.attempts
        consumedAt := changed.consumedAt } := by
  simp only [saveRow, Rows.merge_current]

variable {row : OtpChallenge} {fresh : FreshTokens}

theorem SettledAt.of_row (hr : rowsOf s.accounts id = [row])
    (h : Settled s id row) : SettledAt s id :=
  ⟨some row, hr, fun _ hm => Option.some.inj hm ▸ h⟩

namespace Open

variable {pending : Nat} {changed : OtpChallenge} {phase : Phase}

theorem rows_save (h : Open s c pending) :
    rowsOf (s.save c.challenge changed).accounts c.id =
      [saveRow c.challenge changed c.challenge] := by
  have he : c.challenge.id = c.id := rfl
  rw [rowsOf_save, if_pos he, h.rows, List.map_singleton]

theorem next (h : Open s c pending) : Open s { c with phase } pending :=
  ⟨h.rows, h.free, h.lt, h.compared, h.issued⟩

theorem compare (h : Open s c 0) :
    Open { s with compared := s.compared ++ [c.id] } { c with phase } 1 where
  rows := h.rows
  free := h.free
  lt := h.lt
  compared := by
    have hc : (s.compared ++ [c.id]).count c.id ≤ c.challenge.attempts + 1 := by
      simpa using h.compared
    exact hc
  issued := h.issued

theorem settled (h : Open s c 1) (ha : changed.attempts = c.challenge.attempts + 1) :
    SettledAt (s.save c.challenge changed) c.id := by
  refine .of_row h.rows_save ?_
  rw [saveRow_loaded]
  have hl := h.lt
  have hc : s.compared.count c.id ≤ changed.attempts := ha ▸ h.compared
  have hi : s.issued.count c.id = 0 := h.issued
  exact ⟨hc, hc.trans (by simp only [ha]; omega), hi.trans_le (by omega), fun _ => hi⟩

theorem consumed (h : Open s c 1) (ha : changed.attempts = c.challenge.attempts + 1)
    (hn : changed.consumedAt.isSome) :
    ∃ row, Consumed (s.save c.challenge changed) { c with phase } row := by
  have hr : rowsOf (s.save c.challenge changed).accounts c.id = [_] := h.rows_save
  rw [saveRow_loaded] at hr
  have hl := h.lt
  have hc : s.compared.count c.id ≤ changed.attempts := ha ▸ h.compared
  exact ⟨_, hr, hn, hc, hc.trans (by simp only [ha]; omega), h.issued⟩

end Open

theorem Consumed.settled (h : Consumed s c row) : SettledAt s c.id := by
  refine .of_row h.rows ⟨h.attempts, h.max, h.issued.trans_le (by omega), fun _ => h.issued⟩

theorem Consumed.issue (h : Consumed s c row) {accounts : Accounts}
    (ha : accounts.challenges = s.accounts.challenges) :
    SettledAt { s with accounts, issued := s.issued ++ [c.id] } c.id := by
  have hr : rowsOf accounts c.id = [row] := (congrArg _ ha).trans h.rows
  have hi : (s.issued ++ [c.id]).count c.id = 1 := by simp [h.issued]
  refine .of_row hr ⟨h.attempts, h.max, hi.le, fun hn => ?_⟩
  exact absurd h.consumed (by simp [hn])

theorem left_resume (hw : Working s c) (hs : c.Saves s) :
    Left Call.id SettledAt Working c.id (resume auth s c) := by
  cases hp : c.phase <;> simp only [Working, Call.Saves, hp] at hw hs
  case compare =>
    simp only [resume, hp]
    cases auth.checkHash c.data.otp c.challenge.otpHash
    case false | true => exact ⟨rfl, hw.compare⟩
  case reject =>
    simp only [resume, hp]
    exact hw.settled rfl
  case lookup =>
    simp only [resume, hp]
    split <;> exact ⟨rfl, hw.next⟩
  case register =>
    obtain ⟨accounts, ha⟩ := Option.isSome_iff_exists.mp hs
    simp only [resume, hp, ha]
    refine ⟨rfl, (hw.congr ?_).next⟩
    exact ⟨congrArg _ (challenges_createUser ha), rfl, rfl⟩
  case accept u =>
    by_cases he : lower u.email = lower c.email
    case pos =>
      have hr : resume auth s c = (s.save c.challenge (c.consumed s.now (some u.id)),
          some { c with phase := .issue u.id }) := by
        simp [resume, hp, hs, he]
      rw [hr]
      exact ⟨rfl, hw.consumed rfl rfl⟩
    case neg =>
      have hr : resume auth s c =
          (s.save c.challenge (c.consumed s.now c.challenge.userId), none) := by
        simp [resume, hp, hs, he]
      rw [hr]
      exact hw.settled rfl
  case issue userId =>
    obtain ⟨row, h⟩ := hw
    have hr : resume auth s c = (issue auth s c userId, none) := by simp only [resume, hp]
    rw [hr]
    obtain hi | ⟨accounts, ha, hi⟩ := issue_cases auth s c userId
    · exact hi.symm ▸ h.settled
    · exact hi.symm ▸ h.issue ha

theorem begin_spec {body : Value} (h : c ∈ begin auth s body fresh) :
    c.phase = .compare ∧ c.challenge ∈ rowsOf s.accounts c.id ∧ c.challenge.consumedAt = none ∧
      c.challenge.attempts < c.challenge.maxAttempts := by
  simp only [begin] at h
  split at h
  case h_1 => cases h
  case h_2 d _ =>
    split at h
    case h_1 => cases h
    case h_2 row hf =>
      split at h
      case isTrue => cases h
      case isFalse hn =>
        cases h
        have hm : row ∈ rowsOf s.accounts row.id :=
          List.mem_filter.mpr ⟨List.mem_of_find?_eq_some hf, by simp⟩
        simp only [not_or, Option.not_isSome_iff_eq_none, not_le] at hn
        exact ⟨rfl, hm, hn.left, hn.right.right⟩

theorem working_begin {body : Value} (h : c ∈ begin auth s body fresh)
    (hs : SettledAt s c.id) : Working s c := by
  obtain ⟨hp, hm, hn, hl⟩ := begin_spec h
  obtain ⟨row, hr, hs⟩ := hs
  have hc : c.challenge ∈ row.toList := hr ▸ hm
  have hc : row = some c.challenge := Option.mem_toList.mp hc
  have hs := hs c.challenge hc
  simp only [Working, hp]
  exact ⟨by rw [hr, hc]; rfl, hn, hl, hs.attempts, hs.consumed hn⟩

theorem settled_of_canFail (hw : Working s c) (hc : c.CanFail) : SettledAt s c.id := by
  cases hp : c.phase <;> simp only [Working, Call.CanFail, hp] at hw hc
  case compare =>
    have hl := hw.lt
    have hc : s.compared.count c.id ≤ c.challenge.attempts := hw.compared
    exact .of_row hw.rows ⟨hc, by omega, hw.issued.trans_le (by omega), fun _ => hw.issued⟩
  case issue userId =>
    obtain ⟨row, h⟩ := hw
    exact h.settled

theorem excludes : Excludes (system auth) (Serial auth) Call.id SettledAt Working where
  quiet _ _ := rfl
  begin hc ht := ⟨fun {k' t'} h => hc _ ht k' t' h, working_begin ht⟩
  resume hc ht hw := ⟨frame_resume, left_resume hw (hc _ ht)⟩
  fail hc ht hw := settled_of_canFail hw (hc _ ht)
  change _ _ :=
    ⟨fun _ h => h.congr ⟨rfl, rfl, rfl⟩, fun _ h => h.congr ⟨rfl, rfl, rfl⟩⟩

theorem bounds_of_working (hw : Working s c) (hm : row ∈ rowsOf s.accounts c.id) :
    s.compared.count c.id ≤ row.maxAttempts ∧ s.issued.count c.id ≤ 1 := by
  have ho {pending : Nat} (h : Open s c pending) (hp : pending ≤ 1) :
      s.compared.count c.id ≤ row.maxAttempts ∧ s.issued.count c.id ≤ 1 := by
    obtain rfl := List.mem_singleton.mp (h.rows ▸ hm)
    have hl := h.lt
    have hc := h.compared
    exact ⟨by omega, h.issued.trans_le (by omega)⟩
  cases hp : c.phase <;> simp only [Working, hp] at hw
  case compare => exact ho hw (by omega)
  case issue userId =>
    obtain ⟨row', h⟩ := hw
    obtain rfl := List.mem_singleton.mp (h.rows ▸ hm)
    exact ⟨h.max, h.issued.trans_le (by omega)⟩
  all_goals exact ho hw le_rfl

theorem oneTime_of_excluding {s : State} (h : Excluding Call.id SettledAt Working s) :
    OneTime s.shared := by
  intro row hm
  have hm : row ∈ rowsOf s.shared.accounts row.id := List.mem_filter.mpr ⟨hm, by simp⟩
  by_cases hf : ∀ k c, s.tasks k = some c → c.id ≠ row.id
  case pos =>
    obtain ⟨row', hr, hs⟩ := h.free row.id hf
    have hs := hs row (Option.mem_toList.mp (hr ▸ hm))
    exact ⟨hs.max, hs.once⟩
  case neg =>
    push Not at hf
    obtain ⟨k, c, ht, he⟩ := hf
    rw [← he] at hm ⊢
    exact bounds_of_working (h.held ht) hm

end Requests

section Alone

theorem accounts_save {changed : OtpChallenge}
    (hn : (s.accounts.challenges.map OtpChallenge.id).Nodup)
    (hm : c.challenge ∈ s.accounts.challenges)
    (hc : saveRow c.challenge changed c.challenge = changed) :
    (s.save c.challenge changed).accounts = s.accounts.saveChallenge changed := by
  have hi : changed.id = c.challenge.id := (congrArg OtpChallenge.id hc).symm
  have hr : Rows.update OtpChallenge.id s.accounts.challenges c.challenge.id
      (saveRow c.challenge changed) =
        s.accounts.challenges.map fun d => if d.id = changed.id then changed else d := by
    refine List.map_congr_left fun row hr => ?_
    rw [hi]
    split
    case isFalse => rfl
    case isTrue he => rw [List.inj_on_of_nodup_map hn hr hm he, hc]
  simp only [Shared.save, Accounts.saveChallenge, hr]

def Makes (auth : Authentication) (p : Shared × Option Call) (accounts : Accounts) : Prop :=
  ∃ os s', Overlap.alone (system auth) (fun _ _ => True) p os = some s' ∧ s'.accounts = accounts

theorem Makes.done : Makes auth (s, none) s.accounts :=
  ⟨[], s, rfl, rfl⟩

theorem Makes.resume {accounts : Accounts} (h : Makes auth (resume auth s c) accounts) :
    Makes auth (s, some c) accounts := by
  obtain ⟨os, s', ha, he⟩ := h
  exact ⟨() :: os, s', by rwa [Overlap.alone, if_pos trivial], he⟩

theorem makes_issue {userId : String} (hp : c.phase = .issue userId) :
    Makes auth (s, some c) (s.accounts.issue auth s.now c.fresh userId c.fresh.sessionId).1 := by
  have hr : resume auth s c = (issue auth s c userId, none) := by simp only [resume, hp]
  refine .resume (hr ▸ ?_)
  have hi : (issue auth s c userId).accounts =
      (s.accounts.issue auth s.now c.fresh userId c.fresh.sessionId).1 := by
    unfold issue Accounts.issue
    cases s.accounts.createToken _ <;> rfl
  exact hi ▸ .done

theorem makes_accept {u : Account} (hp : c.phase = .accept u)
    (hn : (s.accounts.challenges.map OtpChallenge.id).Nodup)
    (hm : c.challenge ∈ s.accounts.challenges) :
    Makes auth (s, some c) (s.accounts.acceptOtp auth s.now c.counted c.email u c.fresh).1 := by
  have hs {userId : Option String} :
      (s.save c.challenge (c.consumed s.now userId)).accounts =
        s.accounts.saveChallenge (c.consumed s.now userId) :=
    accounts_save hn hm saveRow_loaded
  refine .resume ?_
  simp only [resume, hp, Accounts.acceptOtp]
  split
  case isTrue => exact .done
  split
  case isTrue =>
    exact hs ▸ .done
  have h : Makes auth (s.save c.challenge (c.consumed s.now (some u.id)),
      some { c with phase := .issue u.id }) _ := makes_issue rfl
  rw [hs] at h
  exact h

theorem makes_lookup (hp : c.phase = .lookup)
    (hn : (s.accounts.challenges.map OtpChallenge.id).Nodup)
    (hm : c.challenge ∈ s.accounts.challenges) :
    Makes auth (s, some c)
      (match s.accounts.challengedUser c.counted c.email with
      | some u => s.accounts.acceptOtp auth s.now c.counted c.email u c.fresh
      | none =>
        let u := newViewer s.now c.fresh c.email
        match s.accounts.createUser u with
        | some a => a.acceptOtp auth s.now c.counted c.email u c.fresh
        | none => (s.accounts, .rejected 500 "")).1 := by
  refine .resume ?_
  simp only [resume, hp]
  cases s.accounts.challengedUser c.counted c.email
  case some u => exact makes_accept rfl hn hm
  refine .resume ?_
  simp only [resume]
  split
  case h_2 ha =>
    have ha : s.accounts.createUser (newViewer s.now c.fresh c.email) = none := ha
    simp only [ha]
    exact .done
  case h_1 a ha =>
    have ha : s.accounts.createUser (newViewer s.now c.fresh c.email) = some a := ha
    have hc := challenges_createUser ha
    have h : Makes auth ({ s with accounts := a },
        some { c with phase := .accept (newViewer s.now c.fresh c.email) }) _ :=
      makes_accept rfl (by rwa [hc]) (by rwa [hc])
    simp only [ha]
    exact h

-- A request that runs alone does what the endpoint does in one go.
theorem makes_verifyOtp {body : Value} {fresh : FreshTokens}
    (hn : (s.accounts.challenges.map OtpChallenge.id).Nodup) :
    Makes auth ((system auth).begin s (body, fresh))
      (s.accounts.verifyOtp auth s.now body fresh).1 := by
  simp only [system, begin, Accounts.verifyOtp]
  cases auth.otpData body
  case none => exact .done
  case some d =>
    simp only
    cases hf : s.accounts.challenges.find? fun c =>
        c.id = d.challengeId ∧ c.email = lower (trim d.email)
    case none => exact .done
    case some row =>
      simp only
      split
      case isTrue => exact .done
      have hm := List.mem_of_find?_eq_some hf
      refine .resume ?_
      simp only [resume]
      cases auth.checkHash d.otp row.otpHash
      case true => exact makes_lookup rfl hn hm
      case false =>
        have hs : ({ s with compared := s.compared ++ [row.id] }.save row
            { row with attempts := row.attempts + 1 }).accounts =
              s.accounts.saveChallenge { row with attempts := row.attempts + 1 } :=
          accounts_save (c := ⟨d, fresh, row, .reject⟩) hn hm saveRow_loaded
        exact .resume (hs ▸ .done)

end Alone

-- The identifiers of challenges are unique.
structure Initial (s : State) : Prop where
  ids : (s.shared.accounts.challenges.map OtpChallenge.id).Nodup
  compared : s.shared.compared = []
  issued : s.shared.issued = []
  tasks : ∀ k, s.tasks k = none

theorem exists_rowsOf_eq {a : Accounts} (id : String) (h : (a.challenges.map OtpChallenge.id).Nodup) :
    ∃ row : Option OtpChallenge, rowsOf a id = row.toList := by
  have hn : ((rowsOf a id).map OtpChallenge.id).Nodup :=
    h.sublist (List.filter_sublist.map OtpChallenge.id)
  have hi : ∀ r ∈ rowsOf a id, r.id = id := fun r hr => by simpa using (List.mem_filter.mp hr).right
  match hr : rowsOf a id with
  | [] => exact ⟨none, rfl⟩
  | [r] => exact ⟨some r, rfl⟩
  | r :: r' :: rs =>
    rw [hr] at hn hi
    have hne : r.id ≠ r'.id := by
      intro he
      simp [he] at hn
    exact absurd ((hi r (by simp)).trans (hi r' (by simp)).symm) hne

-- If the requests for a challenge do not overlap and save what they have counted, its code is compared
-- no more often than allowed and is good for one session at most.
theorem oneTime_of_serial {s s' : State} {as : List Action} (hi : Initial s)
    (h : Steps (Overlap.step (system auth)) (Serial auth) s as s') : OneTime s'.shared := by
  have hs : Excluding Call.id SettledAt Working s := by
    refine ⟨fun id _ => ?_, fun {k c} ht => ?_, fun {k k' c c'} ht => ?_⟩
    · obtain ⟨row, hr⟩ := exists_rowsOf_eq id hi.ids
      refine ⟨row, hr, fun r _ => ⟨?_, ?_, ?_, fun _ => ?_⟩⟩ <;> simp [hi.compared, hi.issued]
    · simp [hi.tasks k] at ht
    · simp [hi.tasks k] at ht
  exact oneTime_of_excluding (hs.steps excludes h)

def exampleChallenge (maxAttempts : Nat) : OtpChallenge :=
  ⟨"c-1", none, "u-1@example", "1234", 0, maxAttempts, 600, none⟩

def exampleShared (maxAttempts : Nat) (status : Option String) : Shared where
  accounts := {
    tokens := []
    users := [{ exampleAccount "u-1" with accountStatus := status }]
    challenges := [exampleChallenge maxAttempts]
    sessionIds := List.nodup_nil
    userIds := List.nodup_singleton _ }
  now := 0
  compared := []
  issued := []

def exampleBody (otp sessionId : String) : Value × FreshTokens :=
  (.dict [("email", .str "u-1@example"), ("challenge_id", .str "c-1"), ("otp", .str otp)],
    ⟨"u-9", sessionId, "r-9"⟩)

theorem makes_verifyOtp_right_code :
    Makes exampleAuthentication
      ((system exampleAuthentication).begin (exampleShared 2 none) (exampleBody "1234" "s-1"))
      ((exampleShared 2 none).accounts.verifyOtp exampleAuthentication 0
        (exampleBody "1234" "s-1").1 (exampleBody "1234" "s-1").2).1 :=
  makes_verifyOtp (List.nodup_singleton _)

-- A wrong code, and then the right one.
theorem oneTime_after_wrong_code :
    ∃ as s', Steps (Overlap.step (system exampleAuthentication)) (Serial exampleAuthentication)
        (.idle (exampleShared 2 none)) as s' ∧
      (s'.shared.compared = ["c-1", "c-1"] ∧ s'.shared.issued = ["c-1"]) ∧ OneTime s'.shared := by
  have hb (i : Value × FreshTokens) (s : Shared) :
      Serial exampleAuthentication (.idle s) (.begin 0 i) := by simp [Serial]
  have hr {s : State} {c : Call} {o : Unit} (ht : s.tasks 0 = some c) (hs : c.Saves s.shared) :
      Serial exampleAuthentication s (.resume 0 o) :=
    fun c' hc => Option.some.inj (ht.symm.trans hc) ▸ hs
  let sys := system exampleAuthentication
  have ha : ((Overlap.alone sys (fun s c => c.Saves s)
      (sys.begin (exampleShared 2 none) (exampleBody "0000" "s-1")) [(), ()]).bind fun s =>
        Overlap.alone sys (fun s c => c.Saves s) (sys.begin s (exampleBody "1234" "s-2"))
          [(), (), (), ()]).any
        fun s => s.compared = ["c-1", "c-1"] ∧ s.issued = ["c-1"] := by
    decide +kernel
  obtain ⟨s', hs, he⟩ := Option.any_eq_true _ _ |>.mp ha
  obtain ⟨s₁, h₁, h₂⟩ := Option.bind_eq_some_iff.mp hs
  have h := (Overlap.steps_of_alone (hb _) hr h₁).trans (Overlap.steps_of_alone (hb _) hr h₂)
  exact ⟨_, _, h, of_decide_eq_true he, oneTime_of_serial ⟨by decide, rfl, rfl, fun _ => rfl⟩ h⟩

-- The run of requests that leads from a challenge with some maximum of attempts and an account with
-- some status to a state in which the code was not one-time.
def IsViolated (maxAttempts : Nat) (status : Option String) (as : List Action) : Prop :=
  ∃ s', Transition.run (Overlap.step (system exampleAuthentication))
    (.idle (exampleShared maxAttempts status)) as = some s' ∧ ¬OneTime s'.shared

-- Two requests have read the challenge before one of them saves its attempt, with wrong codes or with
-- the right one. Or the account is not active, and no attempt is saved.
theorem not_oneTime :
    IsViolated 1 none [
      .begin 0 (exampleBody "0000" "s-1"), .begin 1 (exampleBody "1111" "s-2"),
      .resume 0 (), .resume 0 (), .resume 1 (), .resume 1 ()] ∧
    IsViolated 2 none [
      .begin 0 (exampleBody "1234" "s-1"), .begin 1 (exampleBody "1234" "s-2"),
      .resume 0 (), .resume 0 (), .resume 0 (), .resume 0 (),
      .resume 1 (), .resume 1 (), .resume 1 (), .resume 1 ()] ∧
    IsViolated 1 (some "inactive") [
      .begin 0 (exampleBody "1234" "s-1"), .resume 0 (), .resume 0 (), .resume 0 (),
      .begin 0 (exampleBody "1234" "s-2"), .resume 0 (), .resume 0 (), .resume 0 ()] := by
  refine ⟨?_, ?_, ?_⟩ <;> exact Transition.exists_of_any (by decide +kernel)

end ControlPlane.OtpVerification
