import Quoodle.Data.Overlap
import Quoodle.ControlPlane.Accounts

-- Requests that exchange refresh tokens, where their reads and writes of the database overlap.
namespace ControlPlane.RefreshTokens

open Gateway (Value)
open Overlap (Holds Preserves)
open Transition (Steps)

structure Exchange where
  used : String
  issued : String
  userId : String
  sessionId : String
  expiresAt : Int

structure Shared where
  accounts : Accounts
  now : Int
  exchanges : List Exchange

inductive Phase where
  | user
  | revoke
  | rotate (u : Account)

structure Call where
  refreshToken : String
  fresh : FreshTokens
  token : AuthToken
  phase : Phase

inductive Change where
  | wait (seconds : Nat)
  | session (t : AuthToken)
  | logout (sessionId : String) (allDevices : Bool)
  | account (u : Account)

-- Only the columns that were changed in memory are written.
def saveRow (loaded changed row : AuthToken) : AuthToken :=
  { row with
    refreshTokenHash :=
      Rows.merge loaded.refreshTokenHash changed.refreshTokenHash row.refreshTokenHash
    expiresAt := Rows.merge loaded.expiresAt changed.expiresAt row.expiresAt
    revokedAt := Rows.merge loaded.revokedAt changed.revokedAt row.revokedAt
    updatedAt := Rows.merge loaded.updatedAt changed.updatedAt row.updatedAt }

def saveToken (s : Accounts) (loaded changed : AuthToken) : Accounts :=
  s.mapTokens
    (fun row => if row.sessionId = loaded.sessionId then saveRow loaded changed row else row)
    fun row => by split <;> rfl

def putAccount (s : Accounts) (u : Account) : Accounts :=
  (s.createUser u).getD <| s.mapUsers (fun v => if v.id = u.id then u else v) fun v => by
    split
    case isTrue h => exact h.symm
    case isFalse h => rfl

section Source

variable (auth : Authentication)

def begin (s : Shared) (body : Value) (fresh : FreshTokens) : Option Call :=
  match auth.requiredString body "refresh_token" with
  | none => none
  | some refreshToken =>
    match s.accounts.refreshed auth refreshToken with
    | none => none
    | some t => if t.expiresAt < s.now then none else some ⟨refreshToken, fresh, t, .user⟩

def Call.rotated (c : Call) (now : Int) : AuthToken :=
  { c.token with
    refreshTokenHash := auth.sha256 c.fresh.refreshToken
    expiresAt := now + auth.refreshTtl
    updatedAt := now }

def rotate (s : Shared) (c : Call) (u : Account) : Shared :=
  { s with
    accounts := saveToken s.accounts c.token (c.rotated auth s.now)
    exchanges := s.exchanges ++ [⟨c.refreshToken, c.fresh.refreshToken, u.id, c.token.sessionId,
      s.now + auth.refreshTtl⟩] }

def resume (s : Shared) (c : Call) : Shared × Option Call :=
  match c.phase with
  | .user =>
    match s.accounts.findUser c.token.userId with
    | none => (s, none)
    | some u => (s, some { c with phase := if u.isActive then .rotate u else .revoke })
  | .revoke =>
    let revoked := { c.token with revokedAt := some s.now, updatedAt := s.now }
    ({ s with accounts := saveToken s.accounts c.token revoked }, none)
  | .rotate u => (rotate auth s c u, none)

def change (s : Shared) : Change → Shared
  | .wait seconds => { s with now := s.now + seconds }
  | .session t => { s with accounts := (s.accounts.createToken t).getD s.accounts }
  | .logout sessionId allDevices =>
    { s with accounts := s.accounts.revoke s.now fun t => allDevices || t.sessionId = sessionId }
  | .account u => { s with accounts := putAccount s.accounts u }

def system : Overlap.System Shared Call (Value × FreshTokens) Unit Change where
  begin s i := (s, begin auth s i.1 i.2)
  resume s c _ := resume auth s c
  change := change

end Source

abbrev State := Overlap.State Shared Call
abbrev Action := Overlap.Action (Value × FreshTokens) Unit Change

-- The hash belongs to no token, neither to one that was used nor to one that can be used.
def New (auth : Authentication) (s : Shared) (hash : String) : Prop :=
  (∀ t ∈ s.accounts.tokens, t.refreshTokenHash ≠ hash) ∧
    ∀ e ∈ s.exchanges, auth.sha256 e.used ≠ hash

-- Tokens are not generated twice, and no token is exchanged from a row that has another one by now.
def CalmCall (auth : Authentication) (s : Shared) (c : Call) : Prop :=
  match c.phase with
  | .rotate _ =>
    New auth s (auth.sha256 c.fresh.refreshToken) ∧ ∃ t ∈ s.accounts.tokens,
      t.sessionId = c.token.sessionId ∧ t.refreshTokenHash = c.token.refreshTokenHash
  | .user | .revoke => True

def Calm (auth : Authentication) (s : State) : Action → Prop
  | .resume k _ => ∀ c ∈ s.tasks k, CalmCall auth s.shared c
  | .change (.session t) => New auth s.shared t.refreshTokenHash
  | _ => True

structure Rotation (auth : Authentication) (s : Shared) : Prop where
  -- No token is exchanged twice.
  once : (s.exchanges.map fun e => auth.sha256 e.used).Nodup
  -- A token that was sent back and was not used since is accepted before it expires.
  accepted : ∀ e ∈ s.exchanges, (∀ e' ∈ s.exchanges, auth.sha256 e'.used ≠ auth.sha256 e.issued) →
    s.now ≤ e.expiresAt → ∀ u, s.accounts.findUser e.userId = some u → u.isActive →
      ∀ body fresh, auth.requiredString body "refresh_token" = some e.issued →
        (s.accounts.refresh auth s.now body fresh).2 =
          .issued e.userId e.sessionId fresh.refreshToken

section Invariant

variable (auth : Authentication) (tokens : List AuthToken) (exchanges : List Exchange)

structure Valid : Prop where
  hashes : (tokens.map AuthToken.refreshTokenHash).Nodup
  once : (exchanges.map fun e => auth.sha256 e.used).Nodup
  -- A token that was used belongs to no session any more.
  spent : ∀ e ∈ exchanges, ∀ t ∈ tokens, t.refreshTokenHash ≠ auth.sha256 e.used
  -- A token that was sent back belongs to its session, unless it was used.
  alive : ∀ e ∈ exchanges, (∃ e' ∈ exchanges, auth.sha256 e'.used = auth.sha256 e.issued) ∨
    ∃ t ∈ tokens, t.refreshTokenHash = auth.sha256 e.issued ∧ t.userId = e.userId ∧
      t.sessionId = e.sessionId ∧ t.expiresAt = e.expiresAt

structure Reads (c : Call) : Prop where
  hash : c.token.refreshTokenHash = auth.sha256 c.refreshToken
  known : (∃ t ∈ tokens, t.refreshTokenHash = c.token.refreshTokenHash) ∨
    ∃ e ∈ exchanges, auth.sha256 e.used = c.token.refreshTokenHash
  same : ∀ t ∈ tokens, t.refreshTokenHash = c.token.refreshTokenHash →
    t.userId = c.token.userId ∧ t.expiresAt = c.token.expiresAt
  user : ∀ u, c.phase = .rotate u → u.id = c.token.userId

end Invariant

section Tokens

variable {auth : Authentication} {tokens : List AuthToken} {exchanges : List Exchange} {c : Call}

structure Alike (f : AuthToken → AuthToken) : Prop where
  hash : ∀ t, (f t).refreshTokenHash = t.refreshTokenHash
  user : ∀ t, (f t).userId = t.userId
  session : ∀ t, (f t).sessionId = t.sessionId
  expires : ∀ t, (f t).expiresAt = t.expiresAt

theorem Valid.map {f : AuthToken → AuthToken} (h : Valid auth tokens exchanges) (hf : Alike f) :
    Valid auth (tokens.map f) exchanges := by
  constructor
  case hashes =>
    rw [List.map_map]
    exact (List.map_congr_left fun t _ => hf.hash t) ▸ h.hashes
  case once => exact h.once
  case spent =>
    intro e he
    simp only [List.forall_mem_map, hf.hash]
    exact h.spent e he
  case alive =>
    intro e he
    refine (h.alive e he).imp_right fun ⟨t, ht, hh, hu, hs, hx⟩ => ⟨f t, List.mem_map_of_mem ht, ?_⟩
    rw [hf.hash, hf.user, hf.session, hf.expires]
    exact ⟨hh, hu, hs, hx⟩

theorem Reads.map {f : AuthToken → AuthToken} (h : Reads auth tokens exchanges c) (hf : Alike f) :
    Reads auth (tokens.map f) exchanges c := by
  refine ⟨h.hash, ?_, ?_, h.user⟩
  · exact h.known.imp_left fun ⟨t, ht, hh⟩ => ⟨f t, List.mem_map_of_mem ht, (hf.hash t).trans hh⟩
  · simp only [List.forall_mem_map, hf.hash, hf.user, hf.expires]
    exact h.same

theorem Reads.hash_ne (h : Reads auth tokens exchanges c) {hash : String}
    (hn : ∀ t ∈ tokens, t.refreshTokenHash ≠ hash)
    (he : ∀ e ∈ exchanges, auth.sha256 e.used ≠ hash) : hash ≠ c.token.refreshTokenHash := by
  intro hh
  cases h.known
  case inl hk =>
    obtain ⟨t, ht, hk⟩ := hk
    exact hn t ht (hk.trans hh.symm)
  case inr hk =>
    obtain ⟨e, hm, hk⟩ := hk
    exact he e hm (hk.trans hh.symm)

section Append

variable {t : AuthToken} (hn : ∀ r ∈ tokens, r.refreshTokenHash ≠ t.refreshTokenHash)
variable (he : ∀ e ∈ exchanges, auth.sha256 e.used ≠ t.refreshTokenHash)

include hn he

theorem Valid.append (h : Valid auth tokens exchanges) : Valid auth (tokens ++ [t]) exchanges := by
  constructor
  case hashes =>
    rw [List.map_append]
    refine Rows.nodup_append_singleton (fun hm => ?_) h.hashes
    obtain ⟨r, hr, hh⟩ := List.mem_map.mp hm
    exact hn r hr hh
  case once => exact h.once
  case spent =>
    intro e hm
    simp only [List.forall_mem_append, List.forall_mem_singleton]
    exact ⟨h.spent e hm, (he e hm).symm⟩
  case alive =>
    intro e hm
    exact (h.alive e hm).imp_right fun ⟨r, hr, ha⟩ => ⟨r, List.mem_append_left _ hr, ha⟩

theorem Reads.append (h : Reads auth tokens exchanges c) :
    Reads auth (tokens ++ [t]) exchanges c := by
  refine ⟨h.hash, h.known.imp_left fun ⟨r, hr, hh⟩ => ⟨r, List.mem_append_left _ hr, hh⟩, ?_, h.user⟩
  simp only [List.forall_mem_append, List.forall_mem_singleton]
  exact ⟨h.same, fun hh => absurd hh (h.hash_ne hn he)⟩

end Append

section Replace

-- The row of a session is replaced, and the token that it had is exchanged for the one it has now.
structure Replaces (auth : Authentication) (tokens : List AuthToken) (exchanges : List Exchange)
    (t t' : AuthToken) (e : Exchange) : Prop where
  mem : t ∈ tokens
  tokens : ∀ r ∈ tokens, r.refreshTokenHash ≠ t'.refreshTokenHash
  spent : ∀ e ∈ exchanges, auth.sha256 e.used ≠ t'.refreshTokenHash
  used : auth.sha256 e.used = t.refreshTokenHash
  issued : auth.sha256 e.issued = t'.refreshTokenHash
  user : t'.userId = e.userId
  session : t'.sessionId = e.sessionId
  expires : t'.expiresAt = e.expiresAt

variable {t t' : AuthToken} {e : Exchange}

def replace (t t' r : AuthToken) : AuthToken :=
  if r = t then t' else r

theorem Valid.eq_of_hash (h : Valid auth tokens exchanges) {r r' : AuthToken} (hr : r ∈ tokens)
    (hr' : r' ∈ tokens) (he : r.refreshTokenHash = r'.refreshTokenHash) : r = r' :=
  List.inj_on_of_nodup_map h.hashes hr hr' he

theorem Valid.replace (h : Valid auth tokens exchanges)
    (hr : Replaces auth tokens exchanges t t' e) :
    Valid auth (tokens.map (replace t t')) (exchanges ++ [e]) := by
  have ht : t' ∈ tokens.map (RefreshTokens.replace t t') :=
    List.mem_map.mpr ⟨t, hr.mem, if_pos rfl⟩
  have hk {r : AuthToken} (hm : r ∈ tokens) (hn : r ≠ t) :
      r ∈ tokens.map (RefreshTokens.replace t t') := List.mem_map.mpr ⟨r, hm, if_neg hn⟩
  constructor
  case hashes =>
    rw [List.map_map]
    refine List.Nodup.map_on (fun r hm r' hm' he => ?_) h.hashes.of_map
    simp only [Function.comp_apply, RefreshTokens.replace] at he
    split at he
    case isTrue h₁ =>
      split at he
      case isTrue h₂ => exact h₁.trans h₂.symm
      case isFalse => exact absurd he.symm (hr.tokens r' hm')
    split at he
    case isTrue => exact absurd he (hr.tokens r hm)
    case isFalse => exact h.eq_of_hash hm hm' he
  case once =>
    rw [List.map_append]
    refine Rows.nodup_append_singleton (fun hm => ?_) h.once
    obtain ⟨e', he', hu⟩ := List.mem_map.mp hm
    exact h.spent e' he' t hr.mem (hr.used.symm.trans hu.symm)
  case spent =>
    simp only [List.forall_mem_append, List.forall_mem_singleton, List.forall_mem_map]
    refine ⟨fun e' he' r hm => ?_, fun r hm => ?_⟩
    · unfold RefreshTokens.replace
      split
      case isTrue => exact (hr.spent e' he').symm
      case isFalse => exact h.spent e' he' r hm
    · unfold RefreshTokens.replace
      split
      case isTrue => exact hr.used.symm ▸ (hr.tokens t hr.mem).symm
      case isFalse hn => exact fun hh => hn (h.eq_of_hash hm hr.mem (hh.trans hr.used))
  case alive =>
    simp only [List.forall_mem_append, List.forall_mem_singleton]
    refine ⟨fun e' he' => ?_, .inr ⟨t', ht, hr.issued.symm, hr.user, hr.session, hr.expires⟩⟩
    cases h.alive e' he'
    case inl hu =>
      obtain ⟨e'', hm, hu⟩ := hu
      exact .inl ⟨e'', List.mem_append_left _ hm, hu⟩
    case inr ha =>
      obtain ⟨r, hm, hh, ha⟩ := ha
      by_cases hn : r = t
      case pos =>
        refine .inl ⟨e, List.mem_append_right _ (List.mem_singleton.mpr rfl), ?_⟩
        exact hr.used.trans (hn ▸ hh)
      case neg => exact .inr ⟨r, hk hm hn, hh, ha⟩

theorem Reads.replace (h : Reads auth tokens exchanges c)
    (hr : Replaces auth tokens exchanges t t' e) :
    Reads auth (tokens.map (replace t t')) (exchanges ++ [e]) c := by
  refine ⟨h.hash, ?_, ?_, h.user⟩
  · cases h.known
    case inl hk =>
      obtain ⟨r, hm, hh⟩ := hk
      by_cases hn : r = t
      case pos =>
        refine .inr ⟨e, List.mem_append_right _ (List.mem_singleton.mpr rfl), ?_⟩
        exact hr.used.trans (hn ▸ hh)
      case neg => exact .inl ⟨r, List.mem_map.mpr ⟨r, hm, if_neg hn⟩, hh⟩
    case inr hk =>
      obtain ⟨e', hm, hh⟩ := hk
      exact .inr ⟨e', List.mem_append_left _ hm, hh⟩
  · simp only [List.forall_mem_map]
    intro r hm
    unfold RefreshTokens.replace
    split
    case isFalse => exact h.same r hm
    case isTrue => exact fun hh => absurd hh (h.hash_ne hr.tokens hr.spent)

end Replace

end Tokens

section Step

variable {auth : Authentication} {s : Shared} {c : Call}

theorem alike_revoke {loaded : AuthToken} {now : Int} :
    Alike fun row => if row.sessionId = loaded.sessionId then
      saveRow loaded { loaded with revokedAt := some now, updatedAt := now } row else row := by
  constructor <;> intro t <;> split <;> simp [saveRow]

theorem alike_logout {now : Int} {p : AuthToken → Bool} :
    Alike fun t => if p t then { t with revokedAt := some now, updatedAt := now } else t := by
  constructor <;> intro t <;> split <;> rfl

-- The row has not been changed since it was read, so that it gets all that was changed in memory.
theorem replaces_rotate {u : Account} {t : AuthToken}
    (h : Reads auth s.accounts.tokens s.exchanges c) (hp : c.phase = .rotate u)
    (hn : New auth s (auth.sha256 c.fresh.refreshToken)) (hm : t ∈ s.accounts.tokens)
    (hs : t.sessionId = c.token.sessionId) (hh : t.refreshTokenHash = c.token.refreshTokenHash) :
    (rotate auth s c u).accounts.tokens =
        s.accounts.tokens.map (replace t (saveRow c.token (c.rotated auth s.now) t)) ∧
      Replaces auth s.accounts.tokens s.exchanges t (saveRow c.token (c.rotated auth s.now) t)
        ⟨c.refreshToken, c.fresh.refreshToken, u.id, c.token.sessionId, s.now + auth.refreshTtl⟩ := by
  obtain ⟨hu, hx⟩ := h.same t hm hh
  have hf : (saveRow c.token (c.rotated auth s.now) t).refreshTokenHash =
      auth.sha256 c.fresh.refreshToken := if_neg (h.hash_ne hn.left hn.right)
  have he : (saveRow c.token (c.rotated auth s.now) t).expiresAt = s.now + auth.refreshTtl := by
    rw [saveRow, hx, Rows.merge_current]
    rfl
  constructor
  case left =>
    refine List.map_congr_left fun r hr => ?_
    have hi : r.sessionId = c.token.sessionId ↔ r = t := by
      refine ⟨fun h => ?_, fun h => h ▸ hs⟩
      exact List.inj_on_of_nodup_map s.accounts.sessionIds hr hm (h.trans hs.symm)
    simp only [hi, replace]
    split
    case isTrue hr => rw [hr]
    case isFalse => rfl
  case right =>
    constructor
    case mem => exact hm
    case tokens => exact hf ▸ hn.left
    case spent => exact hf ▸ hn.right
    case used => exact h.hash.symm.trans hh.symm
    case issued => exact hf.symm
    case user => exact hu.trans (h.user u hp).symm
    case session => exact hs
    case expires => exact he

theorem reads_begin {body : Value} {fresh : FreshTokens}
    (h : Valid auth s.accounts.tokens s.exchanges) (hc : begin auth s body fresh = some c) :
    Reads auth s.accounts.tokens s.exchanges c := by
  unfold begin at hc
  split at hc
  case h_1 => cases hc
  case h_2 refreshToken _ =>
    split at hc
    case h_1 => cases hc
    case h_2 t ht =>
      obtain ⟨_, hc⟩ := Option.ite_none_left_eq_some.mp hc
      obtain rfl := Option.some.inj hc
      have hm : t ∈ s.accounts.tokens := List.mem_of_find?_eq_some ht
      refine ⟨by simpa using List.find?_some ht, .inl ⟨t, hm, rfl⟩, fun r hr hh => ?_, nofun⟩
      obtain rfl := h.eq_of_hash hr hm hh
      exact ⟨rfl, rfl⟩

theorem tokens_putAccount {a : Accounts} {u : Account} : (putAccount a u).tokens = a.tokens := by
  unfold putAccount Accounts.createUser
  split <;> rfl

theorem tokens_createToken (a : Accounts) (t : AuthToken) :
    ((a.createToken t).getD a).tokens = a.tokens ∨
      ((a.createToken t).getD a).tokens = a.tokens ++ [t] := by
  unfold Accounts.createToken
  split
  case isTrue => exact .inl rfl
  case isFalse => exact .inr rfl

structure Carries (auth : Authentication) (s s' : Shared) : Prop where
  valid : Valid auth s.accounts.tokens s.exchanges → Valid auth s'.accounts.tokens s'.exchanges
  reads : ∀ c, Reads auth s.accounts.tokens s.exchanges c →
    Reads auth s'.accounts.tokens s'.exchanges c

theorem Carries.refl : Carries auth s s :=
  ⟨id, fun _ => id⟩

theorem carries_resume (h : Reads auth s.accounts.tokens s.exchanges c)
    (hc : CalmCall auth s c) : Carries auth s (resume auth s c).1 := by
  unfold CalmCall at hc
  unfold resume
  cases hp : c.phase
  case user =>
    dsimp only
    split <;> exact .refl
  case revoke => exact ⟨fun h => h.map alike_revoke, fun _ h => h.map alike_revoke⟩
  case rotate u =>
    rw [hp] at hc
    obtain ⟨hn, t, hm, hs, hh⟩ := hc
    obtain ⟨ht, hr⟩ := replaces_rotate h hp hn hm hs hh
    constructor <;> dsimp only <;> rw [ht]
    case valid => exact fun h => h.replace hr
    case reads => exact fun c h => h.replace hr

theorem carries_change {e : Change}
    (he : ∀ t, e = .session t → New auth s t.refreshTokenHash) : Carries auth s (change s e) := by
  cases e
  case wait seconds => exact ⟨id, fun _ => id⟩
  case session t =>
    obtain ⟨hn, hu⟩ := he t rfl
    cases tokens_createToken s.accounts t
    case inl ht => constructor <;> simp only [change, ht, imp_self, implies_true]
    case inr ht =>
      constructor <;> simp only [change, ht]
      case valid => exact fun h => h.append hn hu
      case reads => exact fun c h => h.append hn hu
  case logout sessionId allDevices =>
    exact ⟨fun h => h.map alike_logout, fun _ h => h.map alike_logout⟩
  case account u =>
    constructor <;> simp only [change, tokens_putAccount, imp_self, implies_true]

theorem reads_resume (h : Reads auth s.accounts.tokens s.exchanges c) {c' : Call}
    (hc : (resume auth s c).2 = some c') :
    (resume auth s c).1 = s ∧ Reads auth s.accounts.tokens s.exchanges c' := by
  unfold resume at hc ⊢
  cases hp : c.phase
  case user =>
    simp only [hp] at hc ⊢
    cases hu : s.accounts.findUser c.token.userId
    case none => simp [hu] at hc
    case some u =>
      simp only [hu, Option.some.injEq] at hc
      subst hc
      refine ⟨rfl, h.hash, h.known, h.same, fun v hv => ?_⟩
      have hid : u.id = c.token.userId := by simpa using List.find?_some hu
      dsimp only at hv
      split at hv
      case isTrue => exact Phase.rotate.inj hv ▸ hid
      case isFalse => cases hv
  case revoke | rotate u => simp [hp] at hc

theorem preserves_valid : Preserves (system auth) (Calm auth)
    (fun s => Valid auth s.accounts.tokens s.exchanges)
    (fun s c => Reads auth s.accounts.tokens s.exchanges c) where
  begin h _ := ⟨h.shared, fun _ hc => reads_begin h.shared hc⟩
  resume := by
    intro s k o c h ht hc
    refine ⟨(carries_resume (h.tasks ht) (hc c ht)).valid h.shared, fun c' hc' => ?_⟩
    obtain ⟨he, hr⟩ := reads_resume (h.tasks ht) hc'
    exact he.symm ▸ hr
  change := by
    intro s e h hc
    exact (carries_change fun t he => by subst he; exact hc).valid h.shared
  others := by
    intro s a s' h hc hs
    cases a
    case begin k i =>
      obtain ⟨_, rfl⟩ := Overlap.step_begin hs
      exact fun _ => id
    case resume k o =>
      obtain ⟨c, ht, rfl⟩ := Overlap.step_resume hs
      exact (carries_resume (h.tasks ht) (hc c ht)).reads
    case fail k =>
      obtain rfl := Overlap.step_fail hs
      exact fun _ => id
    case change e =>
      obtain rfl := Overlap.step_change hs
      exact (carries_change fun t he => by subst he; exact hc).reads

theorem Valid.rotation (h : Valid auth s.accounts.tokens s.exchanges) : Rotation auth s := by
  refine ⟨h.once, fun e he hn hx u hu ha body fresh hb => ?_⟩
  have hr := (h.alive e he).resolve_left fun ⟨e', he', hh⟩ => hn e' he' hh
  obtain ⟨t, ht, hh, hi, hs, hd⟩ := hr
  have hf : s.accounts.refreshed auth e.issued = some t := by
    have hf := Rows.find_of_mem h.hashes ht
    rwa [hh] at hf
  have hid : u.id = e.userId := by simpa using List.find?_some hu
  simp only [Accounts.refresh, hb, hf, hd, Int.not_lt.mpr hx, hi, hu, ha, hs, hid, if_false,
    Bool.not_true, Bool.false_eq_true]

end Step

-- If no row gets another token between the two times that a request looks at it, every token is
-- exchanged once at most, and a token that was sent back can be used.
theorem rotation_of_steps (auth : Authentication) (accounts : Accounts) (now : Int)
    (as : List Action) (s : State)
    (hn : (accounts.tokens.map AuthToken.refreshTokenHash).Nodup)
    (h : Steps (Overlap.step (system auth)) (Calm auth) (.idle ⟨accounts, now, []⟩) as s) :
    Rotation auth s.shared :=
  (Holds.idle ⟨hn, List.nodup_nil, nofun, nofun⟩ |>.steps preserves_valid h).shared.rotation

section Given

instance {auth : Authentication} {s : Shared} {hash : String} : Decidable (New auth s hash) :=
  inferInstanceAs (Decidable (_ ∧ _))

instance {auth : Authentication} {s : Shared} : DecidablePred (CalmCall auth s)
  | ⟨_, _, _, .rotate _⟩ => inferInstanceAs (Decidable (_ ∧ _))
  | ⟨_, _, _, .user⟩ | ⟨_, _, _, .revoke⟩ => instDecidableTrue

instance {auth : Authentication} {s : State} (a : Action) : Decidable (Calm auth s a) := by
  unfold Calm
  split <;> infer_instance

def refreshBody (refreshToken : String) : Value :=
  .dict [("refresh_token", .str refreshToken)]

def oneByOne : List Action := [
  .begin 0 (refreshBody "r-u-1", ⟨"", "", "n-1"⟩), .resume 0 (), .resume 0 (),
  .begin 1 (refreshBody "r-u-1", ⟨"", "", "n-2"⟩), .change (.wait 100),
  .begin 2 (refreshBody "n-1", ⟨"", "", "n-3"⟩), .resume 2 (), .resume 2 ()
]

-- The second one begins before the first one has written the row.
def overlapping : List Action := [
  .begin 0 (refreshBody "r-u-1", ⟨"", "", "n-1"⟩), .begin 1 (refreshBody "r-u-1", ⟨"", "", "n-2"⟩),
  .resume 0 (), .resume 1 (), .resume 0 (), .resume 1 ()
]

theorem rotation_of_steps_one_by_one :
    ∃ s, Steps (Overlap.step (system exampleAuthentication)) (Calm exampleAuthentication)
        (.idle ⟨exampleAccounts, 100, []⟩) oneByOne s ∧
      s.shared.exchanges.map Exchange.used = ["r-u-1", "n-1"] ∧
      Rotation exampleAuthentication s.shared := by
  have h : (Transition.run (Transition.restrict (Overlap.step (system exampleAuthentication))
      (Calm exampleAuthentication)) (.idle ⟨exampleAccounts, 100, []⟩) oneByOne).any
        (·.shared.exchanges.map Exchange.used = ["r-u-1", "n-1"]) := by
    decide
  obtain ⟨s, hs, hu⟩ := Transition.exists_of_any h
  have hs := Steps.of_run hs
  exact ⟨s, hs, hu, rotation_of_steps _ _ _ _ _ (by decide) hs⟩

-- Both requests get a token for the same one, and the first of the two tokens is of no use.
theorem exchanged_twice :
    ∃ s, Transition.run (Overlap.step (system exampleAuthentication))
        (.idle ⟨exampleAccounts, 100, []⟩) overlapping = some s ∧
      s.shared.exchanges.map Exchange.used = ["r-u-1", "r-u-1"] ∧
      (s.shared.accounts.refresh exampleAuthentication 100 (refreshBody "n-1") ⟨"", "", "n-3"⟩).2 =
        .rejected 401 "invalid_refresh" := by
  have h : (Transition.run (Overlap.step (system exampleAuthentication))
      (.idle ⟨exampleAccounts, 100, []⟩) overlapping).any fun s =>
        s.shared.exchanges.map Exchange.used = ["r-u-1", "r-u-1"] ∧
          (s.shared.accounts.refresh exampleAuthentication 100 (refreshBody "n-1")
            ⟨"", "", "n-3"⟩).2 = .rejected 401 "invalid_refresh" := by
    decide
  exact Transition.exists_of_any h

end Given

end ControlPlane.RefreshTokens
