import Quoodle.ControlPlane.Accounts

-- What can still be done with a session after it was revoked.
namespace ControlPlane

open Gateway (Value)

namespace Accounts

abbrev Call := Int × Request

def step (auth : Authentication) (s : Accounts) (c : Call) : Option Accounts :=
  some (s.handle auth c.1 c.2).1

def Revoked (s : Accounts) (sessionId : String) : Prop :=
  ∃ t ∈ s.tokens, t.sessionId = sessionId ∧ t.revokedAt.isSome

-- Every row is kept, and if it is revoked it stays so.
def Keeps (s s' : Accounts) : Prop :=
  ∀ t ∈ s.tokens, ∃ t' ∈ s'.tokens, t'.sessionId = t.sessionId ∧
    (t.revokedAt.isSome → t'.revokedAt.isSome)

section Keeps

variable {auth : Authentication} {s s' s'' : Accounts} {now : Int} {fresh : FreshTokens}
variable {body : Value}

theorem Keeps.of_tokens (h : s'.tokens = s.tokens) : Keeps s s' :=
  fun t ht => ⟨t, h ▸ ht, rfl, id⟩

theorem Keeps.refl : Keeps s s :=
  .of_tokens rfl

theorem Keeps.trans (h : Keeps s s') (h' : Keeps s' s'') : Keeps s s'' := by
  intro t ht
  obtain ⟨t', ht', hs, hr⟩ := h t ht
  obtain ⟨t'', ht'', hs', hr'⟩ := h' t' ht'
  exact ⟨t'', ht'', hs'.trans hs, hr' ∘ hr⟩

theorem Keeps.revoked {sessionId : String} (h : Keeps s s') (hs : s.Revoked sessionId) :
    s'.Revoked sessionId := by
  obtain ⟨t, ht, hi, hr⟩ := hs
  obtain ⟨t', ht', hs', hr'⟩ := h t ht
  exact ⟨t', ht', hs'.trans hi, hr' hr⟩

theorem keeps_mapTokens {f : AuthToken → AuthToken} {hf : ∀ t, (f t).sessionId = t.sessionId}
    (hr : ∀ t, t.revokedAt.isSome → (f t).revokedAt.isSome) : Keeps s (s.mapTokens f hf) :=
  fun t ht => ⟨f t, List.mem_map_of_mem ht, hf t, hr t⟩

theorem keeps_revoke {p : AuthToken → Bool} : Keeps s (s.revoke now p) :=
  keeps_mapTokens fun t ht => by split <;> [rfl; exact ht]

theorem keeps_createToken {t : AuthToken} (h : s.createToken t = some s') : Keeps s s' := by
  unfold createToken at h
  split at h
  case isTrue => cases h
  cases h
  exact fun t ht => ⟨t, List.mem_append_left _ ht, rfl, id⟩

theorem keeps_createUser {u : Account} (h : s.createUser u = some s') : Keeps s s' := by
  unfold createUser at h
  split at h
  case isTrue => cases h
  cases h
  exact .of_tokens rfl

theorem keeps_issue {userId sessionId : String} :
    Keeps s (s.issue auth now fresh userId sessionId).1 := by
  unfold issue
  split
  case h_1 h => exact keeps_createToken h
  case h_2 => exact .refl

theorem keeps_login : Keeps s (s.login auth now body fresh).1 := by
  unfold login
  split
  · exact .refl
  · split
    · exact .refl
    · split_ifs
      · exact .refl
      · exact .refl
      · exact keeps_issue

theorem keeps_acceptOtp {c : OtpChallenge} {email : String} {u : Account} :
    Keeps s (s.acceptOtp auth now c email u fresh).1 := by
  unfold acceptOtp
  split_ifs
  · exact .refl
  · exact .of_tokens rfl
  · refine Keeps.trans ?_ keeps_issue
    exact .of_tokens rfl

theorem keeps_verifyOtp : Keeps s (s.verifyOtp auth now body fresh).1 := by
  unfold verifyOtp
  split
  · exact .refl
  · dsimp only
    split
    · exact .refl
    · split_ifs
      · exact .refl
      · exact .of_tokens rfl
      · split
        · exact keeps_acceptOtp
        · split
          case h_1 h => exact (keeps_createUser h).trans keeps_acceptOtp
          case h_2 => exact .refl

theorem keeps_verifyTwoFactor : Keeps s (s.verifyTwoFactor auth now body fresh).1 := by
  unfold verifyTwoFactor
  split
  · exact .refl
  · split
    · exact .refl
    · split
      · exact .refl
      · split_ifs
        · exact .refl
        · exact .refl
        · exact keeps_issue

theorem keeps_rotate {t : AuthToken} : Keeps s (s.rotate auth now t fresh) :=
  keeps_mapTokens fun r hr => by split <;> exact hr

theorem keeps_refresh : Keeps s (s.refresh auth now body fresh).1 := by
  unfold refresh
  split
  · exact .refl
  · split
    · exact .refl
    · split
      · exact .refl
      · split
        · exact .refl
        · split
          · exact keeps_revoke
          · exact keeps_rotate

theorem keeps_perform {op : Operation} : Keeps s (s.perform auth now op).1 := by
  cases op
  case logout body =>
    simp only [perform, logout]
    split
    · exact .refl
    · exact keeps_revoke
  case setup body secret =>
    simp only [perform, setup]
    split
    · exact .refl
    · split_ifs
      · exact .refl
      · split <;> exact .of_tokens rfl
  case confirm body =>
    simp only [perform, confirm]
    split
    · exact .refl
    · split_ifs
      · exact .refl
      · split
        · exact .refl
        · split
          · exact .refl
          · split_ifs <;> exact .of_tokens rfl
  case other => exact .refl

theorem keeps_verifyJwt {authorization : Option String} :
    Keeps s (s.verifyJwt auth now authorization).1 := by
  unfold verifyJwt
  split
  · exact .refl
  · split_ifs
    · exact .refl
    · split
      · exact .refl
      · split_ifs
        · cases Option.filter isTruthy _
          case none => exact .refl
          case some => exact keeps_revoke
        · exact .refl

theorem keeps_handle {r : Request} : Keeps s (s.handle auth now r).1 := by
  cases r
  case login => exact keeps_login
  case verifyOtp => exact keeps_verifyOtp
  case verifyTwoFactor => exact keeps_verifyTwoFactor
  case refresh => exact keeps_refresh
  case jwtAuth authorization op =>
    have hv : Keeps s (s.verifyJwt auth now authorization).1 := keeps_verifyJwt
    simp only [handle]
    split
    case h_1 h =>
      rw [h] at hv
      exact hv.trans keeps_perform
    case h_2 h =>
      rw [h] at hv
      exact hv

end Keeps

def Revokes (auth : Authentication) (s : Accounts) (now : Int) (authorization : Option String)
    (body : Value) (sessionId : String) : Prop :=
  (∃ p, (s.verifyJwt auth now authorization).2 = .ok p) ∧
    ∃ d ∈ auth.logoutData body, ∃ t ∈ s.tokens, t.sessionId = sessionId ∧ (d.2 ∨ sessionId = d.1)

-- The request neither passes with an access token of the session nor gets new tokens for it.
def Final (auth : Authentication) (s : Accounts) (now : Int) (sessionId : String) : Request → Prop
  | .jwtAuth authorization _ => ∀ u, (s.verifyJwt auth now authorization).2 ≠ .ok (u, some sessionId)
  | .refresh body fresh =>
    ∀ userId token, (s.refresh auth now body fresh).2 ≠ .issued userId sessionId token
  | _ => True

-- The refresh token of the session is presented before it has expired, or the session is called such
-- that it does not count as one, by a user who is active.
def Escapes (auth : Authentication) (s : Accounts) (now : Int) (sessionId : String) : Request → Prop
  | .jwtAuth authorization _ => ¬isTruthy sessionId ∧ ∃ userId,
    auth.subject authorization now = .ok (userId, some sessionId) ∧
      ∃ u ∈ s.findUser userId, u.isActive
  | .refresh body _ => ∃ token ∈ auth.requiredString body "refresh_token",
    ∃ t ∈ s.refreshed auth token, t.sessionId = sessionId ∧ now ≤ t.expiresAt ∧
      ∃ u ∈ s.findUser t.userId, u.isActive
  | _ => False

section Final

variable {auth : Authentication} {s : Accounts} {now : Int} {sessionId : String}
variable {authorization : Option String} {body : Value} {fresh : FreshTokens}

theorem revoked_of_revokes (h : s.Revokes auth now authorization body sessionId) :
    (s.handle auth now (.jwtAuth authorization (.logout body))).1.Revoked sessionId := by
  obtain ⟨⟨p, hv⟩, d, hd, t, ht, hi, hs⟩ := h
  simp only [handle, verifyJwt_of_ok hv, perform, logout, Option.mem_def.mp hd]
  refine ⟨_, List.mem_map_of_mem ht, ?_⟩
  have hp : (d.2 || decide (t.sessionId = d.1)) = true := by simpa [hi] using hs
  rw [if_pos hp]
  exact ⟨hi, rfl⟩

theorem isLive_of_revoked (h : s.Revoked sessionId) : s.isLive sessionId = false := by
  obtain ⟨t, ht, hi, hr⟩ := h
  refine List.any_eq_false.mpr fun t' ht' => ?_
  rw [Bool.and_eq_true, decide_eq_true_eq, not_and]
  intro hs
  obtain rfl : t' = t := List.inj_on_of_nodup_map s.sessionIds ht' ht (hs.trans hi.symm)
  simp [Option.isNone_iff_eq_none, Option.isSome_iff_ne_none.mp hr]

theorem verifyJwt_eq_ok_iff {u : Account} {id : Option String} :
    (s.verifyJwt auth now authorization).2 = .ok (u, id) ↔
      ∃ userId, auth.subject authorization now = .ok (userId, id) ∧
        (∀ i ∈ id, isTruthy i → s.isLive i) ∧ s.findUser userId = some u ∧ u.isActive := by
  unfold verifyJwt
  cases hs : auth.subject authorization now
  case error => simp
  case ok p =>
    obtain ⟨userId, sid⟩ := p
    have hl : (sid.filter isTruthy).any (!s.isLive ·) ↔ ¬∀ i ∈ sid, isTruthy i → s.isLive i := by
      cases sid
      case none => simp
      case some i => cases hi : isTruthy i <;> simp [Option.filter, hi]
    simp only [hl, Except.ok.injEq, Prod.mk.injEq, exists_eq_left', and_assoc]
    split
    case isTrue hn =>
      refine iff_of_false (by simp) ?_
      rintro ⟨rfl, hi, _⟩
      exact hn hi
    case isFalse hn =>
      rw [not_not] at hn
      cases s.findUser userId
      case none => simp
      case some v =>
        cases ha : v.isActive
        case false =>
          simp only [ha, Bool.not_false, if_true, reduceCtorEq, false_iff]
          rintro ⟨rfl, _, hv, hu⟩
          cases hv
          exact absurd (ha.symm.trans hu) (by simp)
        case true =>
          simp only [ha, Bool.not_true, Bool.false_eq_true, if_false, Except.ok.injEq, Prod.mk.injEq,
            Option.some.injEq]
          constructor
          · rintro ⟨rfl, rfl⟩
            exact ⟨rfl, hn, rfl, ha⟩
          · rintro ⟨rfl, _, rfl, _⟩
            exact ⟨rfl, rfl⟩

theorem final_jwtAuth_iff {op : Operation} (h : s.Revoked sessionId) :
    s.Final auth now sessionId (.jwtAuth authorization op) ↔
      ¬s.Escapes auth now sessionId (.jwtAuth authorization op) := by
  have hl := isLive_of_revoked h
  simp only [Final, Escapes, ne_eq, verifyJwt_eq_ok_iff, Option.mem_def, Option.some.injEq,
    forall_eq', hl, Bool.false_eq_true, imp_false]
  constructor
  · rintro hf ⟨ht, userId, hs, u, hu, ha⟩
    exact hf u ⟨userId, hs, ht, hu, ha⟩
  · rintro he u ⟨userId, hs, ht, hu, ha⟩
    exact he ⟨ht, userId, hs, u, hu, ha⟩

theorem refresh_eq_issued_iff {userId token : String} :
    (s.refresh auth now body fresh).2 = .issued userId sessionId token ↔
      ∃ r ∈ auth.requiredString body "refresh_token", ∃ t ∈ s.refreshed auth r,
        t.sessionId = sessionId ∧ now ≤ t.expiresAt ∧
          ∃ u ∈ s.findUser t.userId, u.isActive ∧ u.id = userId ∧ fresh.refreshToken = token := by
  unfold refresh
  cases hr : auth.requiredString body "refresh_token"
  case none => simp
  case some r =>
    cases ht : s.refreshed auth r
    case none => simp [ht]
    case some t =>
      by_cases he : t.expiresAt < now
      case pos => simp [ht, he]
      cases hu : s.findUser t.userId
      case none => simp [ht, he, hu]
      case some u =>
        cases ha : u.isActive
        case false => simp [ht, he, hu, ha]
        case true =>
          simp only [he, if_false, ha, Bool.not_true, Bool.false_eq_true, Response.issued.injEq,
            Option.mem_def, Option.some.injEq, exists_eq_left', ht, hu, true_and, not_lt.mp he]
          tauto

theorem final_refresh_iff : s.Final auth now sessionId (.refresh body fresh) ↔
      ¬s.Escapes auth now sessionId (.refresh body fresh) := by
  simp only [Final, Escapes, ne_eq, refresh_eq_issued_iff]
  constructor
  · rintro hf ⟨r, hr, t, ht, hs, he, u, hu, ha⟩
    exact hf u.id fresh.refreshToken ⟨r, hr, t, ht, hs, he, u, hu, ha, rfl, rfl⟩
  · rintro hn _ _ ⟨r, hr, t, ht, hs, he, u, hu, ha, _⟩
    exact hn ⟨r, hr, t, ht, hs, he, u, hu, ha⟩

-- After any requests before and after a logout that revokes a session, the next one is refused exactly
-- if it does not present a refresh token of the session that is still good, and does not come with a
-- session that is called `0`.
theorem final_iff_of_revokes {s₀ s₁ s₂ : Accounts} (before after : List Call)
    {authorization : Option String} {body : Value} (hb : Transition.run (step auth) s₀ before = some s₁)
    (hl : s₁.Revokes auth now authorization body sessionId)
    (ha : Transition.run (step auth) s₀
      (before ++ (now, .jwtAuth authorization (.logout body)) :: after) = some s₂) (c : Call) :
    s₂.Final auth c.1 sessionId c.2 ↔ ¬s₂.Escapes auth c.1 sessionId c.2 := by
  rw [Transition.run_append, hb, Option.bind_some, Transition.run_cons] at ha
  have hr : s₂.Revoked sessionId := by
    refine Transition.run_invariant (I := (Revoked · sessionId)) (fun hi hs => ?_) ha
      (revoked_of_revokes hl)
    cases hs
    exact keeps_handle.revoked hi
  obtain ⟨time, r⟩ := c
  cases r
  case jwtAuth => exact final_jwtAuth_iff hr
  case refresh => exact final_refresh_iff
  all_goals exact iff_of_true trivial id

end Final

section Examples

def logoutCall : Call :=
  (100, .jwtAuth (some "Bearer u-1") (exampleLogout false))

theorem revokes_logoutCall :
    exampleAccounts.Revokes exampleAuthentication 100 (some "Bearer u-1")
      (.dict [("session_id", .str "s-u-1"), ("all_devices", .bool false)]) "s-u-1" :=
  ⟨⟨_, rfl⟩, ("s-u-1", false), rfl, exampleToken "u-1", .head _, rfl, .inr rfl⟩

theorem final_iff_of_revokes_access :
    ∃ s, Transition.run (step exampleAuthentication) exampleAccounts [logoutCall] = some s ∧
      s.Final exampleAuthentication 200 "s-u-1" (.jwtAuth (some "Bearer u-1") .other) :=
  ⟨_, rfl, (final_iff_of_revokes [] [] rfl revokes_logoutCall rfl
    (200, .jwtAuth (some "Bearer u-1") .other)).mpr fun h => h.left (by decide)⟩

-- The user logs out, and the refresh token of the session is used afterwards.
theorem refresh_after_logout :
    exampleAccounts.Revokes exampleAuthentication 100 (some "Bearer u-1")
        (.dict [("session_id", .str "s-u-1"), ("all_devices", .bool false)]) "s-u-1" ∧
      ((Transition.run (step exampleAuthentication) exampleAccounts [logoutCall]).map fun s =>
        (s.refresh exampleAuthentication 200 (.dict [("refresh_token", .str "r-u-1")])
          ⟨"u-3", "s-3", "r-3"⟩).2) = some (.issued "u-1" "s-u-1" "r-3") :=
  ⟨revokes_logoutCall, by decide⟩

end Examples

end Accounts

end ControlPlane
