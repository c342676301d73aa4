import Quoodle.ControlPlane.Devices
import Quoodle.Data.Transition

-- The sessions and accounts of users, and the endpoints that write to them.
namespace ControlPlane

open Gateway (Value)

-- A row of `auth_tokens`. The session is unique and serves as its key.
structure AuthToken where
  userId : String
  sessionId : String
  refreshTokenHash : String
  expiresAt : Int
  revokedAt : Option Int
  updatedAt : Int
  deriving DecidableEq

structure Account extends User where
  email : String
  password : Option String
  accountStatus : Option String
  updatedAt : Int

namespace Account

def isActive (u : Account) : Bool :=
  u.accountStatus.getD "active" = "active"

-- Nothing is written if no attribute is changed.
def save (u u' : Account) (now : Int) : Account :=
  if u.twoFactorSecret = u'.twoFactorSecret ∧ u.twoFactorEnabled = u'.twoFactorEnabled then u
  else { u' with updatedAt := now }

end Account

structure OtpChallenge where
  id : String
  userId : Option String
  email : String
  otpHash : String
  attempts : Nat
  maxAttempts : Nat
  expiresAt : Int
  consumedAt : Option Int

-- Texts in these tables, as in the others of the control plane, are looked up as SQLite does, which
-- is the default: exactly. The collation that is configured for MySQL ignores case.
structure Accounts where
  tokens : List AuthToken
  users : List Account
  challenges : List OtpChallenge
  sessionIds : (tokens.map AuthToken.sessionId).Nodup
  userIds : (users.map fun u => u.id).Nodup

namespace Accounts

variable (s : Accounts)

def findUser (id : String) : Option Account :=
  s.users.find? (·.id = id)

def findEmail (email : String) : Option Account :=
  s.users.find? (·.email = email)

def mapTokens (f : AuthToken → AuthToken) (hf : ∀ t, (f t).sessionId = t.sessionId) : Accounts where
  tokens := s.tokens.map f
  users := s.users
  challenges := s.challenges
  sessionIds := by simpa [Function.comp_def, hf] using s.sessionIds
  userIds := s.userIds

def mapUsers (f : Account → Account) (hf : ∀ u, (f u).id = u.id) : Accounts where
  tokens := s.tokens
  users := s.users.map f
  challenges := s.challenges
  sessionIds := s.sessionIds
  userIds := by simpa [Function.comp_def, hf] using s.userIds

def saveChallenge (c : OtpChallenge) : Accounts :=
  { s with challenges := s.challenges.map fun d => if d.id = c.id then c else d }

def createToken (t : AuthToken) : Option Accounts :=
  if h : t.sessionId ∈ s.tokens.map AuthToken.sessionId then none
  else some {
    s with
    tokens := s.tokens ++ [t]
    sessionIds := by simpa [List.nodup_append, s.sessionIds] using h }

-- Both `id` and `email` are unique.
def createUser (u : Account) : Option Accounts :=
  if h : (u.id ∈ s.users.map fun u => u.id) ∨ u.email ∈ s.users.map fun u => u.email then none
  else some {
    s with
    users := s.users ++ [u]
    userIds := by simpa [List.nodup_append, s.userIds] using (not_or.mp h).left }

-- Updates of a query also write the time of the update.
def revoke (now : Int) (p : AuthToken → Bool) : Accounts :=
  s.mapTokens (fun t => if p t then { t with revokedAt := some now, updatedAt := now } else t)
    fun t => by split <;> rfl

def saveUser (u : Account) (f : Account → Account) (hf : ∀ u, (f u).id = u.id) (now : Int) : Accounts :=
  s.mapUsers (fun v => if v.id = u.id then v.save (f v) now else v) fun v => by
    dsimp only [Account.save]
    split
    · split
      · rfl
      · exact hf v
    · rfl

end Accounts

-- The claims of an access token as far as they are looked at.
structure Claims where
  iss : Option String
  aud : Option String
  sub : Option String
  sessionId : Option String

inductive DecodeFailure where
  | expired | signatureInvalid | beforeValid
  | other (message : String)

structure Authentication where
  -- What is left of the value of a field: strings are trimmed, and empty ones count as missing.
  clean : String → String → Option String
  isEmail : String → Bool
  sha256 : String → String
  checkHash : String → String → Bool
  verifyTotp : String → String → Int → Bool
  decode : String → Int → Except DecodeFailure Claims
  issuer : String
  audience : String
  refreshTtl : Int

structure FreshTokens where
  userId : String
  sessionId : String
  refreshToken : String

namespace Authentication

variable (auth : Authentication) (body : Value)

section Rules

def requiredString (field : String) : Option String :=
  match (body.getItem field).map Value.json with
  | some (.str s) => auth.clean field s
  | _ => none

def nullableString (field : String) (max : Nat) : Option (Option String) :=
  match (body.getItem field).map Value.json with
  | none | some .null => some none
  | some (.str s) =>
    match auth.clean field s with
    | some s => if s.length ≤ max then some (some s) else none
    | none => some none
  | _ => none

def requiredBoolean (field : String) : Option Bool :=
  match (body.getItem field).map Value.json with
  | some (.bool b) => some b
  | some (.num (.int 0)) => some false
  | some (.num (.int 1)) => some true
  | some (.str s) =>
    match auth.clean field s with
    | some "0" => some false
    | some "1" => some true
    | _ => none
  | _ => none

end Rules

def loginData : Option (String × String) := do
  let email ← (auth.requiredString body "email").filter auth.isEmail
  let password ← auth.requiredString body "password"
  let _ ← (auth.requiredString body "device_fingerprint").filter (·.length ≤ 255)
  let _ ← auth.nullableString body "push_token" 512
  let _ ← auth.nullableString body "two_factor_code" 64
  let _ ← auth.nullableString body "platform" 64
  let _ ← auth.nullableString body "os_version" 64
  let _ ← auth.nullableString body "device_model" 128
  let _ ← auth.nullableString body "app_version" 64
  return (email, password)

structure OtpData where
  email : String
  challengeId : String
  otp : String

def otpData : Option OtpData := do
  let email ← (auth.requiredString body "email").filter fun s => auth.isEmail s && s.length ≤ 190
  let challengeId ← (auth.requiredString body "challenge_id").filter (·.length ≤ 64)
  let otp ← (auth.requiredString body "otp").filter fun s => 4 ≤ s.length && s.length ≤ 12
  let _ ← auth.nullableString body "device_fingerprint" 255
  let _ ← auth.nullableString body "push_token" 512
  return ⟨email, challengeId, otp⟩

structure SessionData where
  userId : String
  sessionId : String

def sessionData : Option SessionData := do
  return ⟨← auth.requiredString body "user_id", ← auth.requiredString body "session_id"⟩

def codeData : Option (SessionData × String) := do
  return (← auth.sessionData body, ← auth.requiredString body "two_factor_code")

def logoutData : Option (String × Bool) := do
  return (← auth.requiredString body "session_id", ← auth.requiredBoolean body "all_devices")

end Authentication

inductive Response where
  | rejected (status : Nat) (reason : String)
  | issued (userId sessionId refreshToken : String)
  | ok
  deriving DecidableEq

inductive Unauthorized where
  | missingHeader | emptyToken | tokenExpired | invalidSignature | tokenNotYetValid
  | invalidToken (message : String)
  | invalidIssuer | invalidAudience | missingSubject | sessionRevoked | userNotFound | accountInactive

namespace Unauthorized

def error : Unauthorized → String
  | missingHeader => "Missing or invalid Authorization header"
  | emptyToken => "Empty token"
  | tokenExpired => "Token expired"
  | invalidSignature => "Invalid signature"
  | tokenNotYetValid => "Token not yet valid"
  | invalidToken message => "Invalid token: " ++ message
  | invalidIssuer => "Invalid issuer"
  | invalidAudience => "Invalid audience"
  | missingSubject => "Missing subject claim"
  | sessionRevoked => "Session revoked or invalid"
  | userNotFound => "User not found"
  | accountInactive => "Account is inactive"

end Unauthorized

namespace Authentication

variable (auth : Authentication)

def bearer (authorization : Option String) : Except Unauthorized String := do
  let header ← (authorization.filter isTruthy).elim (throw .missingHeader) pure
  if !"Bearer ".toList.isPrefixOf header.toList then throw .missingHeader
  let token := String.ofList (header.toList.drop 7)
  if !isTruthy token then throw .emptyToken
  return token

def verifyToken (token : String) (now : Int) : Except Unauthorized Claims :=
  match auth.decode token now with
  | .ok claims => .ok claims
  | .error .expired => .error .tokenExpired
  | .error .signatureInvalid => .error .invalidSignature
  | .error .beforeValid => .error .tokenNotYetValid
  | .error (.other message) => .error (.invalidToken message)

def subject (authorization : Option String) (now : Int) :
    Except Unauthorized (String × Option String) := do
  let claims ← auth.verifyToken (← bearer authorization) now
  if claims.iss.getD "" ≠ auth.issuer then throw .invalidIssuer
  if claims.aud.getD "" ≠ auth.audience then throw .invalidAudience
  let userId ← (claims.sub.filter isTruthy).elim (throw .missingSubject) pure
  return (userId, claims.sessionId)

end Authentication

namespace Accounts

variable (auth : Authentication) (s : Accounts) (now : Int)

def isLive (sessionId : String) : Bool :=
  s.tokens.any fun t => t.sessionId = sessionId && t.revokedAt.isNone

-- The middleware `VerifyJWT`: the user and the session of a request that passes.
def verifyJwt (authorization : Option String) :
    Accounts × Except Unauthorized (Account × Option String) :=
  match auth.subject authorization now with
  | .error e => (s, .error e)
  | .ok (userId, sessionId) =>
    if (sessionId.filter isTruthy).any (!s.isLive ·) then (s, .error .sessionRevoked)
    else
      match s.findUser userId with
      | none => (s, .error .userNotFound)
      | some u =>
        if !u.isActive then
          ((sessionId.filter isTruthy).elim s fun id => s.revoke now (·.sessionId = id),
            .error .accountInactive)
        else (s, .ok (u, sessionId))

-- A new session of a user. A second one with the same identifier is an error of the database.
def issue (fresh : FreshTokens) (userId sessionId : String) : Accounts × Response :=
  match s.createToken ⟨userId, sessionId, auth.sha256 fresh.refreshToken, now + auth.refreshTtl,
    none, now⟩ with
  | some s' => (s', .issued userId sessionId fresh.refreshToken)
  | none => (s, .rejected 500 "")

def login (body : Value) (fresh : FreshTokens) : Accounts × Response :=
  match auth.loginData body with
  | none => (s, .rejected 422 "validation_error")
  | some (email, password) =>
    match s.findEmail email with
    | none => (s, .rejected 401 "invalid_credentials")
    | some u =>
      if !u.password.any (auth.checkHash password) then (s, .rejected 401 "invalid_credentials")
      else if !u.isActive then (s, .rejected 403 "account_inactive")
      else s.issue auth now fresh u.id fresh.sessionId

def lower (s : String) : String :=
  s.map Char.toLower

def challengedUser (c : OtpChallenge) (email : String) : Option Account :=
  match (c.userId.filter isTruthy).bind s.findUser with
  | some u => if lower u.email = lower email then some u else s.findEmail email
  | none => s.findEmail email

def newViewer (fresh : FreshTokens) (email : String) : Account :=
  { id := fresh.userId, role := "viewer", twoFactorEnabled := false, twoFactorSecret := none,
    email := email, password := none, accountStatus := some "active", updatedAt := now }

-- The end of `verifyOtp`, when the code was right and the user is known.
def acceptOtp (c : OtpChallenge) (email : String) (u : Account) (fresh : FreshTokens) : Accounts × Response :=
  if !u.isActive then (s, .rejected 403 "account_inactive")
  else if lower u.email ≠ lower email then
    (s.saveChallenge { c with consumedAt := some now }, .rejected 401 "invalid_otp")
  else
    (s.saveChallenge { c with userId := some u.id, consumedAt := some now }).issue auth now fresh u.id
      fresh.sessionId

def verifyOtp (body : Value) (fresh : FreshTokens) : Accounts × Response :=
  match auth.otpData body with
  | none => (s, .rejected 422 "validation_error")
  | some d =>
    let email := lower (trim d.email)
    match s.challenges.find? fun c => c.id = d.challengeId ∧ c.email = email with
    | none => (s, .rejected 401 "invalid_otp")
    | some c =>
      if c.consumedAt.isSome ∨ c.expiresAt < now ∨ c.maxAttempts ≤ c.attempts then
        (s, .rejected 401 "invalid_otp")
      else
        let c := { c with attempts := c.attempts + 1 }
        if !auth.checkHash d.otp c.otpHash then (s.saveChallenge c, .rejected 401 "invalid_otp")
        else
          match s.challengedUser c email with
          | some u => s.acceptOtp auth now c email u fresh
          | none =>
            let u := newViewer now fresh email
            match s.createUser u with
            | some s' => s'.acceptOtp auth now c email u fresh
            | none => (s, .rejected 500 "")

def verifyTwoFactor (body : Value) (fresh : FreshTokens) : Accounts × Response :=
  match auth.codeData body with
  | none => (s, .rejected 422 "invalid")
  | some (d, code) =>
    match s.findUser d.userId with
    | none => (s, .rejected 404 "invalid")
    | some u =>
      match u.twoFactorSecret.filter isTruthy with
      | none => (s, .rejected 409 "require_enrollment")
      | some secret =>
        if !u.twoFactorEnabled then (s, .rejected 409 "require_enrollment")
        else if !auth.verifyTotp secret code now then (s, .rejected 401 "invalid")
        else s.issue auth now fresh u.id d.sessionId

def refreshed (refreshToken : String) : Option AuthToken :=
  s.tokens.find? (·.refreshTokenHash = auth.sha256 refreshToken)

def rotate (t : AuthToken) (fresh : FreshTokens) : Accounts :=
  s.mapTokens (fun r => if r.sessionId = t.sessionId then { r with
      refreshTokenHash := auth.sha256 fresh.refreshToken
      expiresAt := now + auth.refreshTtl
      updatedAt := now } else r)
    fun r => by split <;> rfl

-- Whether the row has been revoked is not looked at.
def refresh (body : Value) (fresh : FreshTokens) : Accounts × Response :=
  match auth.requiredString body "refresh_token" with
  | none => (s, .rejected 422 "validation_error")
  | some refreshToken =>
    match s.refreshed auth refreshToken with
    | none => (s, .rejected 401 "invalid_refresh")
    | some t =>
      if t.expiresAt < now then (s, .rejected 401 "invalid_refresh")
      else
        match s.findUser t.userId with
        | none => (s, .rejected 401 "invalid_refresh")
        | some u =>
          if !u.isActive then
            (s.revoke now (·.sessionId = t.sessionId), .rejected 403 "account_inactive")
          else
            (s.rotate auth now t fresh, .issued u.id t.sessionId fresh.refreshToken)

-- With `all_devices` the rows of all users are selected.
def logout (body : Value) : Accounts × Response :=
  match auth.logoutData body with
  | none => (s, .rejected 422 "")
  | some (sessionId, allDevices) =>
    (s.revoke now fun t => allDevices || t.sessionId = sessionId, .ok)

def hasSession (d : Authentication.SessionData) : Bool :=
  s.tokens.any fun t => t.userId = d.userId && t.sessionId = d.sessionId && t.revokedAt.isNone &&
    now < t.expiresAt

def setup (body : Value) (secret : String) : Accounts × Response :=
  match auth.sessionData body with
  | none => (s, .rejected 422 "invalid")
  | some d =>
    if !s.hasSession now d then (s, .rejected 401 "invalid_session")
    else
      match s.findUser d.userId with
      | none => (s, .rejected 404 "invalid")
      | some u =>
        (s.saveUser u (fun u => { u with twoFactorSecret := some secret, twoFactorEnabled := false })
          (fun _ => rfl) now, .ok)

def confirm (body : Value) : Accounts × Response :=
  match auth.codeData body with
  | none => (s, .rejected 422 "invalid")
  | some (d, code) =>
    if !s.hasSession now d then (s, .rejected 401 "invalid_session")
    else
      match s.findUser d.userId with
      | none => (s, .rejected 404 "invalid")
      | some u =>
        match u.twoFactorSecret.filter isTruthy with
        | none => (s, .rejected 409 "require_setup")
        | some secret =>
          if !auth.verifyTotp secret code now then (s, .rejected 401 "invalid")
          else (s.saveUser u (fun u => { u with twoFactorEnabled := true }) (fun _ => rfl) now, .ok)

end Accounts

-- The protected requests that write to these tables, and the other ones.
inductive Operation where
  | logout (body : Value)
  | setup (body : Value) (secret : String)
  | confirm (body : Value)
  | other

inductive Request where
  | login (body : Value) (fresh : FreshTokens)
  | verifyOtp (body : Value) (fresh : FreshTokens)
  | verifyTwoFactor (body : Value) (fresh : FreshTokens)
  | refresh (body : Value) (fresh : FreshTokens)
  | jwtAuth (authorization : Option String) (op : Operation)

namespace Accounts

variable (auth : Authentication) (s : Accounts) (now : Int)

def perform : Operation → Accounts × Response
  | .logout body => s.logout auth now body
  | .setup body secret => s.setup auth now body secret
  | .confirm body => s.confirm auth now body
  | .other => (s, .ok)

def handle : Request → Accounts × Response
  | .login body fresh => s.login auth now body fresh
  | .verifyOtp body fresh => s.verifyOtp auth now body fresh
  | .verifyTwoFactor body fresh => s.verifyTwoFactor auth now body fresh
  | .refresh body fresh => s.refresh auth now body fresh
  | .jwtAuth authorization op =>
    match s.verifyJwt auth now authorization with
    | (s', .ok _) => s'.perform auth now op
    | (s', .error e) => (s', .rejected 401 e.error)

def others (userId : String) : List AuthToken × List Account :=
  (s.tokens.filter (·.userId ≠ userId), s.users.filter (·.id ≠ userId))

end Accounts

theorem Account.save_eq_self_iff {u u' : Account} {now : Int} :
    u.save u' now = u ↔
      u.twoFactorSecret = u'.twoFactorSecret ∧ u.twoFactorEnabled = u'.twoFactorEnabled := by
  unfold save
  split
  case isTrue h => exact iff_of_true rfl h
  case isFalse h =>
    refine iff_of_false (fun he => h ?_) h
    rw [← he]
    exact ⟨rfl, rfl⟩

-- What a request of the user writes to rows of others has been there before: the revocation of
-- sessions that a logout selects, or the settings of the user that a request names.
def Operation.Confined (auth : Authentication) (s : Accounts) (now : Int) (userId : String) :
    Operation → Prop
  | .logout body => ∀ d ∈ auth.logoutData body, ∀ t ∈ s.tokens, t.userId ≠ userId →
    d.2 ∨ t.sessionId = d.1 → t.revokedAt = some now ∧ t.updatedAt = now
  | .setup body secret => ∀ d ∈ auth.sessionData body, d.userId ≠ userId → s.hasSession now d →
    ∀ u ∈ s.findUser d.userId, u.twoFactorSecret = some secret ∧ u.twoFactorEnabled = false
  | .confirm body => ∀ d ∈ auth.codeData body, d.1.userId ≠ userId → s.hasSession now d.1 →
    ∀ u ∈ s.findUser d.1.userId, ∀ secret ∈ u.twoFactorSecret.filter isTruthy,
      auth.verifyTotp secret d.2 now → u.twoFactorEnabled
  | .other => True

namespace Accounts

variable {auth : Authentication} {s : Accounts} {now : Int} {userId : String}
variable {body : Value} {u : Account}

theorem others_revoke_iff {p : AuthToken → Bool} :
    (s.revoke now p).others userId = s.others userId ↔
      ∀ t ∈ s.tokens, t.userId ≠ userId → p t → t.revokedAt = some now ∧ t.updatedAt = now := by
  have hr : (s.revoke now p).others userId = s.others userId ↔
      (s.revoke now p).tokens.filter (·.userId ≠ userId) = s.tokens.filter (·.userId ≠ userId) :=
    Prod.mk.injEq .. ▸ and_iff_left rfl
  rw [hr, revoke, mapTokens, Rows.filter_map_eq_iff fun t => by split <;> rfl]
  refine forall₂_congr fun t _ => ?_
  rw [decide_eq_true_eq]
  refine imp_congr_right fun _ => ?_
  split
  case isTrue h =>
    obtain ⟨_, _, _, _, _, _⟩ := t
    simp [h, eq_comm]
  case isFalse h => simp [h]

theorem mem_of_findUser {id : String} (h : s.findUser id = some u) : u ∈ s.users ∧ u.id = id :=
  ⟨List.mem_of_find?_eq_some h, by simpa using List.find?_some h⟩

theorem others_saveUser_iff {f : Account → Account} {hf : ∀ u, (f u).id = u.id} (hu : u ∈ s.users) :
    (s.saveUser u f hf now).others userId = s.others userId ↔
      u.id ≠ userId → u.twoFactorSecret = (f u).twoFactorSecret ∧
        u.twoFactorEnabled = (f u).twoFactorEnabled := by
  have hs : (s.saveUser u f hf now).others userId = s.others userId ↔
      (s.saveUser u f hf now).users.filter (·.id ≠ userId) = s.users.filter (·.id ≠ userId) :=
    Prod.mk.injEq .. ▸ and_iff_right rfl
  have hid (v : Account) : (if v.id = u.id then v.save (f v) now else v).id = v.id := by
    unfold Account.save
    split
    · split
      · rfl
      · exact hf v
    · rfl
  rw [hs, saveUser, mapUsers, Rows.filter_map_eq_iff fun v => by rw [hid v]]
  constructor
  case mp =>
    intro h hn
    have he := h u hu (decide_eq_true hn)
    rw [if_pos rfl] at he
    exact Account.save_eq_self_iff.mp he
  case mpr =>
    intro h v hv hn
    split
    case isTrue he =>
      -- The row is the only one of its user.
      obtain rfl : v = u := List.inj_on_of_nodup_map s.userIds hv hu he
      exact Account.save_eq_self_iff.mpr (h (of_decide_eq_true hn))
    case isFalse => rfl

theorem others_logout_iff : (s.logout auth now body).1.others userId = s.others userId ↔
      (Operation.logout body).Confined auth s now userId := by
  unfold logout Operation.Confined
  cases hd : auth.logoutData body
  case none => simp [hd]
  case some d => simp [hd, others_revoke_iff, -Prod.forall]

theorem others_setup_iff {secret : String} :
    (s.setup auth now body secret).1.others userId = s.others userId ↔
      (Operation.setup body secret).Confined auth s now userId := by
  unfold setup Operation.Confined
  cases hd : auth.sessionData body
  case none => simp [hd]
  case some d =>
    cases hs : s.hasSession now d
    case false => simp [hd, hs]
    case true =>
      cases hu : s.findUser d.userId
      case none => simp [hd, hs, hu]
      case some u =>
        have ⟨hm, hi⟩ := mem_of_findUser hu
        simp [hd, hs, hu, others_saveUser_iff hm, hi]

theorem others_confirm_iff : (s.confirm auth now body).1.others userId = s.others userId ↔
      (Operation.confirm body).Confined auth s now userId := by
  unfold confirm Operation.Confined
  cases hd : auth.codeData body
  case none => simp [hd]
  case some d =>
    cases hs : s.hasSession now d.1
    case false => simp [hd, hs]
    case true =>
      cases hu : s.findUser d.1.userId
      case none => simp [hd, hs, hu]
      case some u =>
        have ⟨hm, hi⟩ := mem_of_findUser hu
        cases ht : u.twoFactorSecret.filter isTruthy
        case none => simp [hd, hs, hu, ht, -Option.filter_eq_some_iff]
        case some secret =>
          cases hv : auth.verifyTotp secret d.2 now
          case false => simp [hd, hs, hu, ht, hv, -Option.filter_eq_some_iff]
          case true => simp [hd, hs, hu, ht, hv, others_saveUser_iff hm, hi, -Option.filter_eq_some_iff]

theorem verifyJwt_of_ok {authorization : Option String} {sessionId : Option String}
    (h : (s.verifyJwt auth now authorization).2 = .ok (u, sessionId)) :
    s.verifyJwt auth now authorization = (s, .ok (u, sessionId)) := by
  unfold verifyJwt at h ⊢
  cases hs : auth.subject authorization now
  case error => simp [hs] at h
  case ok p =>
    simp only [hs] at h ⊢
    split at h
    case isTrue => cases h
    case isFalse hl =>
      rw [if_neg hl]
      cases hu : s.findUser p.1
      case none => simp [hu] at h
      case some v =>
        simp only [hu] at h ⊢
        split at h
        case isTrue => cases h
        case isFalse ha => exact if_neg ha ▸ congrArg (s, ·) h

-- The requests of a user leave the rows of others alone exactly if what they write to them has been
-- there before.
theorem jwtAuth_others_iff {authorization : Option String} {op : Operation} {u : Account}
    {sessionId : Option String} (h : (s.verifyJwt auth now authorization).2 = .ok (u, sessionId)) :
    (s.handle auth now (.jwtAuth authorization op)).1.others u.id = s.others u.id ↔
      op.Confined auth s now u.id := by
  simp only [handle, verifyJwt_of_ok h]
  cases op
  case logout => exact others_logout_iff
  case setup => exact others_setup_iff
  case confirm => exact others_confirm_iff
  case other => exact iff_of_true rfl trivial

end Accounts

section Examples

-- Access tokens are the identifiers of users, and secrets are their own codes.
def exampleAuthentication : Authentication where
  clean _ s := if s = "" then none else some s
  isEmail _ := true
  sha256 s := s
  checkHash s h := s = h
  verifyTotp s c _ := s = c
  decode t _ := .ok ⟨some "issuer", some "audience", some t, some ("s-" ++ t)⟩
  issuer := "issuer"
  audience := "audience"
  refreshTtl := 3600

def exampleAccount (id : String) : Account :=
  { id := id, role := "viewer", twoFactorEnabled := false, twoFactorSecret := none,
    email := id ++ "@example", password := none, accountStatus := none, updatedAt := 0 }

def exampleToken (id : String) : AuthToken :=
  ⟨id, "s-" ++ id, "r-" ++ id, 1000, none, 0⟩

def exampleAccounts : Accounts where
  tokens := [exampleToken "u-1", exampleToken "u-2"]
  users := [exampleAccount "u-1", exampleAccount "u-2"]
  challenges := []
  sessionIds := by decide
  userIds := by decide

def exampleLogout (allDevices : Bool) : Operation :=
  .logout (.dict [("session_id", .str "s-u-1"), ("all_devices", .bool allDevices)])

end Examples

namespace Accounts

theorem jwtAuth_others_iff_own :
    (exampleAccounts.handle exampleAuthentication 100
        (.jwtAuth (some "Bearer u-1") (exampleLogout false))).1.others (exampleAccount "u-1").id =
      exampleAccounts.others (exampleAccount "u-1").id := by
  have hv : (exampleAccounts.verifyJwt exampleAuthentication 100 (some "Bearer u-1")).2 =
    .ok (exampleAccount "u-1", some "s-u-1") := rfl
  refine (jwtAuth_others_iff hv).mpr ?_
  simp +decide [exampleLogout, Operation.Confined]

theorem logout_others :
    (exampleAccounts.verifyJwt exampleAuthentication 100 (some "Bearer u-1")).2 =
        .ok (exampleAccount "u-1", some "s-u-1") ∧
      (exampleAccounts.handle exampleAuthentication 100
          (.jwtAuth (some "Bearer u-1") (exampleLogout true))).1.others (exampleAccount "u-1").id ≠
        exampleAccounts.others (exampleAccount "u-1").id := by
  refine ⟨rfl, fun h => ?_⟩
  have ht := congrArg (fun o => o.1.map AuthToken.revokedAt) h
  exact absurd ht (by decide)

end Accounts

end ControlPlane
