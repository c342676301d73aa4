import Quoodle.Data.Transition
import Quoodle.Gateway.Loads
import Quoodle.Gateway.Messages
import Quoodle.Gateway.ReplayProtection

-- How a websocket is authenticated by its first message.
namespace Gateway.Handshake

open Replay (ReplayConfig ReplayProtector Remembers nonceTtlSeconds)
open Transition (Steps)

structure Environment where
  replay : ReplayConfig
  readFloat : List Char → Option FloatRepr
  fromisoformat : String → Option Int
  formatSeconds : Int → String
  -- The text that SQLite compares a text with a floating-point number by.
  realText : FloatRepr → String
  hasPynacl : Bool
  b64decode : String → Option (List UInt8)
  -- Whether a signature of a message is one by a public key.
  verify : List UInt8 → List UInt8 → List UInt8 → Bool

-- A first message. The clock of the gateway is in microseconds, and that of Redis in seconds.
structure Arrival where
  raw : List Char
  now : Int
  redisNow : Int
  reachable : Bool
  connectedAt : String
  -- The claims of the tokens that are valid when the message is handled.
  validateAuthJwt : Value → Except String Value

structure Registration where
  payload : Value
  deviceId : Value
  pubkey : String
  claims : Value
  now : Int
  redisNow : Int

inductive Ending where
  | refused (failure : AuthFailure)
  -- Any other exception ends the handler.
  | raised

def requiredFields : List String :=
  ["type", "from", "device_id", "message_id", "body", "sig", "timestamp", "session_id"]

def validateAuthEnvelope (payload : Value) : Except Raised Unit := do
  for field in requiredFields do
    raiseIf (!(← liftOption (payload.contains field))) ("Missing required field: " ++ field)
  raiseIf (!(← liftOption (payload.get "type" .none)).isStr "AUTH") "First message must be AUTH"
  raiseIf (!(← liftOption (payload.get "from" .none)).isStr "agent") "AUTH must originate from agent"
  let body := (← liftOption (payload.get "body" .none)).orElse (.dict [])
  let required := "AUTH body.auth.jwt and nonce required"
  raiseIf (!(← liftOption (body.contains "auth"))) required
  let auth ← liftOption (body.get "auth" (.dict []))
  raiseIf (!(← liftOption (auth.contains "jwt"))) required
  raiseIf (!(← liftOption (auth.contains "nonce"))) required
  raiseIf (!(← liftOption (body.contains "agent_info"))) "AUTH body.agent_info required"

-- The text that the column `device_id` is compared with, which SQLite makes of scalars. There is none
-- for `None`, and other values cannot be bound.
def boundText (env : Environment) (deviceId : Value) : Option (Option String) :=
  match deviceId.json with
  | .null => some none
  | .str s => some (some s)
  | .bool b => some (some (if b then "1" else "0"))
  | .num (.int n) =>
    if -2 ^ 63 ≤ n ∧ n < 2 ^ 63 then some (some (.ofList (Json.intText n))) else none
  | .num (.float x) => some (some (env.realText x))
  | .arr _ | .obj _ => none

def getPubkeyB64 (env : Environment) (deviceKeys : List (String × String)) (deviceId : Value) :
    Option (Option String) :=
  (boundText env deviceId).map fun text => text.bind fun t => deviceKeys.lookup t

-- Models `str(device_id)` for the scalars that a key can be found for.
def deviceText (deviceId : Value) : String :=
  match deviceId.json with
  | .str s => s
  | .num (.float x) => .ofList x.text
  | _ => Replay.strOfInt deviceId

-- Models `(-len(value)) % 4` characters of padding.
def pad (value : String) : String :=
  value ++ .ofList (List.replicate ((4 - value.length % 4) % 4) '=')

def decodeBase64Padded (env : Environment) (value : String) : Option (List UInt8) :=
  env.b64decode value <|> env.b64decode (pad value)

def verifyEd25519Signature (env : Environment) (payload : Value) (pubkey : String) :
    Except String Unit :=
  if !env.hasPynacl then .error "PyNaCl not installed; cannot verify Ed25519 signatures"
  else
    match (payload.getItem "sig").map Value.json with
    | some (.str sigB64) =>
      if sigB64 = "" then .error "Missing sig"
      else
        match decodeBase64Padded env sigB64, decodeBase64Padded env pubkey with
        | none, _ => .error "sig is not valid base64"
        | some _, none => .error "pubkey is not valid base64"
        | some sig, some pub =>
          if env.verify pub (signedBytes payload) sig then .ok ()
          else .error "Ed25519 verification failed"
    | _ => .error "Missing sig"

structure Named where
  payload : Value
  deviceId : Value
  pubkey : String

def refuse {α : Type} (failure : AuthFailure) : Except Ending α :=
  .error (.refused failure)

def orRaise {α : Type} : Option α → Except Ending α
  | some a => .ok a
  | none => .error .raised

def onError {α ε : Type} (f : ε → Ending) : Except ε α → Except Ending α
  | .ok a => .ok a
  | .error e => .error (f e)

def replayEnding (deviceId : Value) : Raised → Ending
  | .valueError exc => .refused (.replay deviceId exc)
  | .other => .raised

def findDevice (env : Environment) (deviceKeys : List (String × String)) (a : Arrival) :
    Except Ending Named := do
  let some payload := Value.loads env.readFloat a.raw | refuse .invalidPayload
  onError (fun | .valueError exc => .refused (.invalidEnvelope exc) | .other => .raised)
    (validateAuthEnvelope payload)
  let deviceId ← orRaise (payload.get "device_id" (.str "unknown"))
  let pubkey := (← orRaise (getPubkeyB64 env deviceKeys deviceId)).getD ""
  if pubkey = "" then refuse (.unknownDevice deviceId) else return ⟨payload, deviceId, pubkey⟩

def nonceOf (payload : Value) : Option Value := do
  (← (← payload.get "body" (.dict [])).get "auth" (.dict [])).get "nonce" .none

def checkNonce (env : Environment) (p : ReplayProtector) (a : Arrival) (m : Named) :
    Except Ending Unit × ReplayProtector :=
  match (nonceOf m.payload).map Value.json with
  | none => (.error .raised, p)
  | some (.str nonce) =>
    let (answer, p) :=
      Replay.checkAndStoreNonce env.replay p a.redisNow a.reachable (deviceText m.deviceId) nonce
    (onError (replayEnding m.deviceId) answer, p)
  | some _ => (.ok (), p)

def tokenOf (payload : Value) : Option Value := do
  (← (← payload.getItem "body").getItem "auth").getItem "jwt"

def authenticate (env : Environment) (a : Arrival) (m : Named) : Except Ending Registration := do
  onError (.refused <| .invalidSignature m.deviceId ·) (verifyEd25519Signature env m.payload m.pubkey)
  let token ← orRaise (tokenOf m.payload)
  let body ← orRaise (m.payload.getItem "body")
  let agentInfo ← orRaise (body.get "agent_info" (.dict []))
  let _ ← orRaise (agentInfo.setItem "connected_at" (.str a.connectedAt))
  let claims ← onError (.refused <| .invalidJwt m.deviceId ·) (a.validateAuthJwt token)
  return ⟨m.payload, m.deviceId, m.pubkey, claims, a.now, a.redisNow⟩

def agentWs (env : Environment) (deviceKeys : List (String × String)) (p : ReplayProtector)
    (a : Arrival) : Except Ending Registration × ReplayProtector :=
  match findDevice env deviceKeys a with
  | .error e => (.error e, p)
  | .ok m =>
    match onError (replayEnding m.deviceId) <|
      Replay.validateTimestamp env.fromisoformat env.formatSeconds env.replay a.now
        ((m.payload.getItem "timestamp").getD (.str "")) with
    | .error e => (.error e, p)
    | .ok () =>
      match checkNonce env p a m with
      | (.error e, p) => (.error e, p)
      | (.ok (), p) => (authenticate env a m, p)

structure State where
  replay : ReplayProtector
  deviceKeys : List (String × String)
  sessions : List Registration

inductive Action where
  | connect (a : Arrival)
  -- A message of a session, or one that is refused after its nonce was stored.
  | call (r : Replay.Request)
  | upsertPubkeyB64 (deviceId pubkey : String)

-- Models `str.strip` for the characters of ASCII.
def normalizePubkey (pubkey : String) : String :=
  pad pubkey.trimAscii.toString

def step (env : Environment) (s : State) : Action → Option State
  | .connect a =>
    let o := agentWs env s.deviceKeys s.replay a
    some { s with replay := o.2, sessions := s.sessions ++ o.1.toOption.toList }
  | .call r => some { s with replay := (Replay.step env.replay s.replay r).2 }
  | .upsertPubkeyB64 deviceId pubkey =>
    some { s with deviceKeys := Json.assign deviceId (normalizePubkey pubkey) s.deviceKeys }

def IsAgentToken (claims deviceId : Value) : Prop :=
  claims.getItem "scope" = some (.str "agent") ∧ claims.getItem "sub" = some deviceId

def nonceIsString (payload : Value) : Bool :=
  match (nonceOf payload).map Value.json with
  | some (.str _) => true
  | _ => false

def Bound (env : Environment) (_ : State) : Action → Prop
  | .connect a =>
    ∀ payload ∈ Value.loads env.readFloat a.raw, nonceIsString payload ∧
      ∀ token ∈ tokenOf payload, ∀ claims ∈ (a.validateAuthJwt token).toOption,
        ∀ deviceId ∈ payload.getItem "device_id", IsAgentToken claims deviceId
  | .call _ | .upsertPubkeyB64 _ _ => True

structure Authentic (env : Environment) (deviceKeys : List (String × String)) (a : Arrival)
    (r : Registration) : Prop where
  payload : Value.loads env.readFloat a.raw = some r.payload
  fields : ∀ f ∈ requiredFields, (r.payload.getItem f).isSome
  type : r.payload.getItem "type" = some (.str "AUTH")
  sender : r.payload.getItem "from" = some (.str "agent")
  device : r.payload.getItem "device_id" = some r.deviceId
  key : getPubkeyB64 env deviceKeys r.deviceId = some (some r.pubkey)
  signed : ∃ sigB64 sig pub, r.payload.getItem "sig" = some (.str sigB64) ∧
    decodeBase64Padded env sigB64 = some sig ∧ decodeBase64Padded env r.pubkey = some pub ∧
    env.verify pub (signedBytes r.payload) sig
  fresh : ∃ ts t, r.payload.getItem "timestamp" = some (.str ts) ∧
    Replay.parseIso8601 env.fromisoformat ts = some t ∧
    |a.now - t| ≤ env.replay.maxClockSkewSeconds * 10 ^ 6
  token : ∃ token, tokenOf r.payload = some token ∧ a.validateAuthJwt token = .ok r.claims

section Checks

variable {env : Environment} {deviceKeys : List (String × String)} {p : ReplayProtector} {a : Arrival}
variable {r : Registration} {m : Named} {d payload v x : Value} {p' : ReplayProtector}

theorem orRaise_eq_ok_iff {α : Type} {o : Option α} {x : α} : orRaise o = .ok x ↔ o = some x := by
  cases o <;> simp [orRaise]

theorem onError_eq_ok_iff {α ε : Type} {f : ε → Ending} {e : Except ε α} {x : α} :
    onError f e = .ok x ↔ e = .ok x := by
  cases e <;> simp [onError]

theorem isDict_of_get {k : String} (h : d.get k x = some v) : d.isDict :=
  (Option.ite_none_right_eq_some.mp h).left

theorem getItem_of_get {k : String} (h : d.get k x = some v)
    (hk : (d.getItem k).isSome) : d.getItem k = some v := by
  obtain ⟨w, hw⟩ := Option.isSome_iff_exists.mp hk
  have hx := (Option.ite_none_right_eq_some.mp h).right
  rw [hw, Option.getD_some] at hx
  rw [hw, hx]

theorem validateAuthEnvelope_ok (h : validateAuthEnvelope payload = .ok ()) :
    (∀ f ∈ requiredFields, (payload.getItem f).isSome) ∧
      payload.getItem "type" = some (.str "AUTH") ∧ payload.getItem "from" = some (.str "agent") := by
  unfold validateAuthEnvelope at h
  simp only [bind_eq_ok_iff, raiseIf_eq_ok_iff, liftOption_eq_ok_iff, requiredFields_eq_ok_iff,
    Bool.not_eq_eq_eq_not, Bool.not_false, Value.isStr_iff] at h
  obtain ⟨_, hf, _, ht, _, rfl, _, hs, _, rfl, _⟩ := h
  have hf' (f : String) (hm : f ∈ requiredFields) : (payload.getItem f).isSome :=
    Value.contains_eq_true_iff (isDict_of_get ht) |>.mp (hf f hm)
  exact ⟨hf', getItem_of_get ht (hf' _ (by simp [requiredFields])),
    getItem_of_get hs (hf' _ (by simp [requiredFields]))⟩

theorem findDevice_ok (h : findDevice env deviceKeys a = .ok m) :
    Value.loads env.readFloat a.raw = some m.payload ∧ validateAuthEnvelope m.payload = .ok () ∧
      m.payload.get "device_id" (.str "unknown") = some m.deviceId ∧
      getPubkeyB64 env deviceKeys m.deviceId = some (some m.pubkey) := by
  unfold findDevice at h
  split at h
  case h_2 => cases h
  case h_1 payload hl =>
    simp only [bind_eq_ok_iff, onError_eq_ok_iff, orRaise_eq_ok_iff] at h
    obtain ⟨_, hv, deviceId, hd, pubkey, hk, h⟩ := h
    split at h
    case isTrue => cases h
    case isFalse hp =>
      cases h
      refine ⟨hl, hv, hd, ?_⟩
      cases pubkey
      case none => exact absurd rfl hp
      case some k => exact hk

theorem verifyEd25519Signature_ok {pubkey : String}
    (h : verifyEd25519Signature env payload pubkey = .ok ()) :
    ∃ sigB64 sig pub, payload.getItem "sig" = some (.str sigB64) ∧
      decodeBase64Padded env sigB64 = some sig ∧ decodeBase64Padded env pubkey = some pub ∧
      env.verify pub (signedBytes payload) sig := by
  unfold verifyEd25519Signature at h
  split at h
  case isTrue => cases h
  split at h
  case h_2 => cases h
  case h_1 sigB64 hs =>
    obtain ⟨v, hv, he⟩ := Option.map_eq_some_iff.mp hs
    have hv' : v = .str sigB64 := Value.ext he
    split at h
    case isTrue => cases h
    split at h
    case h_1 => cases h
    case h_2 => cases h
    case h_3 sig pub hd hp =>
      split at h
      case isFalse => cases h
      case isTrue ht => exact ⟨sigB64, sig, pub, hv' ▸ hv, hd, hp, ht⟩

theorem validateTimestamp_ok {now : Int} {timestamp : Value}
    (h : Replay.validateTimestamp env.fromisoformat env.formatSeconds env.replay now timestamp =
      .ok ()) :
    ∃ ts t, timestamp = .str ts ∧ Replay.parseIso8601 env.fromisoformat ts = some t ∧
      |now - t| ≤ env.replay.maxClockSkewSeconds * 10 ^ 6 := by
  simp only [Replay.validateTimestamp] at h
  split at h
  case h_1 => cases h
  case h_2 t ht =>
    split at h
    case isTrue => cases h
    case isFalse hs =>
      split at ht
      case h_2 => cases ht
      case h_1 ts hj => exact ⟨ts, t, Value.ext hj, ht, not_lt.mp hs⟩

theorem authenticate_ok (h : authenticate env a m = .ok r) :
    verifyEd25519Signature env m.payload m.pubkey = .ok () ∧
      ∃ token claims, tokenOf m.payload = some token ∧ a.validateAuthJwt token = .ok claims ∧
        r = ⟨m.payload, m.deviceId, m.pubkey, claims, a.now, a.redisNow⟩ := by
  unfold authenticate at h
  simp only [bind_eq_ok_iff, onError_eq_ok_iff, orRaise_eq_ok_iff] at h
  obtain ⟨_, hv, token, ht, _, _, _, _, _, _, claims, hc, h⟩ := h
  cases h
  exact ⟨hv, token, claims, ht, hc, rfl⟩

theorem agentWs_ok (h : agentWs env deviceKeys p a = (.ok r, p')) :
    ∃ m, findDevice env deviceKeys a = .ok m ∧
      Replay.validateTimestamp env.fromisoformat env.formatSeconds env.replay a.now
        ((m.payload.getItem "timestamp").getD (.str "")) = .ok () ∧
      checkNonce env p a m = (.ok (), p') ∧ authenticate env a m = .ok r := by
  unfold agentWs at h
  split at h
  case h_1 => cases h
  case h_2 m hm =>
    split at h
    case h_1 => cases h
    case h_2 ht =>
      split at h
      case h_1 => cases h
      case h_2 p'' hn =>
        obtain ⟨ha, rfl⟩ := Prod.mk.inj h
        exact ⟨m, hm, onError_eq_ok_iff.mp ht, hn, ha⟩

theorem authentic_of_agentWs (h : agentWs env deviceKeys p a = (.ok r, p')) :
    Authentic env deviceKeys a r := by
  obtain ⟨m, hm, ht, hn, ha⟩ := agentWs_ok h
  obtain ⟨hl, hv, hd, hk⟩ := findDevice_ok hm
  obtain ⟨hs, token, claims, htok, hc, rfl⟩ := authenticate_ok ha
  obtain ⟨hf, htype, hfrom⟩ := validateAuthEnvelope_ok hv
  obtain ⟨ts, t, he, hp, hle⟩ := validateTimestamp_ok ht
  have hts : m.payload.getItem "timestamp" = some (.str ts) := by
    obtain ⟨v, hv⟩ := Option.isSome_iff_exists.mp (hf "timestamp" (by simp [requiredFields]))
    rw [hv, Option.getD_some] at he
    rw [hv, he]
  exact {
    payload := hl
    fields := hf
    type := htype
    sender := hfrom
    device := getItem_of_get hd (hf _ (by simp [requiredFields]))
    key := hk
    signed := verifyEd25519Signature_ok hs
    fresh := ⟨ts, t, hts, hp, hle⟩
    token := ⟨token, htok, hc⟩ }

end Checks

section Nonces

variable {env : Environment} {s s' : State} {a : Arrival} {r : Registration} {p' : ReplayProtector}
variable {p : ReplayProtector}

theorem snd_checkNonce {m : Named} : (checkNonce env p a m).2 = p ∨
      ∃ q, (checkNonce env p a m).2 = (Replay.step env.replay p q).2 := by
  unfold checkNonce
  split
  case h_1 => exact .inl rfl
  case h_2 nonce _ =>
    exact .inr ⟨⟨.checkAndStoreNonce (deviceText m.deviceId) nonce, a.redisNow, a.reachable⟩, rfl⟩
  case h_3 => exact .inl rfl

theorem snd_agentWs (env : Environment) (deviceKeys : List (String × String)) (p : ReplayProtector)
    (a : Arrival) :
    (agentWs env deviceKeys p a).2 = p ∨
      ∃ q, (agentWs env deviceKeys p a).2 = (Replay.step env.replay p q).2 := by
  unfold agentWs
  split
  case h_1 => exact .inl rfl
  case h_2 m hm =>
    split
    case h_1 => exact .inl rfl
    have hs := @snd_checkNonce env a p m
    split
    case h_1 hn => rwa [hn] at hs
    case h_2 hn => rwa [hn] at hs

-- The session has a nonce that is still known.
def IsRemembered (env : Environment) (p : ReplayProtector) (r : Registration) : Prop :=
  r.payload.getItem "device_id" = some r.deviceId ∧
    ∃ nonce, nonceOf r.payload = some (.str nonce) ∧
      Remembers env.replay p (deviceText r.deviceId) nonce r.redisNow

theorem checkNonce_of_str {m : Named} {nonce : String}
    (hn : nonceOf m.payload = some (.str nonce)) (h : checkNonce env p a m = (.ok (), p')) :
    Replay.checkAndStoreNonce env.replay p a.redisNow a.reachable (deviceText m.deviceId) nonce =
      (.ok (), p') := by
  have hj : (nonceOf m.payload).map Value.json = some (.str nonce) := by
    rw [hn]
    rfl
  simp only [checkNonce, hj, Prod.mk.injEq, onError_eq_ok_iff] at h
  exact Prod.ext h.left h.right

theorem exists_nonce {payload : Value} (h : nonceIsString payload) :
    ∃ nonce, nonceOf payload = some (.str nonce) := by
  unfold nonceIsString at h
  split at h
  case h_2 => cases h
  case h_1 nonce hn =>
    obtain ⟨v, hv, he⟩ := Option.map_eq_some_iff.mp hn
    exact ⟨nonce, hv.trans (congrArg some (Value.ext he))⟩

-- The session is registered with a new nonce, if the nonce is a string.
theorem exists_accepted (hb : Bound env s (.connect a))
    (h : agentWs env s.deviceKeys s.replay a = (.ok r, p')) :
    ∃ nonce, nonceOf r.payload = some (.str nonce) ∧
      Replay.checkAndStoreNonce env.replay s.replay r.redisNow a.reachable (deviceText r.deviceId)
        nonce = (.ok (), p') := by
  obtain ⟨m, hm, _, hn, ha⟩ := agentWs_ok h
  obtain ⟨hl, _⟩ := findDevice_ok hm
  obtain ⟨_, _, _, _, _, rfl⟩ := authenticate_ok ha
  obtain ⟨nonce, hx⟩ := exists_nonce (hb m.payload hl).left
  exact ⟨nonce, hx, checkNonce_of_str hx hn⟩

theorem isAgentToken_of_bound (hb : Bound env s (.connect a))
    (h : Authentic env s.deviceKeys a r) : IsAgentToken r.claims r.deviceId := by
  obtain ⟨token, ht, hc⟩ := h.token
  exact (hb _ h.payload).right token ht r.claims (by rw [hc]; rfl) r.deviceId h.device

theorem agentWs_eq_of_toOption {deviceKeys : List (String × String)}
    (h : (agentWs env deviceKeys p a).1.toOption = some r) :
    agentWs env deviceKeys p a = (.ok r, (agentWs env deviceKeys p a).2) := by
  refine Prod.ext ?_ rfl
  cases ho : (agentWs env deviceKeys p a).1
  case error e => simp [ho, Except.toOption] at h
  case ok r' => simpa [ho, Except.toOption] using h

theorem isRemembered_step {act : Action} (h : ∀ r ∈ s.sessions, IsRemembered env s.replay r)
    (hb : Bound env s act) (hs : step env s act = some s') :
    ∀ r ∈ s'.sessions, IsRemembered env s'.replay r := by
  have hcall (q : Replay.Request) {r : Registration} (hr : IsRemembered env s.replay r) :
      IsRemembered env (Replay.step env.replay s.replay q).2 r :=
    ⟨hr.left, hr.right.imp fun _ hn => ⟨hn.left, hn.right.step q⟩⟩
  cases act
  case call q =>
    cases hs
    exact fun r hr => hcall q (h r hr)
  case upsertPubkeyB64 =>
    cases hs
    exact h
  case connect a =>
    simp only [step, Option.some.injEq] at hs
    subst hs
    intro r hr
    cases List.mem_append.mp hr
    case inl hr =>
      dsimp only
      obtain he | ⟨q, he⟩ := snd_agentWs env s.deviceKeys s.replay a
      · rw [he]
        exact h r hr
      · rw [he]
        exact hcall q (h r hr)
    case inr hr =>
      have hx := agentWs_eq_of_toOption (Option.mem_toList.mp hr)
      obtain ⟨nonce, hn, hc⟩ := exists_accepted hb hx
      refine ⟨(authentic_of_agentWs hx).device, nonce, hn, ?_⟩
      have hm := Replay.remembers_of_accepted (congrArg Prod.fst hc)
      rwa [hc] at hm

end Nonces

theorem authentic_of_bound {env : Environment} {s₀ s : State} {as : List Action} {a : Arrival}
    {r : Registration} {p' : ReplayProtector} (hi : s₀.sessions = [])
    (h : Steps (step env) (Bound env) s₀ as s) (hb : Bound env s (.connect a))
    (hr : agentWs env s.deviceKeys s.replay a = (.ok r, p')) :
    Authentic env s.deviceKeys a r ∧ IsAgentToken r.claims r.deviceId ∧
      ∀ r' ∈ s.sessions, r'.payload = r.payload → r'.redisNow + nonceTtlSeconds ≤ r.redisNow := by
  have hinv : ∀ r ∈ s.sessions, IsRemembered env s.replay r :=
    h.invariant (I := fun s => ∀ r ∈ s.sessions, IsRemembered env s.replay r)
      (fun hi hb hs => isRemembered_step hi hb hs) (by simp [hi])
  have ha := authentic_of_agentWs hr
  refine ⟨ha, isAgentToken_of_bound hb ha, fun r' hm he => ?_⟩
  obtain ⟨hd, nonce, hn, hrem⟩ := hinv r' hm
  obtain ⟨nonce', hn', hc⟩ := exists_accepted hb hr
  rw [he] at hd hn
  obtain rfl : nonce = nonce' := by simpa [Value.str] using hn.symm.trans hn'
  obtain hdev : r'.deviceId = r.deviceId := Option.some.inj (hd.symm.trans ha.device)
  rw [hdev] at hrem
  exact (hrem.expired (congrArg Prod.fst hc)).right

section Examples

def checksum (key message : List UInt8) : List UInt8 :=
  key ++ utf8 (Nat.toDigits 10 (message.foldl (fun h b => (31 * h + b.toNat) % 65521) 7))

def exampleEnvironment : Environment where
  replay := Replay.memoryConfig
  readFloat _ := none
  fromisoformat s := if s = "2026-01-01T00:00:00+00:00" then some 1767225600000000 else none
  formatSeconds s := .ofList (Json.intText (s / 10 ^ 6))
  realText x := .ofList x.text
  hasPynacl := true
  b64decode s := some (utf8 s.toList)
  verify := fun pub message sig => sig = checksum pub message

def authMessage (jwt : String) (nonce : Value) : Value :=
  let payload : List (String × Value) := [
    ("type", .str "AUTH"), ("from", .str "agent"), ("device_id", .str "dev-1"),
    ("message_id", .str "m-1"), ("session_id", .str ""), ("timestamp", .str "2026-01-01T00:00:00Z"),
    ("body", .dict [("auth", .dict [("jwt", .str jwt), ("nonce", nonce)]), ("agent_info", .dict [])])]
  let sig := checksum (utf8 "key-1".toList) (signedBytes (.dict payload))
  .dict (payload ++ [("sig", .str (.ofList (sig.map fun b => .ofNat b.toNat)))])

def arrivalOf (payload : Value) (redisNow : Int) : Arrival where
  raw := Json.print .minimal Number.format payload.json
  now := 1767225601000000
  redisNow := redisNow
  reachable := true
  connectedAt := "2026-01-01T00:00:01Z"
  validateAuthJwt token :=
    if token.isStr "agent-token" then
      .ok (.dict [("scope", .str "agent"), ("sub", .str "dev-1")])
    else if token.isStr "operator-token" then
      .ok (.dict [("scope", .str "operator"), ("sub", .str "user-7")])
    else .error "Unknown kid"

def started : State :=
  ⟨.empty, [("dev-1", "key-1")], []⟩

instance (claims deviceId : Value) : Decidable (IsAgentToken claims deviceId) :=
  inferInstanceAs (Decidable (_ ∧ _))

instance (env : Environment) (s : State) : (a : Action) → Decidable (Bound env s a)
  | .connect a => inferInstanceAs (Decidable (∀ payload ∈ Value.loads env.readFloat a.raw, _))
  | .call _ | .upsertPubkeyB64 _ _ => .isTrue trivial

-- The agent connects twice.
theorem authentic_of_bound_reconnected : ∃ as s a r p',
    Steps (step exampleEnvironment) (Bound exampleEnvironment) started as s ∧ s.sessions ≠ [] ∧
      agentWs exampleEnvironment s.deviceKeys s.replay a = (.ok r, p') ∧
      Authentic exampleEnvironment s.deviceKeys a r ∧ IsAgentToken r.claims r.deviceId ∧
      ∀ r' ∈ s.sessions, r'.payload = r.payload → r'.redisNow + nonceTtlSeconds ≤ r.redisNow := by
  let as : List Action := [.connect (arrivalOf (authMessage "agent-token" (.str "n-1")) 0)]
  let a := arrivalOf (authMessage "agent-token" (.str "n-2")) 1
  have hx : (Transition.run (Transition.restrict (step exampleEnvironment) (Bound exampleEnvironment))
      started as).any fun s => decide (s.sessions.length = 1) &&
        decide (Bound exampleEnvironment s (.connect a)) &&
        (agentWs exampleEnvironment s.deviceKeys s.replay a).1.toOption.isSome := by
    decide +kernel
  simp only [Option.any_eq_true, Bool.and_eq_true, decide_eq_true_eq, Option.isSome_iff_exists] at hx
  obtain ⟨s, hs, ⟨hl, hb⟩, r, hr⟩ := hx
  have hst : Steps (step exampleEnvironment) (Bound exampleEnvironment) started as s := .of_run hs
  have ha := agentWs_eq_of_toOption hr
  exact ⟨as, s, a, r, _, hst, by intro h; simp [h] at hl, ha, authentic_of_bound rfl hst hb ha⟩

-- Both sessions were begun by the same message, the second while its nonce was still kept.
def isResent : List Registration → Bool
  | [r, r'] => decide (r.payload = r'.payload) && decide (r'.redisNow < r.redisNow + nonceTtlSeconds)
  | _ => false

-- The token of an operator is accepted, and so is a message that is sent again, if its nonce is a
-- number.
theorem session_of_other_token :
    (∃ r p', agentWs exampleEnvironment started.deviceKeys started.replay
        (arrivalOf (authMessage "operator-token" (.str "n-1")) 0) = (.ok r, p') ∧
      ¬IsAgentToken r.claims r.deviceId) ∧
    ∃ as s r r', Transition.run (step exampleEnvironment) started as = some s ∧
      s.sessions = [r, r'] ∧ r.payload = r'.payload ∧ r'.redisNow < r.redisNow + nonceTtlSeconds := by
  let a := arrivalOf (authMessage "operator-token" (.str "n-1")) 0
  let b := arrivalOf (authMessage "agent-token" (.int 7))
  have h₁ : (agentWs exampleEnvironment started.deviceKeys started.replay a).1.toOption.any
      fun r => decide (¬IsAgentToken r.claims r.deviceId) := by
    decide +kernel
  have h₂ : (Transition.run (step exampleEnvironment) started [.connect (b 0), .connect (b 1)]).any
      fun s => isResent s.sessions := by
    decide +kernel
  simp only [Option.any_eq_true, decide_eq_true_eq] at h₁ h₂
  obtain ⟨r, hr, hn⟩ := h₁
  obtain ⟨s, hs, hm⟩ := h₂
  refine ⟨⟨r, _, agentWs_eq_of_toOption hr, hn⟩, ?_⟩
  unfold isResent at hm
  split at hm
  case h_1 r₁ r₂ he =>
    simp only [Bool.and_eq_true, decide_eq_true_eq] at hm
    exact ⟨_, s, r₁, r₂, hs, he, hm⟩
  case h_2 => cases hm

end Examples

end Gateway.Handshake
