import Quoodle.Gateway.Value

namespace Gateway

-- An Ed25519 key pair. Nothing is assumed about signatures except that they verify.
structure SigningKey where
  sign : List UInt8 → String
  verify : List UInt8 → String → Bool
  verify_sign : ∀ b, verify b (sign b)

structure Settings where
  controllerId : String
  heartbeatIntervalSeconds : Int
  telemetryIntervalSeconds : Int
  policyHash : String
  policyVersion : String
  requireEd25519 : Bool
  allowDevSigFallback : Bool
  -- The key that `_resolve_signing_private_key_b64` leads to, if it can be used.
  signingKey : Option SigningKey
  sha256Hexdigest : List UInt8 → String

def signedBytes (payload : Value) : List UInt8 :=
  canonicalizeJson Number.format (stripSig payload.json)

def computeSig (cfg : Settings) (payload : Value) : Option String :=
  match cfg.signingKey with
  | some key => some (key.sign (signedBytes payload))
  | none =>
    if cfg.requireEd25519 && !cfg.allowDevSigFallback then none
    else some (cfg.sha256Hexdigest (signedBytes payload))

-- Models `payload["sig"] = compute_sig(payload)`.
def sign (cfg : Settings) (payload : Value) : Option Value := do
  payload.setItem "sig" (.str (← computeSig cfg payload))

-- What distinguishes a message from others of its kind: the generated part of its identifier and
-- the time at which it is built.
structure Stamp where
  id : String
  now : String

def message (cfg : Settings) (type idLabel : String) (stamp : Stamp)
    (deviceId sessionId body : Value) : Value :=
  .dict [
    ("type", .str type),
    ("from", .str cfg.controllerId),
    ("device_id", deviceId),
    ("message_id", .str (idLabel ++ stamp.id)),
    ("session_id", sessionId),
    ("timestamp", .str stamp.now),
    ("body", body)
  ]

def buildAuthAck (cfg : Settings) (stamp : Stamp) (deviceId sessionId : String) : Option Value :=
  sign cfg <| message cfg "AUTH_ACK" "m-auth-ack-" stamp (.str deviceId) (.str sessionId) <| .dict [
    ("status", .str "ok"),
    ("session_id", .str sessionId),
    ("heartbeat_interval_seconds", .int cfg.heartbeatIntervalSeconds),
    ("telemetry_interval_seconds", .int cfg.telemetryIntervalSeconds),
    ("policy_hash", .str cfg.policyHash)
  ]

def buildAuthError (cfg : Settings) (stamp : Stamp) (deviceId : Value)
    (errorCode errorMessage : String) : Option Value :=
  sign cfg <| message cfg "AUTH_ERROR" "m-auth-err-" stamp deviceId .none <| .dict [
    ("status", .str "error"),
    ("error_code", .str errorCode),
    ("error_message", .str errorMessage)
  ]

inductive AuthFailure where
  | invalidPayload
  | invalidEnvelope (exc : String)
  | unknownDevice (deviceId : Value)
  | replay (deviceId : Value) (exc : String)
  | invalidSignature (deviceId : Value) (exc : String)
  | invalidJwt (deviceId : Value) (exc : String)

namespace AuthFailure

def deviceId : AuthFailure → Value
  | invalidPayload | invalidEnvelope _ => .str "unknown"
  | unknownDevice d | replay d _ | invalidSignature d _ | invalidJwt d _ => d

def errorCode : AuthFailure → String
  | invalidPayload => "AUTH_INVALID_PAYLOAD"
  | invalidEnvelope _ => "AUTH_INVALID_ENVELOPE"
  | unknownDevice _ => "AUTH_UNKNOWN_DEVICE"
  | replay _ _ => "AUTH_REPLAY"
  | invalidSignature _ _ => "AUTH_INVALID_SIGNATURE"
  | invalidJwt _ _ => "AUTH_INVALID_JWT"

def errorMessage : AuthFailure → String
  | invalidPayload => "Invalid JSON"
  | unknownDevice _ => "Unknown device_id"
  | invalidEnvelope exc | replay _ exc | invalidSignature _ exc | invalidJwt _ exc => exc

end AuthFailure

-- The values that `build_command_delivery` generates: those for missing members of the payload, and
-- those of the message itself.
structure DeliveryStamp extends Stamp where
  commandId : String
  traceId : String
  headerTimestamp : String

-- The command as it is put together from the payload of a dispatch request. Fails where a member
-- of which `get` is called is not a dictionary. In particular `policy` may be missing but must not
-- be `None`.
def commandEnvelope (cfg : Settings) (stamp : DeliveryStamp) (payload deviceId : Value) :
    Option Value := do
  let envelope ← payload.get "envelope" (.dict [])
  let header ← envelope.get "header" (.dict [])
  let body ← envelope.get "body" (.dict [])
  let metadata ← envelope.get "meta" (.dict [])
  let policy ← payload.get "policy" (.dict [])
  return .dict [
    ("header", .dict [
      ("version", ← header.get "version" (.str "1.1")),
      ("timestamp", ← header.get "timestamp" (.str stamp.headerTimestamp)),
      ("ttl_seconds", ← header.get "ttl_seconds" (.int 300)),
      ("priority", ← header.get "priority" (.str "normal")),
      ("requires_ack", ← header.get "requires_ack" (.bool true)),
      ("long_running", ← header.get "long_running" (.bool false))
    ]),
    ("body", .dict [
      ("method", ← body.get "method" (← payload.get "method" (.str ""))),
      ("params", ← body.get "params" (← payload.get "params" (.dict []))),
      ("sensitive", ← body.get "sensitive" (← payload.get "sensitive" (.bool false)))
    ]),
    ("meta", .dict [
      ("device_id", deviceId),
      ("origin_user_id",
        ← metadata.get "origin_user_id" (← payload.get "origin_user_id" (.str "user-unknown"))),
      ("enc", ← metadata.get "enc" (.str "none")),
      ("enc_key_id", ← metadata.get "enc_key_id" .none),
      ("policy_version",
        ← metadata.get "policy_version" (← policy.get "policy_version" (.str cfg.policyVersion))),
      ("policy_hash", ← policy.get "policy_hash" .none),
      ("compliance", ← payload.get "compliance" .none)
    ]),
    ("message_id", ← payload.get "command_id" (.str stamp.commandId)),
    ("trace_id", ← payload.get "trace_id" (.str stamp.traceId)),
    ("seq", ← payload.get "seq" (.int 1)),
    ("sig", ← envelope.get "sig" .none)
  ]

def buildCommandDelivery (cfg : Settings) (stamp : DeliveryStamp) (payload : Value)
    (sessionId : String) : Option Value := do
  let deviceId ← payload.getItem "device_id"
  let envelope ← sign cfg (← commandEnvelope cfg stamp payload deviceId)
  sign cfg <| message cfg "COMMAND_DELIVERY" "m-cmd-delivery-" stamp.toStamp deviceId
    (.str sessionId) (.dict [("command_envelope", envelope)])

-- What `PolicyResolver` holds: the members of the current policy, and the bundles that were pushed
-- to single devices.
structure Policy where
  current : List (String × Value)
  deviceAppLock : List (String × Value)

structure PolicyPushRequest where
  policyVersion : String
  policyHash : String
  policyUrl : String
  signedAt : String
  signature : String
  appLock : Option Value
  targetDeviceIds : List String

namespace Policy

def update (p : Policy) (r : PolicyPushRequest) (now : String) : Policy where
  current := [
    ("policy_version", .str r.policyVersion),
    ("policy_hash", .str r.policyHash),
    ("policy_url", .str r.policyUrl),
    ("effective_from", .str (if r.signedAt = "" then now else r.signedAt)),
    ("signature", .str r.signature),
    ("app_lock",
      match r.appLock, r.targetDeviceIds with
      | some appLock, [] => appLock
      | _, _ => (p.current.lookup "app_lock").getD .none)
  ]
  deviceAppLock :=
    match r.appLock with
    | some appLock => r.targetDeviceIds.foldl (fun locks d => Json.assign d appLock locks) p.deviceAppLock
    | none => p.deviceAppLock

def buildMessage (cfg : Settings) (stamp : Stamp) (p : Policy) (deviceId sessionId : String) :
    Option Value :=
  let scopedAppLock := if deviceId = "" then none else p.deviceAppLock.lookup deviceId
  let body := .dict <|
    match scopedAppLock with
    | some appLock => p.current ++ [("app_lock", appLock)]
    | none => p.current
  sign cfg <| message cfg "POLICY_UPDATE" "m-policy-" stamp (.str deviceId) (.str sessionId) body

end Policy

structure OTAPublishRequest where
  releaseId : String
  version : String
  manifestUrl : String
  signatureUrl : String
  sha256 : String
  minOsBuild : String
  policy : Value

def OTAPublishRequest.manifest (r : OTAPublishRequest) : Value :=
  .dict [
    ("release_id", .str r.releaseId),
    ("version", .str r.version),
    ("manifest_url", .str r.manifestUrl),
    ("signature_url", .str r.signatureUrl),
    ("sha256", .str r.sha256),
    ("min_os_build", .str r.minOsBuild),
    ("policy", r.policy)
  ]

-- The announcement of the latest release. There is none without a release.
def buildAnnounce (cfg : Settings) (stamp : Stamp) (latest : Value)
    (deviceId sessionId : Option String) : Option Value :=
  sign cfg <| message cfg "UPDATE_ANNOUNCE" "m-update-" stamp (.optionalStr deviceId)
    (.optionalStr sessionId) latest

def address (m : Value) (deviceId sessionId : String) : Option Value := do
  (← m.setItem "device_id" (.str deviceId)).setItem "session_id" (.str sessionId)

def signature (m : Value) : Option String :=
  match m.json with
  | .obj ms =>
    match ms.lookup "sig" with
    | some (.str sig) => some sig
    | _ => none
  | _ => none

variable {d m m' v x : Value} {deviceId k sessionId sig : String} {cfg : Settings}

theorem signature_eq_some_iff :
    signature m = some sig ↔ ∃ ms, m.json = .obj ms ∧ ms.lookup "sig" = some (.str sig) := by
  unfold signature
  split
  case h_1 ms hm => split <;> simp_all
  case h_2 hm => simpa using fun ms he => absurd he (hm ms)

def Signed (cfg : Settings) (m : Value) : Prop :=
  ∃ sig ∈ signature m, computeSig cfg m = some sig

theorem signedBytes_setItem (h : d.setItem "sig" x = some m) : signedBytes m = signedBytes d := by
  obtain ⟨d, hd⟩ := d
  cases d <;> cases h
  case obj ms =>
    simp only [signedBytes, stripSig_eq_erase, Json.erase_obj, Json.onValues_assign,
      Json.filter_assign]

theorem computeSig_setItem (cfg : Settings) (h : d.setItem "sig" x = some m) :
    computeSig cfg m = computeSig cfg d := by
  simp only [computeSig, signedBytes_setItem h]

theorem signature_setItem (h : d.setItem "sig" (.str sig) = some m) : signature m = some sig := by
  obtain ⟨d, hd⟩ := d
  cases d <;> cases h
  case obj ms => exact signature_eq_some_iff.mpr ⟨_, rfl, Json.lookup_assign_self ..⟩

theorem signed_of_sign (h : sign cfg d = some m) : Signed cfg m := by
  simp only [sign, Option.bind_eq_bind, Option.bind_eq_some_iff] at h
  have ⟨sig, hs, h⟩ := h
  exact ⟨sig, signature_setItem h, computeSig_setItem cfg h ▸ hs⟩

theorem signed_of_buildCommandDelivery {stamp : DeliveryStamp} {payload m : Value}
    (h : buildCommandDelivery cfg stamp payload sessionId = some m) : Signed cfg m := by
  simp only [buildCommandDelivery, Option.bind_eq_bind, Option.bind_eq_some_iff] at h
  have ⟨_, _, _, _, _, _, h⟩ := h
  exact signed_of_sign h

theorem getItem_setItem_of_ne {k l : String} (h : d.setItem k x = some m)
    (hl : l ≠ k) : m.getItem l = d.getItem l := by
  ext1 v
  obtain ⟨d, hd⟩ := d
  cases d <;> cases h
  case obj ms =>
    simp only [Value.getItem_eq_some_iff, Json.obj.injEq, exists_eq_left',
      Json.lookup_assign_of_ne hl]

theorem getItem_sign (h : sign cfg d = some m) (hk : k ≠ "sig") : m.getItem k = d.getItem k := by
  obtain ⟨sig, _, h⟩ := Option.bind_eq_some_iff.mp h
  exact getItem_setItem_of_ne h hk

theorem get_of_getItem (h : d.getItem k = some v) : d.get k x = some v := by
  obtain ⟨ms, hd, _⟩ := Value.getItem_eq_some_iff.mp h
  obtain ⟨d, _⟩ := d
  cases hd
  simp [Value.get, Value.isDict, h]

section CommandEnvelope

variable {cfg : Settings} {stamp : DeliveryStamp} {payload deviceId e : Value}

theorem getItem_commandEnvelope {id seq : Value} (hi : payload.getItem "command_id" = some id)
    (hq : payload.getItem "seq" = some seq)
    (h : commandEnvelope cfg stamp payload deviceId = some e) :
    e.getItem "message_id" = some id ∧ e.getItem "seq" = some seq := by
  iterate 25 obtain ⟨_, _, h⟩ := Option.bind_eq_some_iff.mp h
  obtain ⟨_, h₁, h⟩ := Option.bind_eq_some_iff.mp h
  cases (get_of_getItem hi).symm.trans h₁
  obtain ⟨_, _, h⟩ := Option.bind_eq_some_iff.mp h
  obtain ⟨_, h₂, h⟩ := Option.bind_eq_some_iff.mp h
  cases (get_of_getItem hq).symm.trans h₂
  obtain ⟨_, _, h⟩ := Option.bind_eq_some_iff.mp h
  cases h
  rw [Value.getItem_dict (by simp [Json.keys]), Value.getItem_dict (by simp [Json.keys])]
  exact ⟨rfl, rfl⟩

theorem getItem_commandEnvelope_header {envelope header ts : Value}
    (hv : payload.getItem "envelope" = some envelope) (hh : envelope.getItem "header" = some header)
    (ht : header.getItem "timestamp" = some ts)
    (h : commandEnvelope cfg stamp payload deviceId = some e) :
    ∃ hd : Value, e.getItem "header" = some hd ∧ hd.getItem "timestamp" = some ts := by
  obtain ⟨_, h₁, h⟩ := Option.bind_eq_some_iff.mp h
  cases (get_of_getItem hv).symm.trans h₁
  obtain ⟨_, h₂, h⟩ := Option.bind_eq_some_iff.mp h
  cases (get_of_getItem hh).symm.trans h₂
  iterate 4 obtain ⟨_, _, h⟩ := Option.bind_eq_some_iff.mp h
  obtain ⟨_, h₃, h⟩ := Option.bind_eq_some_iff.mp h
  cases (get_of_getItem ht).symm.trans h₃
  iterate 22 obtain ⟨_, _, h⟩ := Option.bind_eq_some_iff.mp h
  cases h
  rw [Value.getItem_dict (by simp [Json.keys])]
  refine ⟨_, rfl, ?_⟩
  rw [Value.getItem_dict (by simp [Json.keys])]
  rfl

theorem getItem_buildCommandDelivery {sessionId : String} {m : Value}
    (h : buildCommandDelivery cfg stamp payload sessionId = some m) :
    m.getItem "message_id" = some (.str ("m-cmd-delivery-" ++ stamp.id)) ∧
      m.getItem "session_id" = some (.str sessionId) ∧
      ∃ deviceId body e₀ e : Value, m.getItem "body" = some body ∧
        body.getItem "command_envelope" = some e ∧ Signed cfg e ∧
        commandEnvelope cfg stamp payload deviceId = some e₀ ∧
        ∀ k ≠ "sig", e.getItem k = e₀.getItem k := by
  obtain ⟨deviceId, _, h⟩ := Option.bind_eq_some_iff.mp h
  obtain ⟨e₀, he, h⟩ := Option.bind_eq_some_iff.mp h
  obtain ⟨e, hs, h⟩ := Option.bind_eq_some_iff.mp h
  have hm (k : String) (hk : k ≠ "sig") : m.getItem k = _ :=
    (getItem_sign h hk).trans (Value.getItem_dict (by simp [Json.keys]) k)
  refine ⟨hm _ (by decide), hm _ (by decide), deviceId, .dict [("command_envelope", e)], e₀, e,
    hm _ (by decide), ?_, signed_of_sign hs, he, fun k hk => getItem_sign hs hk⟩
  rw [Value.getItem_dict (by simp [Json.keys])]
  rfl

end CommandEnvelope

theorem isDict_of_getItem (h : d.getItem k = some v) : d.isDict := by
  obtain ⟨ms, hd, _⟩ := Value.getItem_eq_some_iff.mp h
  obtain ⟨d, _⟩ := d
  cases hd
  rfl

theorem nums_of_getItem {p : Number → Prop} (h : d.getItem k = some v)
    (hd : d.json.Nums p) : v.json.Nums p := by
  obtain ⟨ms, hj, hl⟩ := Value.getItem_eq_some_iff.mp h
  rw [hj] at hd
  exact Json.Nums.obj_iff.mp hd _ (Json.mem_of_lookup_eq_some hl)

-- The signature of a message is the one of a message without a device.
def Unaddressed (cfg : Settings) (m : Value) : Prop :=
  ∃ m₀ ms, signature m = computeSig cfg m₀ ∧ m₀.json = .obj ms ∧ ms.lookup "device_id" = some .null

theorem unaddressed_of_buildAnnounce {stamp : Stamp} {latest m : Value}
    {sessionId : Option String} (h : buildAnnounce cfg stamp latest none sessionId = some m) :
    Unaddressed cfg m := by
  simp only [buildAnnounce, sign, Option.bind_eq_bind, Option.bind_eq_some_iff] at h
  have ⟨sig, hs, h⟩ := h
  exact ⟨_, _, (signature_setItem h).trans hs.symm, rfl, rfl⟩

theorem address_eq_some (h : address m deviceId sessionId = some m') :
    signature m' = signature m ∧
      ∃ ms, m'.json = .obj ms ∧ ms.lookup "device_id" = some (.str deviceId) := by
  obtain ⟨m, hm⟩ := m
  cases m <;> cases h
  case obj ms =>
    refine ⟨?_, _, rfl, ?_⟩
    · simp only [signature, Json.lookup_assign_of_ne (show "sig" ≠ "session_id" by decide),
        Json.lookup_assign_of_ne (show "sig" ≠ "device_id" by decide)]
    · rw [Json.lookup_assign_of_ne (by decide), Json.lookup_assign_self]
      rfl

-- The signature of such a message does not fit once it is directed to a device.
theorem not_signed_of_unaddressed {key : SigningKey}
    (hk : cfg.signingKey = some key) (hi : Function.Injective key.sign) (hm : Unaddressed cfg m)
    (h : address m deviceId sessionId = some m') : ¬Signed cfg m' := by
  intro ⟨sig, hs, hc⟩
  obtain ⟨m₀, ms, hm, hms, hn⟩ := hm
  obtain ⟨he, ns, hns, hd⟩ := address_eq_some h
  rw [he, hm, Option.mem_def, ← hc] at hs
  simp only [computeSig, hk, Option.some.injEq, hi.eq_iff, signedBytes, hms, hns] at hs
  have ⟨w, hw, hv⟩ :=
    mem_of_canonicalizeJson_eq (by decide) (Json.mem_of_lookup_eq_some hn) hs
  have hk := (Json.Distinct.obj_iff.mp (hns ▸ m'.distinct)).left
  cases (Json.lookup_eq_some_of_mem hk hw).symm.trans hd
  simp [Json.Scalar.mapNum] at hv

end Gateway
