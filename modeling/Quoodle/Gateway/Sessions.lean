import Quoodle.Agent.WssClient
import Quoodle.Data.Transition

namespace Gateway

structure Entry where
  websocket : Nat
  sessionId : String
  deviceId : String

-- A handler that waits at an `await`, by what it does when it continues: a session sends its
-- greetings and the commands that were queued for the device, and a broadcast sends its message to
-- the remaining entries.
inductive Task where
  | sendAck (entry : Entry)
  | sendCurrent (entry : Entry)
  | sendLatest (entry : Entry)
  | drain (entry : Entry)
  | deliver (entry : Entry) (queued : List Value)
  | pushPolicy (entries : List Entry)
  | announce (updateMsg : Value) (entries : List Entry)

structure State where
  connections : List (String × Entry)
  policy : Policy
  latest : Option Value
  queues : List (String × List Value)
  quarantined : List String
  tasks : List Task
  sent : List (Nat × Value)

structure CommandDispatchRequest where
  commandId : String
  deviceId : String
  traceId : String
  seq : Int
  method : String
  params : List (String × Value)
  sensitive : Bool
  envelope : List (String × Value)
  policy : Option (List (String × Value))
  compliance : Option (List (String × Value))
  methodNotEmpty : method ≠ ""

def CommandDispatchRequest.modelDump (r : CommandDispatchRequest) : Value :=
  .dict [
    ("command_id", .str r.commandId),
    ("device_id", .str r.deviceId),
    ("trace_id", .str r.traceId),
    ("seq", .int r.seq),
    ("method", .str r.method),
    ("params", .dict r.params),
    ("sensitive", .bool r.sensitive),
    ("envelope", .dict r.envelope),
    ("policy", r.policy.elim .none .dict),
    ("compliance", r.compliance.elim .none .dict)
  ]

theorem getItem_modelDump (r : CommandDispatchRequest) :
    r.modelDump.getItem "command_id" = some (.str r.commandId) ∧
      r.modelDump.getItem "seq" = some (.int r.seq) ∧
      r.modelDump.getItem "envelope" = some (.dict r.envelope) := by
  have hm (k : String) : r.modelDump.getItem k = _ := Value.getItem_dict (by simp [Json.keys]) k
  exact ⟨hm _, hm _, hm _⟩

def runtimeSupportedMethods : List String := [
  "ping", "lock_screen", "reboot_device", "shutdown_device", "collect_system_info", "screenshot",
  "list_processes", "list_services", "list_connections", "list_mounts", "network_info",
  "get_active_window", "list_files", "download_file", "upload_file", "create_directory",
  "create_file", "delete_file", "delete_directory"
]

def quarantineAllowlist : List String := [
  "time_sync", "fetch_revocations", "reauth", "collect_diagnostics", "ping", "health_check",
  "collect_system_info", "lock_screen", "enable_input", "show_message", "reconnect_network",
  "allow_outbound", "force_repair", "re_attest", "attest_device", "fail_attestation",
  "enter_quarantine", "exit_quarantine", "policy_probe", "get_command_log", "get_audit_trail",
  "export_artifacts", "verify_signature", "replay_request", "panic_disable_agent",
  "revoke_all_keys", "restore_defaults", "unlock_all"
]

namespace State

def send (s : State) (websocket : Nat) (m : Value) : State :=
  { s with sent := s.sent ++ [(websocket, m)] }

def spawn (s : State) (t : Task) : State :=
  { s with tasks := s.tasks ++ [t] }

def register (s : State) (e : Entry) : State :=
  { s with connections := Json.assign e.deviceId e s.connections }

def unregister (s : State) (e : Entry) : State :=
  match s.connections.lookup e.deviceId with
  | some current =>
    if current.sessionId = e.sessionId ∧ current.websocket = e.websocket then
      { s with connections := s.connections.filter (·.1 ≠ e.deviceId) }
    else s
  | none => s

def allEntries (s : State) : List Entry :=
  Json.values s.connections

def isBlocked (s : State) (deviceId method : String) : Bool :=
  s.quarantined.contains deviceId && !quarantineAllowlist.contains method

def maxPerDevice : Nat :=
  200

def enqueue (s : State) (deviceId : String) (payload : Value) : State :=
  let queue := (s.queues.lookup deviceId).getD []
  let queue := if queue.length ≥ maxPerDevice then queue.tail else queue
  { s with queues := Json.assign deviceId (queue ++ [payload]) s.queues }

def drain (s : State) (deviceId : String) : State × List Value :=
  ({ s with queues := s.queues.filter (·.1 ≠ deviceId) }, (s.queues.lookup deviceId).getD [])

def dispatchCommand (cfg : Settings) (stamp : DeliveryStamp) (s : State)
    (r : CommandDispatchRequest) : State :=
  if r.method ∉ runtimeSupportedMethods ∨ s.isBlocked r.deviceId r.method then s
  else
    match s.connections.lookup r.deviceId with
    | none => s.enqueue r.deviceId r.modelDump
    | some entry =>
      match buildCommandDelivery cfg stamp r.modelDump entry.sessionId with
      | some m => s.send entry.websocket m
      | none => s

def pushPolicy (now : String) (s : State) (r : PolicyPushRequest) : State :=
  let entries :=
    if r.targetDeviceIds = [] then s.allEntries
    else s.allEntries.filter fun e => r.targetDeviceIds.contains e.deviceId
  { s with policy := s.policy.update r now }.spawn (.pushPolicy entries)

def deployUpdate (cfg : Settings) (stamp : Stamp) (s : State) (r : OTAPublishRequest) : State :=
  let s := { s with latest := some r.manifest }
  match buildAnnounce cfg stamp r.manifest none none, s.allEntries with
  | none, _ => s
  | some _, [] => s
  | some updateMsg, e :: es => s.spawn (.announce updateMsg (e :: es))

-- Sends a message to a device and goes on with `next`. If the message cannot be built, the session
-- of the device ends.
def sendThen (s : State) (e : Entry) (m : Option Value) (next : Task) : State :=
  match m with
  | some m => (s.send e.websocket m).spawn next
  | none => s.unregister e

end State

-- Models what a handler does up to its next `await`. Of the commands that are drained, those that
-- have expired are dropped.
def resume (cfg : Settings) (stamp : DeliveryStamp) (expired : Value → Bool) (s : State) :
    Task → State
  | .sendAck e =>
    s.sendThen e (buildAuthAck cfg stamp.toStamp e.deviceId e.sessionId) (.sendCurrent e)
  | .sendCurrent e =>
    s.sendThen e (s.policy.buildMessage cfg stamp.toStamp e.deviceId e.sessionId) (.sendLatest e)
  | .sendLatest e =>
    match s.latest with
    | none => s.spawn (.drain e)
    | some manifest =>
      s.sendThen e (buildAnnounce cfg stamp.toStamp manifest (some e.deviceId) (some e.sessionId))
        (.drain e)
  | .drain e =>
    (s.drain e.deviceId).1.spawn (.deliver e ((s.drain e.deviceId).2.filter fun q => !expired q))
  | .deliver _ [] => s
  | .deliver e (q :: qs) =>
    s.sendThen e (buildCommandDelivery cfg stamp q e.sessionId) (.deliver e qs)
  | .pushPolicy [] => s
  | .pushPolicy (e :: es) =>
    match s.policy.buildMessage cfg stamp.toStamp e.deviceId e.sessionId with
    | some m => (s.send e.websocket m).spawn (.pushPolicy es)
    | none => s
  | .announce _ [] => s
  -- The same message is changed for every recipient. Its signature stays what it was.
  | .announce m (e :: es) =>
    match address m e.deviceId e.sessionId with
    | some m => (s.send e.websocket m).spawn (.announce m es)
    | none => s

inductive Action where
  | rejectAuth (websocket : Nat) (failure : AuthFailure) (stamp : Stamp)
  | acceptAuth (entry : Entry)
  | disconnect (entry : Entry)
  | dispatchCommand (r : CommandDispatchRequest) (stamp : DeliveryStamp)
  | pushPolicy (r : PolicyPushRequest) (now : String)
  | deployUpdate (r : OTAPublishRequest) (stamp : Stamp)
  | setQuarantine (deviceId : String)
  | liftQuarantine (deviceId : String)
  -- The `i`-th task continues, or is stopped by an exception.
  | resume (i : Nat) (stamp : DeliveryStamp) (expired : Value → Bool)
  | fail (i : Nat)

def step (cfg : Settings) (s : State) : Action → Option State
  | .rejectAuth ws failure stamp =>
    match buildAuthError cfg stamp failure.deviceId failure.errorCode failure.errorMessage with
    | some m => s.send ws m
    | none => s
  | .acceptAuth e => (s.register e).spawn (.sendAck e)
  | .disconnect e => s.unregister e
  | .dispatchCommand r stamp => s.dispatchCommand cfg stamp r
  | .pushPolicy r now => s.pushPolicy now r
  | .deployUpdate r stamp => s.deployUpdate cfg stamp r
  | .setQuarantine d => some { s with quarantined := d :: s.quarantined }
  | .liftQuarantine d => some { s with quarantined := s.quarantined.filter (· ≠ d) }
  | .resume i stamp expired =>
    s.tasks[i]?.map (resume cfg stamp expired { s with tasks := s.tasks.eraseIdx i })
  | .fail i => if i < s.tasks.length then some { s with tasks := s.tasks.eraseIdx i } else none

-- The gateway when it has been started. Policies and queued commands survive a restart.
structure Initial (s : State) : Prop where
  connections : s.connections = []
  latest : s.latest = none
  tasks : s.tasks = []
  sent : s.sent = []

def Task.IsAnnounce : Task → Prop
  | .announce _ _ => True
  | _ => False

-- Everything that was sent is signed, and nothing else is going to be sent.
structure Sound (cfg : Settings) (s : State) : Prop where
  sent : ∀ m ∈ s.sent, Signed cfg m.2
  tasks : ∀ t ∈ s.tasks, ¬t.IsAnnounce

namespace Sound

variable {cfg : Settings} {s : State}

theorem of_initial (h : Initial s) : Sound cfg s where
  sent := by simp [h.sent]
  tasks := by simp [h.tasks]

theorem send (h : Sound cfg s) (ws : Nat) {m : Value} (hm : Signed cfg m) :
    Sound cfg (s.send ws m) where
  sent := by simpa [State.send, or_imp, forall_and] using ⟨fun a b => h.sent (a, b), hm⟩
  tasks := h.tasks

theorem spawn (h : Sound cfg s) {t : Task} (ht : ¬t.IsAnnounce) : Sound cfg (s.spawn t) where
  sent := h.sent
  tasks := by simpa [State.spawn, or_imp, forall_and] using ⟨h.tasks, ht⟩

theorem eraseIdx (h : Sound cfg s) (i : Nat) :
    Sound cfg { s with tasks := s.tasks.eraseIdx i } where
  sent := h.sent
  tasks := fun t ht => h.tasks t (List.mem_of_mem_eraseIdx ht)

theorem unregister (h : Sound cfg s) (e : Entry) : Sound cfg (s.unregister e) := by
  unfold State.unregister
  split
  · split <;> exact ⟨h.sent, h.tasks⟩
  · exact h

theorem sendThen (h : Sound cfg s) (e : Entry) {m : Option Value} {next : Task}
    (hm : ∀ m' ∈ m, Signed cfg m') (hn : ¬next.IsAnnounce) : Sound cfg (s.sendThen e m next) := by
  cases m
  case none => exact h.unregister e
  case some m => exact (h.send e.websocket (hm m rfl)).spawn hn

theorem dispatchCommand (h : Sound cfg s) (stamp : DeliveryStamp) (r : CommandDispatchRequest) :
    Sound cfg (s.dispatchCommand cfg stamp r) := by
  unfold State.dispatchCommand
  split
  case isTrue => exact h
  split
  case h_1 => exact ⟨h.sent, h.tasks⟩
  case h_2 e _ =>
    split
    case h_1 m hm => exact h.send e.websocket (signed_of_buildCommandDelivery hm)
    case h_2 => exact h

theorem resume (h : Sound cfg s) (stamp : DeliveryStamp) (expired : Value → Bool) {t : Task}
    (ht : ¬t.IsAnnounce) : Sound cfg (resume cfg stamp expired s t) := by
  cases t
  case sendAck e | sendCurrent e => exact h.sendThen e (fun _ => signed_of_sign) (fun h => h)
  case sendLatest e =>
    simp only [Gateway.resume]
    split
    case h_1 => exact h.spawn (fun h => h)
    case h_2 => exact h.sendThen e (fun _ => signed_of_sign) (fun h => h)
  case drain e =>
    have hd : Sound cfg (s.drain e.deviceId).1 := ⟨h.sent, h.tasks⟩
    exact hd.spawn (fun h => h)
  case deliver e qs =>
    cases qs
    case nil => exact h
    case cons => exact h.sendThen e (fun _ => signed_of_buildCommandDelivery) (fun h => h)
  case pushPolicy es =>
    cases es
    case nil => exact h
    case cons e es =>
      simp only [Gateway.resume]
      split
      case h_1 m hm => exact (h.send e.websocket (signed_of_sign hm)).spawn (fun h => h)
      case h_2 => exact h
  case announce => exact absurd trivial ht

theorem pushPolicy (h : Sound cfg s) (now : String) (r : PolicyPushRequest) :
    Sound cfg (s.pushPolicy now r) := by
  have hp : Sound cfg { s with policy := s.policy.update r now } := ⟨h.sent, h.tasks⟩
  exact hp.spawn (fun h => h)

theorem deployUpdate (h : Sound cfg s) (stamp : Stamp) (r : OTAPublishRequest)
    (hc : s.connections = []) : Sound cfg (s.deployUpdate cfg stamp r) := by
  simp only [State.deployUpdate, State.allEntries, hc]
  split
  case h_3 he => contradiction
  all_goals exact ⟨h.sent, h.tasks⟩

end Sound

def NoBroadcast (s : State) : Action → Prop
  | .deployUpdate _ _ => s.connections = []
  | _ => True

instance (s : State) : DecidablePred (NoBroadcast s)
  | .deployUpdate _ _ => inferInstanceAs (Decidable (s.connections = []))
  | .rejectAuth _ _ _ | .acceptAuth _ | .disconnect _ | .dispatchCommand _ _ | .pushPolicy _ _
  | .setQuarantine _ | .liftQuarantine _ | .resume _ _ _ | .fail _ => isTrue trivial

theorem Sound.step {cfg : Settings} {s s' : State} {a : Action} (h : Sound cfg s)
    (ha : NoBroadcast s a) (hs : step cfg s a = some s') : Sound cfg s' := by
  cases a <;> simp only [Gateway.step, Option.some.injEq] at hs
  case rejectAuth ws failure stamp =>
    split at hs <;> cases hs
    case h_1 m hm => exact h.send ws (signed_of_sign hm)
    case h_2 => exact h
  case acceptAuth e =>
    have hr : Sound cfg (s.register e) := ⟨h.sent, h.tasks⟩
    exact hs ▸ hr.spawn (fun h => h)
  case disconnect e => exact hs ▸ h.unregister e
  case dispatchCommand r stamp => exact hs ▸ h.dispatchCommand stamp r
  case pushPolicy r now => exact hs ▸ h.pushPolicy now r
  case deployUpdate r stamp => exact hs ▸ h.deployUpdate stamp r ha
  case setQuarantine | liftQuarantine => exact hs ▸ ⟨h.sent, h.tasks⟩
  case resume i stamp expired =>
    have ⟨t, ht, hs⟩ := Option.map_eq_some_iff.mp hs
    exact hs ▸ (h.eraseIdx i).resume stamp expired (h.tasks t (List.mem_of_getElem? ht))
  case fail i =>
    have ⟨_, hs⟩ := Option.ite_none_right_eq_some.mp hs
    exact Option.some.inj hs ▸ h.eraseIdx i

-- The signature of a message is the one of the message as it was sent, so that every agent with the
-- key of the gateway accepts it, if it writes the numbers in the message as the gateway does.
structure Verifies (cfg : Settings) (m : Value) : Prop where
  signed : Signed cfg m
  accepted : ∀ (env : Agent.Environment) (key : SigningKey), cfg.signingKey = some key →
    env.controllerKey = some key.verify → m.json.Nums env.Preserves →
    Agent.acceptsInbound env (dumps Number.format false m.json)

theorem sent_verifies {cfg : Settings} {s s' : State} {as : List Action} (hi : Initial s)
    (h : Transition.Steps (step cfg) NoBroadcast s as s') : ∀ m ∈ s'.sent, Verifies cfg m.2 := by
  intro m hm
  have hs := (h.invariant Sound.step (.of_initial hi)).sent m hm
  exact ⟨hs, fun _ _ hk he hn => Agent.acceptsInbound_of_signed hk he hn hs⟩

-- A key for examples, whose signatures spell out what was signed.
def plainKey : SigningKey where
  sign b := String.ofList (b.map Char.ofUInt8)
  verify b sig := sig == String.ofList (b.map Char.ofUInt8)
  verify_sign _ := beq_self_eq_true _

def plainSettings : Settings where
  controllerId := "controller"
  heartbeatIntervalSeconds := 30
  telemetryIntervalSeconds := 60
  policyHash := "h1"
  policyVersion := "v1"
  requireEd25519 := true
  allowDevSigFallback := false
  signingKey := some plainKey
  sha256Hexdigest _ := ""

def idle : State :=
  ⟨[], ⟨[("policy_version", .str "v1"), ("policy_hash", .str "h1")], []⟩, none, [], [], [], []⟩

def laptop : Entry :=
  ⟨1, "s-1", "dev-1"⟩

def stamp : DeliveryStamp :=
  ⟨⟨"1", "2026-01-01T00:00:00Z"⟩, "c-1", "t-1", "2026-01-01T00:00:00Z"⟩

def release : OTAPublishRequest :=
  ⟨"r-1", "1.1", "https://m", "https://s", "00", "1", .dict []⟩

def greetings : List Action := [
  .deployUpdate release stamp.toStamp, .acceptAuth laptop, .resume 0 stamp (fun _ => false),
  .resume 0 stamp (fun _ => false), .resume 0 stamp (fun _ => false)
]

theorem sent_verifies_greetings :
    ∃ s, Transition.Steps (step plainSettings) NoBroadcast idle greetings s ∧ s.sent.length = 3 ∧
      ∀ m ∈ s.sent, Verifies plainSettings m.2 := by
  have h : Transition.Steps (step plainSettings) NoBroadcast idle greetings _ := .of_run rfl
  exact ⟨_, h, rfl, sent_verifies ⟨rfl, rfl, rfl, rfl⟩ h⟩

theorem plainKey_sign_injective : Function.Injective plainKey.sign := by
  intro a b h
  refine List.map_injective_iff.mpr (fun x y hc => ?_) (String.ofList_injective h)
  exact UInt8.toNat_inj.mp (congrArg Char.toNat hc)

def plainEnvironment : Agent.Environment :=
  ⟨some plainKey.verify, false, fun _ => none⟩

-- The signature of an announcement to a device that is connected is the one of a message without
-- device and session, and the agent refuses it.
theorem announce_connected_not_signed :
    ∃ s, Transition.run (step plainSettings) idle
        [.acceptAuth laptop, .deployUpdate release stamp.toStamp,
          .resume 1 stamp (fun _ => false)] = some s ∧
      ∃ m ∈ s.sent, ¬Signed plainSettings m.2 ∧
        ¬Agent.acceptsInbound plainEnvironment (dumps Number.format false m.2.json) := by
  refine ⟨_, rfl, _, List.mem_singleton.mpr rfl, ?_⟩
  have hb : buildAnnounce plainSettings stamp.toStamp release.manifest none none = some _ := rfl
  have hs := not_signed_of_unaddressed rfl plainKey_sign_injective (unaddressed_of_buildAnnounce hb)
    (show address _ laptop.deviceId laptop.sessionId = some _ from rfl)
  refine ⟨hs, fun ha => hs ⟨_, rfl, ?_⟩⟩
  rw [Agent.acceptsInbound_eq rfl (by decide) rfl] at ha
  exact congrArg some (beq_iff_eq.mp ha).symm

end Gateway
