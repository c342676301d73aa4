import Quoodle.Agent.Outbox

-- How the agent empties its outbox, and what the gateway receives of it.
namespace Agent.Flush

open Json.Nlohmann
open Gateway (FloatRepr Value)
open Gateway.Handshake (decodeBase64Padded verifyEd25519Signature)
open Gateway.MessageLoop (receive receive_eq_accepted_iff extractSeqFromMessage)
open Gateway.Replay (ReplayProtector IsNewer parseIso8601)
open Outbox (Item Stamp Sender)
open Transition (run Steps)
open Outbox (arrived exampleSign flushText getItem_arrived members signed)

structure Config where
  env : Gateway.Handshake.Environment
  floatValue : FloatRepr → ℚ
  deviceId : String
  sign : List UInt8 → String
  pubkey : String

def IsInteger (n : Number) : Prop :=
  n.isFloat = false

-- The results of a reply hold integers only, since `Execute` refuses every other number.
structure Entry where
  item : Item
  stored : item.type = "COMMAND_RESULT" → Stored item.result.result
  integer : item.type = "COMMAND_RESULT" → item.result.result.Nums IsInteger

structure State where
  sequence : Int64
  sessionId : String
  pending : List Entry
  file : List Entry
  duplicateAcks : Nat
  duplicateResults : Nat
  session : Option String
  replay : ReplayProtector
  -- What the gateway has received in messages that it accepted.
  accepted : List Entry
  -- What `FlushOutbox` has taken out of the outbox.
  removed : List Entry

structure Receipt where
  now : Int
  redisNow : Int
  reachable : Bool

structure Turn where
  stamp : Stamp
  wrote : Bool
  -- A message that was written does not arrive if the connection is lost.
  receipt : Option Receipt
  saved : Bool

inductive Action where
  | enqueue (e : Entry) (saved : Bool)
  -- Messages of a connection are received in the order in which they are written, so that each is
  -- received here at once.
  | flushOutbox (f : Turn)
  | nextSeq
  | start (readable : Bool) (sequence : Int64) (duplicateAcks duplicateResults : Nat)
  | authAck (sessionId : String)
  | register (sessionId : String)
  | unregister
  -- The gateway is asked about the messages of other devices and of other kinds.
  | call (r : Gateway.Replay.Request)
  | startGateway

namespace State

def nextSeq (s : State) : State :=
  { s with sequence := s.sequence + 1 }

def save (s : State) (pending : List Entry) (saved : Bool) : State :=
  { s with pending := pending, file := if saved then pending else s.file }

def enqueue (s : State) (e : Entry) (saved : Bool) : State :=
  if e.item.type = "TELEMETRY" then s.save (s.pending.filter (·.item.type ≠ "TELEMETRY") ++ [e]) saved
  else s.save (s.pending ++ [e]) saved

def popFront (s : State) (saved : Bool) : State :=
  match s.pending with
  | [] => s
  | e :: rest => { s.save rest saved with removed := s.removed ++ [e] }

-- What `FlushOutbox` does after a message was written. Faults can be injected that send it twice.
def settle (s : State) (e : Entry) (saved : Bool) : State :=
  if e.item.type = "COMMAND_ACK" ∧ 0 < s.duplicateAcks then
    { s with duplicateAcks := s.duplicateAcks - 1 }
  else if e.item.type = "COMMAND_RESULT" ∧ 0 < s.duplicateResults then
    { s with duplicateResults := s.duplicateResults - 1 }
  else s.popFront saved

end State

namespace Config

variable (cfg : Config) (s : State)

def sender : Sender :=
  ⟨cfg.deviceId, s.sessionId, cfg.sign⟩

def deliver (e : Entry) (raw : List Char) : Option Receipt → State
  | none => { s with session := none }
  | some r =>
    match s.session with
    | none => s
    | some id =>
      let o := receive cfg.env cfg.floatValue ⟨cfg.deviceId, id, cfg.pubkey⟩ s.replay
        ⟨raw, r.now, r.redisNow, r.reachable⟩
      { s with
        replay := o.2
        session := match o.1 with | .closed _ => none | _ => s.session
        accepted := if o.1 = .accepted then s.accepted ++ [e] else s.accepted }

def flushOutbox (f : Turn) : State :=
  match s.pending with
  | [] => s
  | e :: _ =>
    match flushText (cfg.sender s) e.item f.stamp (s.sequence + 1) with
    | none => s.popFront f.saved
    | some raw =>
      if f.wrote then (cfg.deliver s.nextSeq e raw f.receipt).settle e f.saved else s.nextSeq

end Config

def step (cfg : Config) (s : State) : Action → Option State
  | .enqueue e saved => some (s.enqueue e saved)
  | .flushOutbox f => some (cfg.flushOutbox s f)
  | .nextSeq => some s.nextSeq
  -- A connection lasts as long as the process at most.
  | .start readable sequence duplicateAcks duplicateResults => some { s with
      sequence := sequence
      sessionId := ""
      pending := if readable then s.file else []
      duplicateAcks := duplicateAcks
      duplicateResults := duplicateResults
      session := none }
  | .authAck sessionId => some { s with sessionId := sessionId }
  | .register sessionId => some { s with session := some sessionId }
  | .unregister => some { s with session := none }
  | .call r => some { s with replay := (Gateway.Replay.step cfg.env.replay s.replay r).2 }
  | .startGateway => some { s with
      session := none
      replay := { s.replay with memLastSeq := [] } }

-- No result is taken out of the outbox that the gateway has not accepted.
def Delivered (s : State) : Prop :=
  ∀ e ∈ s.removed, e.item.type = "COMMAND_RESULT" → e ∈ s.accepted

-- The gateway has a session, of which the agent knows, the message arrives, and it does so soon enough
-- after the result was put into the outbox and with a new number.
structure Acceptable (cfg : Config) (s : State) (f : Turn) (e : Entry) (id : String) (r : Receipt) :
    Prop where
  session : s.session = some id
  receipt : f.receipt = some r
  sessionId : s.sessionId ≠ "" ∧ (id ≠ "" → s.sessionId = id)
  fresh : ∃ t, parseIso8601 cfg.env.fromisoformat
    (Item.orDefault e.item.timestamp f.stamp.timestamp) = some t ∧
      |r.now - t| ≤ cfg.env.replay.maxClockSkewSeconds * 10 ^ 6
  newer : IsNewer cfg.env.replay s.replay r.redisNow r.reachable cfg.deviceId (s.sequence + 1).toInt

-- The results are acceptable when they are about to be taken out of the outbox.
def InTime (cfg : Config) (s : State) : Action → Prop
  | .flushOutbox f => ∀ e rest, s.pending = e :: rest → e.item.type = "COMMAND_RESULT" → f.wrote →
    s.duplicateResults = 0 → e ∉ s.accepted → ∃ id r, Acceptable cfg s f e id r
  | _ => True

structure Registered (cfg : Config) : Prop where
  hasPynacl : cfg.env.hasPynacl
  nonempty : ∀ m, cfg.sign m ≠ ""
  verifies : ∃ pub, decodeBase64Padded cfg.env cfg.pubkey = some pub ∧
    ∀ m, ∃ sig, decodeBase64Padded cfg.env (cfg.sign m) = some sig ∧ cfg.env.verify pub m sig

section Messages

variable {cfg : Config} {sender : Sender} {item : Item} {stamp : Stamp} {seq : Int64}
variable {type : String} {body : Json Number} {readFloat : List Char → Option FloatRepr}
variable {w : Json Number}

theorem loadedNumber_of_isInteger {n : Number} (h : IsInteger n) :
    Gateway.Number.read readFloat n.text = some (.int n.toInt) ∧
      (loadedNumber readFloat n).text = n.text := by
  cases n
  case float => cases h
  case integer n =>
    have hr : Gateway.Number.read readFloat (Number.integer n).text = some (.int n.val) := by
      simp [Gateway.Number.read, Number.text, Json.readInt_intText]
    exact ⟨hr, by rw [loadedNumber, hr]; rfl⟩

theorem loads_of_isInteger {n : Number} (h : IsInteger n) : Loads readFloat n := by
  rw [Loads, (loadedNumber_of_isInteger h).left]
  rfl

theorem nums_ofJson {p : Number → Prop} (hd : w.Distinct) (h : w.Nums p) : (ofJson w).Nums p := by
  rw [ofJson_eq_normalize hd]
  exact (Json.Everywhere.normalize_iff fun _ => .rfl).mpr h

theorem nums_signed (h : body.Nums IsInteger) :
    (signed sender.sign (members sender item stamp seq type body)).Nums IsInteger := by
  simp [signed, members, h, Json.Scalar.Num, AgentStateStore.sequenceNumber, IsInteger,
    Number.isFloat]

theorem erase_sig (ms : List (String × Json Number)) (a b : Json Number) :
    (Json.obj (ms ++ [("sig", a)])).erase "sig" = (Json.obj (ms ++ [("sig", b)])).erase "sig" := by
  simp [Json.erase_obj, Json.onValues]

theorem canonicalizeWss_ofJson_self (hd : w.Distinct) : canonicalizeWss Number.format (ofJson w) =
      Gateway.canonicalizeJson Number.format (Gateway.stripSig w) := by
  have hn : w.Nums fun n => Number.format.text (id n) = Number.format.text n :=
    .of_forall (fun _ => rfl) w
  have h := canonicalizeWss_ofJson hd hn
  rwa [Json.mapNum_id] at h

theorem signedBytes_arrived (hd : body.Distinct) (hn : body.Nums IsInteger) :
    Gateway.signedBytes (arrived (loadedNumber readFloat) sender item stamp seq type body) =
      canonicalizeWss Number.format
        (ofJson (.obj (members sender item stamp seq type body ++ [("sig", .str "")]))) := by
  have hs : (signed sender.sign (members sender item stamp seq type body)).Distinct :=
    Outbox.distinct_signed hd
  have ht : (ofJson (signed sender.sign (members sender item stamp seq type body))).Nums
      fun n => (loadedNumber readFloat n).text = n.text :=
    nums_ofJson hs ((nums_signed hn).imp fun n hn => (loadedNumber_of_isInteger hn).right)
  rw [arrived, signedBytes_sent ht, canonicalizeWss_ofJson_self hs,
    canonicalizeWss_ofJson_self (Outbox.distinct_members hd ""), Gateway.stripSig_eq_erase,
    Gateway.stripSig_eq_erase, signed, erase_sig]

theorem verifyEd25519Signature_arrived {s : State} (hk : Registered cfg) (hd : body.Distinct)
    (hn : body.Nums IsInteger) :
    verifyEd25519Signature cfg.env (arrived (loadedNumber readFloat) (cfg.sender s) item stamp
      seq type body) cfg.pubkey = .ok () := by
  obtain ⟨pub, hp, hv⟩ := hk.verifies
  have hs : (arrived (loadedNumber readFloat) (cfg.sender s) item stamp seq type body).getItem
      "sig" = some (.str (cfg.sign (canonicalizeWss Number.format (ofJson (.obj
        (members (cfg.sender s) item stamp seq type body ++ [("sig", .str "")])))))) := by
    rw [getItem_arrived hd]
    simp [signed, members, member, List.lookup, sent_str, Config.sender]
  obtain ⟨sig, hsig, hver⟩ := hv (canonicalizeWss Number.format (ofJson (.obj
    (members (cfg.sender s) item stamp seq type body ++ [("sig", .str "")]))))
  simp only [verifyEd25519Signature, hk.hasPynacl, hs, Option.map_some, Value.str, hk.nonempty, hsig,
    hp, signedBytes_arrived hd hn, hver]
  rfl

theorem extractSeqFromMessage_arrived (hd : body.Distinct) :
    extractSeqFromMessage (arrived (loadedNumber readFloat) sender item stamp seq type body) =
      .int seq.toInt := by
  have hs : (arrived (loadedNumber readFloat) sender item stamp seq type body).getItem "seq" =
      some (.int seq.toInt) := by
    rw [getItem_arrived hd]
    have hi : IsInteger (AgentStateStore.sequenceNumber seq) := rfl
    have hn : loadedNumber readFloat (AgentStateStore.sequenceNumber seq) = .int seq.toInt := by
      rw [loadedNumber, (loadedNumber_of_isInteger hi).left]
      rfl
    have hv : sent (loadedNumber readFloat) (.num (AgentStateStore.sequenceNumber seq)) =
        .int seq.toInt :=
      Value.ext (by rw [sent_num, hn]; rfl)
    simp [signed, members, member, List.lookup, hv]
  simp [extractSeqFromMessage, hs, Value.int, Value.asInt]

theorem validateTimestamp_str_eq_ok_iff {fromisoformat : String → Option Int}
    {formatSeconds : Int → String} {replay : Gateway.Replay.ReplayConfig} {now : Int} {ts : String} :
    Gateway.Replay.validateTimestamp fromisoformat formatSeconds replay now (.str ts) = .ok () ↔
      ∃ t, parseIso8601 fromisoformat ts = some t ∧
        |now - t| ≤ replay.maxClockSkewSeconds * 10 ^ 6 := by
  simp only [Gateway.Replay.validateTimestamp, Value.str]
  split
  case h_1 hp => simp [hp, Gateway.Replay.replayError]
  case h_2 t hp =>
    simp only [hp, Option.some.injEq, exists_eq_left']
    split
    case isTrue h =>
      simp only [Gateway.Replay.replayError, reduceCtorEq, false_iff]
      exact not_le.mpr h
    case isFalse h => exact iff_of_true rfl (not_lt.mp h)

theorem nums_resultBody (h : item.result.result.Nums IsInteger) : item.resultBody.Nums IsInteger := by
  have hm : (Json.obj item.resultMembers).Nums IsInteger := by
    by_cases hm : item.result.errorMessage = "" <;>
      by_cases hn : Item.isNullOrEmpty item.result.result <;>
        simp [Item.resultMembers, hm, hn, h, Json.Scalar.Num]
  refine Json.Nums.obj_iff.mpr ?_
  simp only [Item.orNull, List.forall_mem_cons]
  split <;> simp [hm, Json.Scalar.Num]

theorem receive_result_iff {s : State} {p : ReplayProtector} {id : String} {r : Receipt} {e : Entry}
    {raw : List Char} (hk : Registered cfg) (ht : e.item.type = "COMMAND_RESULT")
    (hr : flushText (cfg.sender s) e.item stamp seq = some raw) :
    (receive cfg.env cfg.floatValue ⟨cfg.deviceId, id, cfg.pubkey⟩ p
        ⟨raw, r.now, r.redisNow, r.reachable⟩).1 = .accepted ↔
      (∃ t, parseIso8601 cfg.env.fromisoformat
        (Item.orDefault e.item.timestamp stamp.timestamp) = some t ∧
          |r.now - t| ≤ cfg.env.replay.maxClockSkewSeconds * 10 ^ 6) ∧
      IsNewer cfg.env.replay p r.redisNow r.reachable cfg.deviceId seq.toInt ∧
      s.sessionId ≠ "" ∧ (id ≠ "" → s.sessionId = id) := by
  have hd := (e.stored ht).distinct
  have hb := Outbox.distinct_resultBody hd
  have hn := nums_resultBody (e.integer ht)
  have hm : e.item.message = some ("COMMAND_RESULT", e.item.resultBody) := by
    simp [Item.message, ht]
  rw [flushText, hm, Option.map_some, Option.some.injEq] at hr
  have hl : Value.loads cfg.env.readFloat raw = some (arrived (loadedNumber cfg.env.readFloat)
      (cfg.sender s) e.item stamp seq "COMMAND_RESULT" e.item.resultBody) := by
    rw [← hr]
    exact loads_print (nums_ofJson (Outbox.distinct_signed hb)
      ((nums_signed hn).imp fun _ => loads_of_isInteger))
  have hts : (arrived (loadedNumber cfg.env.readFloat) (cfg.sender s) e.item stamp seq
      "COMMAND_RESULT" e.item.resultBody).getItem "timestamp" =
        some (.str (Item.orDefault e.item.timestamp stamp.timestamp)) := by
    rw [getItem_arrived hb]
    simp [signed, members, member, List.lookup, sent_str]
  rw [receive_eq_accepted_iff hl (Outbox.get_type_arrived hb) rfl, hts, Option.getD_some,
    validateTimestamp_str_eq_ok_iff, extractSeqFromMessage_arrived hb,
    Gateway.Replay.checkAndUpdateSeq_int_eq_ok_iff]
  simp only [verifyEd25519Signature_arrived hk hb hn, true_and]
  exact and_congr_right fun _ => and_congr_right fun _ => Outbox.validateCommandResult_arrived hd

end Messages

section Deliver

variable {cfg : Config} {s : State} {e x : Entry} {rest : List Entry} {raw : List Char}
variable {o : Option Receipt} {saved : Bool} {f : Turn}

@[simp]
theorem pending_deliver : (cfg.deliver s e raw o).pending = s.pending := by
  unfold Config.deliver
  split
  case h_1 => rfl
  case h_2 => split <;> rfl

@[simp]
theorem removed_deliver : (cfg.deliver s e raw o).removed = s.removed := by
  unfold Config.deliver
  split
  case h_1 => rfl
  case h_2 => split <;> rfl

@[simp]
theorem duplicateResults_deliver :
    (cfg.deliver s e raw o).duplicateResults = s.duplicateResults := by
  unfold Config.deliver
  split
  case h_1 => rfl
  case h_2 => split <;> rfl

theorem mem_accepted_deliver_iff : x ∈ (cfg.deliver s e raw o).accepted ↔
    x ∈ s.accepted ∨ x = e ∧ ∃ id r, s.session = some id ∧ o = some r ∧
      (receive cfg.env cfg.floatValue ⟨cfg.deviceId, id, cfg.pubkey⟩ s.replay
        ⟨raw, r.now, r.redisNow, r.reachable⟩).1 = .accepted := by
  unfold Config.deliver
  split
  case h_1 => simp
  case h_2 r =>
    split
    case h_1 hs => simp [hs]
    case h_2 id hs =>
      simp only [hs, Option.some.injEq]
      split
      case isTrue h => simp [h]
      case isFalse h => simp [h]

theorem Delivered.deliver (h : Delivered s) : Delivered (cfg.deliver s e raw o) := by
  intro x hx ht
  rw [removed_deliver] at hx
  exact mem_accepted_deliver_iff.mpr (.inl (h x hx ht))

theorem delivered_popFront_iff (hp : s.pending = e :: rest) (h : Delivered s) :
    Delivered (s.popFront saved) ↔ (e.item.type = "COMMAND_RESULT" → e ∈ s.accepted) := by
  have hr : (s.popFront saved).removed = s.removed ++ [e] := by simp [State.popFront, hp]
  have ha : (s.popFront saved).accepted = s.accepted := by simp [State.popFront, hp, State.save]
  simp only [Delivered, hr, ha, List.forall_mem_append, List.forall_mem_singleton]
  exact and_iff_right h

theorem delivered_settle_iff (hp : s.pending = e :: rest) (h : Delivered s) :
    Delivered (s.settle e saved) ↔
      (e.item.type = "COMMAND_RESULT" → s.duplicateResults = 0 → e ∈ s.accepted) := by
  unfold State.settle
  split
  case isTrue ha => exact iff_of_true h fun ht => absurd (ht.symm.trans ha.left) (by decide)
  split
  case isTrue hr => exact iff_of_true h fun _ h0 => absurd h0 hr.right.ne'
  case isFalse hr =>
    rw [delivered_popFront_iff hp h]
    refine forall_congr' fun ht => ?_
    have h0 : s.duplicateResults = 0 := by simpa [ht] using hr
    exact ⟨fun h _ => h, fun h => h h0⟩

theorem exists_acceptable_iff (hk : Registered cfg) (ht : e.item.type = "COMMAND_RESULT")
    (hm : flushText (cfg.sender s) e.item f.stamp (s.sequence + 1) = some raw) :
    (∃ id r, Acceptable cfg s f e id r) ↔
      ∃ id r, s.session = some id ∧ f.receipt = some r ∧
        (receive cfg.env cfg.floatValue ⟨cfg.deviceId, id, cfg.pubkey⟩ s.replay
          ⟨raw, r.now, r.redisNow, r.reachable⟩).1 = .accepted := by
  refine exists₂_congr fun id r => ?_
  rw [receive_result_iff hk ht hm]
  refine ⟨fun h => ⟨h.session, h.receipt, h.fresh, h.newer, h.sessionId⟩, fun h => ?_⟩
  obtain ⟨hs, hr, hf, hn, hi⟩ := h
  exact ⟨hs, hr, hi, hf, hn⟩

theorem ne_of_flushText_eq_none {sender : Sender} {stamp : Stamp} {seq : Int64}
    (h : flushText sender e.item stamp seq = none) : e.item.type ≠ "COMMAND_RESULT" := by
  intro ht
  simp [flushText, Item.message, ht] at h

theorem inTime_cons_iff (hp : s.pending = e :: rest) :
    InTime cfg s (.flushOutbox f) ↔ (e.item.type = "COMMAND_RESULT" → f.wrote →
      s.duplicateResults = 0 → e ∉ s.accepted → ∃ id r, Acceptable cfg s f e id r) := by
  simp only [InTime, hp, List.cons.injEq]
  refine ⟨fun h => h e rest ⟨rfl, rfl⟩, ?_⟩
  rintro h _ _ ⟨rfl, rfl⟩
  exact h

theorem inTime_flushOutbox_iff (hk : Registered cfg) (h : Delivered s) :
    InTime cfg s (.flushOutbox f) ↔ Delivered (cfg.flushOutbox s f) := by
  unfold Config.flushOutbox
  split
  case h_1 hp => simp [InTime, hp, h]
  case h_2 e rest hp =>
    rw [inTime_cons_iff hp]
    split
    case h_1 hm =>
      have hne := ne_of_flushText_eq_none hm
      rw [delivered_popFront_iff hp h]
      exact iff_of_true (absurd · hne) (absurd · hne)
    case h_2 raw hm =>
      split
      case isFalse hw => exact iff_of_true (fun _ hf => absurd hf hw) h
      case isTrue hw =>
        have hd : Delivered (cfg.deliver s.nextSeq e raw f.receipt) := Delivered.deliver h
        have hq : (cfg.deliver s.nextSeq e raw f.receipt).pending = e :: rest := pending_deliver.trans hp
        have hn : s.nextSeq.duplicateResults = s.duplicateResults := rfl
        rw [delivered_settle_iff hq hd, duplicateResults_deliver, hn]
        simp only [hw, true_imp_iff]
        refine forall_congr' fun ht => forall_congr' fun _ => ?_
        rw [mem_accepted_deliver_iff, exists_acceptable_iff hk ht hm, eq_self, true_and]
        exact Classical.or_iff_not_imp_left.symm

theorem inTime_iff {a : Action} {s' : State} (hk : Registered cfg) (h : Delivered s)
    (hs : step cfg s a = some s') : InTime cfg s a ↔ Delivered s' := by
  cases a
  case flushOutbox f =>
    obtain rfl := Option.some.inj hs
    exact inTime_flushOutbox_iff hk h
  case enqueue e saved =>
    obtain rfl := Option.some.inj hs
    refine iff_of_true trivial ?_
    unfold State.enqueue
    split <;> exact h
  all_goals
    obtain rfl := Option.some.inj hs
    exact iff_of_true trivial h

end Deliver

-- No result gets lost in the runs in which all are sent in time, and only in those.
theorem delivered_iff_inTime {cfg : Config} {s s' : State} {as : List Action} (hk : Registered cfg)
    (hi : s.removed = []) (hr : run (step cfg) s as = some s') :
    (∀ before after t, as = before ++ after → run (step cfg) s before = some t → Delivered t) ↔
      Steps (step cfg) (InTime cfg) s as s' := by
  have hd : Delivered s := by simp [Delivered, hi]
  exact (Steps.iff_forall_run (fun h hs => inTime_iff hk h hs) hd hr).symm

section Examples

def exampleConfig : Config :=
  ⟨Outbox.exampleEnvironment, fun _ => 0, "dev-1", exampleSign, "k"⟩

theorem decodeBase64Padded_exampleConfig (value : String) :
    decodeBase64Padded exampleConfig.env value = some (utf8 value.toList) :=
  rfl

theorem exampleSign_ne_empty (message : List UInt8) : exampleSign message ≠ "" := by
  intro h
  have hl := congrArg String.toList h
  rw [exampleSign, String.toList_ofList] at hl
  cases hl

theorem utf8_exampleSign (message : List UInt8) :
    utf8 (exampleSign message).toList =
      Gateway.Handshake.checksum (utf8 "k".toList) message := by
  rw [exampleSign, String.toList_ofList, Gateway.Handshake.checksum, Outbox.exampleDigits]
  rfl

theorem registered_exampleConfig : Registered exampleConfig where
  hasPynacl := rfl
  nonempty := exampleSign_ne_empty
  verifies := ⟨_, decodeBase64Padded_exampleConfig _, fun m =>
    ⟨_, decodeBase64Padded_exampleConfig _, decide_eq_true (utf8_exampleSign m)⟩⟩

def exampleResult : Entry where
  item := Outbox.resultItem Outbox.exampleStamp "cmd-1" "dev-1"
    ⟨"completed", "ok", "exec-1", "", "", .obj [("size", .num (.integer ⟨3, by decide, by decide⟩))]⟩
  stored := fun _ => by decide
  integer := fun _ => by simp [Outbox.resultItem, Json.Scalar.Num, IsInteger, Number.isFloat]

def started : State :=
  ⟨0, "", [], [], 0, 0, none, .empty, [], []⟩

def turnAt (now : Int) : Turn :=
  ⟨Outbox.exampleStamp, true, some ⟨now, 0, true⟩, true⟩

def connected : List Action :=
  [.nextSeq, .register "sess-1", .authAck "sess-1"]

def connectedState : State :=
  { started with
    sequence := 1
    sessionId := "sess-1"
    pending := [exampleResult]
    file := [exampleResult]
    session := some "sess-1" }

theorem acceptable_exampleResult : Acceptable exampleConfig connectedState (turnAt 1767225601000000)
    exampleResult "sess-1" ⟨1767225601000000, 0, true⟩ where
  session := rfl
  receipt := rfl
  sessionId := by decide
  fresh := ⟨1767225600000000, by decide +kernel, by decide⟩
  newer := ⟨by decide, by simp [exampleConfig, connectedState, started]; decide⟩

theorem steps_connected : Steps (step exampleConfig) (InTime exampleConfig) started
    (connected ++ [.enqueue exampleResult true, .flushOutbox (turnAt 1767225601000000)])
    (exampleConfig.flushOutbox connectedState (turnAt 1767225601000000)) := by
  refine .step trivial rfl <| .step trivial rfl <| .step trivial rfl <| .step trivial rfl <|
    .step ?_ rfl .refl
  rintro e rest he - - - -
  obtain ⟨rfl, rfl⟩ := List.cons.inj he
  exact ⟨_, _, acceptable_exampleResult⟩

theorem delivered_iff_inTime_connected : ∃ as s',
    run (step exampleConfig) started as = some s' ∧ s'.removed.length = 1 ∧ Delivered s' := by
  refine ⟨connected ++ [.enqueue exampleResult true, .flushOutbox (turnAt 1767225601000000)],
    exampleConfig.flushOutbox connectedState (turnAt 1767225601000000), rfl, ?_, ?_⟩
  · decide
  · exact (delivered_iff_inTime registered_exampleConfig rfl rfl).mpr steps_connected _ []
      _ (List.append_nil _).symm rfl

-- The agent comes back an hour after it has executed the command.
theorem result_lost_after_delay : ∃ as s',
    run (step exampleConfig) started as = some s' ∧ ¬Delivered s' := by
  refine ⟨.enqueue exampleResult true :: .start true 0 0 0 :: connected ++
    [.flushOutbox (turnAt 1767229200000000)],
    exampleConfig.flushOutbox connectedState (turnAt 1767229200000000), rfl, fun h => ?_⟩
  have hr : (exampleConfig.flushOutbox connectedState (turnAt 1767229200000000)).removed.map
      (·.item.type) = ["COMMAND_RESULT"] := by decide
  have ha : (exampleConfig.flushOutbox connectedState (turnAt 1767229200000000)).accepted.length = 0 := by
    decide +kernel
  obtain ⟨e, he, ht⟩ := List.mem_map.mp (hr ▸ List.mem_singleton_self "COMMAND_RESULT")
  have hm := h e he ht
  rw [List.length_eq_zero_iff.mp ha] at hm
  cases hm

end Examples

end Agent.Flush
