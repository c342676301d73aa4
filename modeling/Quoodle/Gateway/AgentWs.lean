import Quoodle.Gateway.Connect

-- What the handler of a websocket does from the registration of its device on, as far as it sends
-- something. Nobody else uses the queue of the device meanwhile.
namespace Gateway

open OfflineQueue (Item Store sortByPriority)

-- Models a call of `drain` in which no operation fails.
def OfflineQueue.Store.drain (st : Store) (now : Int) : List Item × Store :=
  (sortByPriority (st.queue.filter (!·.isExpired now)),
    if st.connected then if st.redis = [] then st else st.setList true []
    else { st with memory := [] })

namespace AgentWs

structure Session where
  settings : Settings
  policy : Policy
  latest : Option Value
  deviceId : String
  sessionId : String
  now : Int
  -- What is generated for the `i`-th message.
  stamps : Nat → DeliveryStamp
  -- Whether the `i`-th message can be sent.
  sends : Nat → Bool

structure State where
  store : Store
  -- What was written to the websocket, and the queued command that it delivers.
  sent : List (Option Item × Value)

namespace Session

variable (c : Session) (stamp : DeliveryStamp)

def authAck : Option Value :=
  buildAuthAck c.settings stamp.toStamp c.deviceId c.sessionId

def policyUpdate : Option Value :=
  c.policy.buildMessage c.settings stamp.toStamp c.deviceId c.sessionId

def updateAnnounce (latest : Value) : Option Value :=
  buildAnnounce c.settings stamp.toStamp latest (some c.deviceId) (some c.sessionId)

def commandDelivery (payload : Value) : Option Value :=
  buildCommandDelivery c.settings stamp payload c.sessionId

end Session

section Source

variable (c : Session)

-- The handler is left by an exception if the message cannot be built or sent.
def send (s : State) (item : Option Item) (build : DeliveryStamp → Option Value) :
    Except State State :=
  match build (c.stamps s.sent.length) with
  | none => .error s
  | some m =>
    if c.sends s.sent.length then .ok { s with sent := s.sent ++ [(item, m)] } else .error s

def greet (s : State) : Except State State := do
  let s ← send c s none c.authAck
  let s ← send c s none c.policyUpdate
  match c.latest with
  | none => return s
  | some latest => send c s none (c.updateAnnounce · latest)

def deliver (s : State) : List Item → Except State State
  | [] => return s
  | item :: rest => do
    let s ← send c s (some item) (c.commandDelivery · item.message)
    deliver s rest

def connect (s : State) : Except State State := do
  let s ← greet c s
  let (queued, store) := s.store.drain c.now
  deliver c { s with store } queued

end Source

def final : Except State State → State
  | .ok s | .error s => s

-- Nothing is caught on the way, and nothing else is done to the queue before the handler ends.
def agentWs (c : Session) (s : State) : State :=
  final (connect c s)

-- Every queued command that has not expired is written to the websocket or still in the queue.
def Keeps (c : Session) (store : Store) : Prop :=
  ∀ item ∈ store.queue, ¬item.isExpired c.now →
    some item ∈ (agentWs c ⟨store, []⟩).sent.map Prod.fst ∨ item ∈ (agentWs c ⟨store, []⟩).store.queue

def CanSign (cfg : Settings) : Prop :=
  cfg.signingKey.isSome ∨ cfg.requireEd25519 = false ∨ cfg.allowDevSigFallback

-- The parts of a payload of which `get` is called are dictionaries.
def Deliverable (payload : Value) : Prop :=
  (∀ policy ∈ payload.getItem "policy", policy.isDict) ∧
    ∀ envelope ∈ payload.getItem "envelope", ∀ k ∈ ["header", "body", "meta"],
      ∀ v ∈ envelope.getItem k, v.isDict

namespace Session

variable (c : Session)

def greetings : Nat :=
  2 + c.latest.toList.length

def Greets : Prop :=
  CanSign c.settings ∧ ∀ i < c.greetings, c.sends i

end Session

-- The handler ends before it drains the queue, or all commands in the queue can be delivered.
def Safe (c : Session) (store : Store) : Prop :=
  ¬c.Greets ∨
    (∀ item ∈ store.queue, ¬item.isExpired c.now → Deliverable item.message) ∧
      ∀ i < store.queue.countP (!·.isExpired c.now), c.sends (c.greetings + i)

-- A drain that nobody interferes with does what the calls of the queue do one after the other.
theorem run_drain {cfg : OfflineQueue.Config} {q : OfflineQueue.State} {caller : Nat} {now : Int}
    (hc : q.calls = []) :
    ∃ n s, Transition.run (OfflineQueue.step cfg) q
        (.drain caller now :: List.replicate n (.resume 0 true now)) = some s ∧
      s.store = (q.store.drain now).2 ∧
      s.drained = q.drained ++ [(caller, (q.store.drain now).1)] := by
  by_cases hs : q.store.connected
  case neg =>
    refine ⟨0, _, rfl, ?_⟩
    simp [OfflineQueue.State.drain, Store.drain, hs, Store.queue, OfflineQueue.State.deliver]
  case pos =>
    by_cases hr : q.store.redis = []
    case pos =>
      refine ⟨1, { q with drained := q.drained ++ [(caller, [])] }, ?_, ?_⟩
      · simp [Transition.run, OfflineQueue.step, OfflineQueue.State.drain, OfflineQueue.State.spawn,
          OfflineQueue.State.resume, Store.list, hs, hr, hc]
      · simp [Store.drain, Store.queue, hs, hr, sortByPriority]
    case neg =>
      refine ⟨2, { q.deliver caller now q.store.redis with store := q.store.setList true [] }, ?_, ?_⟩
      · simp [Transition.run, OfflineQueue.step, OfflineQueue.State.drain, OfflineQueue.State.spawn,
          OfflineQueue.State.resume, Store.list, hs, hc, OfflineQueue.State.deliver]
      · simp [Store.drain, Store.queue, hs, hr, OfflineQueue.State.deliver]

section Messages

variable {cfg : Settings} {stamp : DeliveryStamp} {v : Value} {k : String}

theorem isDict_dict {ms : List (String × Value)} : (Value.dict ms).isDict :=
  rfl

theorem isSome_setItem {x : Value} : (v.setItem k x).isSome = v.isDict := by
  obtain ⟨v, hv⟩ := v
  cases v <;> rfl

theorem isSome_sign : (sign cfg v).isSome ↔ CanSign cfg ∧ v.isDict := by
  have hs : (computeSig cfg v).isSome ↔ CanSign cfg := by
    unfold computeSig CanSign
    cases hk : cfg.signingKey <;> cases cfg.requireEd25519 <;> cases cfg.allowDevSigFallback <;> simp
  rw [← hs, ← isSome_setItem (k := "sig") (x := .str ((computeSig cfg v).getD ""))]
  cases hc : computeSig cfg v
  case none | some sig => simp [sign, hc]

theorem isSome_sign_message {type idLabel : String} {stamp : Stamp} {deviceId sessionId body : Value} :
    (sign cfg (message cfg type idLabel stamp deviceId sessionId body)).isSome ↔ CanSign cfg := by
  rw [isSome_sign]
  exact and_iff_left isDict_dict

theorem isSome_get_bind {x : Value} {f : Value → Option Value} :
    ((v.get k x).bind f).isSome ↔ v.isDict ∧ (f ((v.getItem k).getD x)).isSome := by
  by_cases h : v.isDict
  case pos | neg => simp [Value.get, h]

theorem isSome_commandEnvelope {payload deviceId envelope : Value}
    (he : payload.getItem "envelope" = some envelope) (hd : envelope.isDict) :
    (commandEnvelope cfg stamp payload deviceId).isSome ↔
      ((payload.getItem "policy").getD (.dict [])).isDict ∧
      ((envelope.getItem "header").getD (.dict [])).isDict ∧
      ((envelope.getItem "body").getD (.dict [])).isDict ∧
      ((envelope.getItem "meta").getD (.dict [])).isDict := by
  have hp : payload.isDict := isDict_of_getItem he
  rw [commandEnvelope, Option.bind_eq_bind, isSome_get_bind, he, Option.getD_some]
  iterate 28 rw [isSome_get_bind]
  generalize (payload.getItem "policy").getD (.dict []) = policy
  generalize (envelope.getItem "header").getD (.dict []) = header
  generalize (envelope.getItem "body").getD (.dict []) = body
  generalize (envelope.getItem "meta").getD (.dict []) = metadata
  rw [Option.pure_def, Option.isSome_some]
  simp only [hp, hd, true_and, and_true]
  tauto

theorem isDict_getD_iff : ((v.getItem k).getD (.dict [])).isDict ↔ ∀ x ∈ v.getItem k, x.isDict := by
  cases v.getItem k
  case none => simp [isDict_dict]
  case some x => simp

theorem isDict_commandEnvelope {payload deviceId e : Value}
    (h : commandEnvelope cfg stamp payload deviceId = some e) : e.isDict := by
  iterate 29 obtain ⟨_, _, h⟩ := Option.bind_eq_some_iff.mp h
  cases h
  rfl

theorem isSome_buildCommandDelivery {sessionId : String} (r : CommandDispatchRequest) :
    (buildCommandDelivery cfg stamp r.modelDump sessionId).isSome ↔
      CanSign cfg ∧ Deliverable r.modelDump := by
  have hm (k : String) : r.modelDump.getItem k = _ := Value.getItem_dict (by simp [Json.keys]) k
  have hd : r.modelDump.getItem "device_id" = some (.str r.deviceId) := hm _
  have he : r.modelDump.getItem "envelope" = some (.dict r.envelope) := hm _
  have hc : (commandEnvelope cfg stamp r.modelDump (.str r.deviceId)).isSome ↔
      Deliverable r.modelDump := by
    rw [isSome_commandEnvelope he isDict_dict]
    simp only [isDict_getD_iff, Deliverable, he, Option.mem_some_iff, forall_eq', List.mem_cons,
      List.not_mem_nil, or_false, forall_eq_or_imp, forall_eq]
  rw [← hc, buildCommandDelivery, hd]
  simp only [Option.bind_eq_bind, Option.bind_some]
  cases hv : commandEnvelope cfg stamp r.modelDump (.str r.deviceId)
  case none => simp
  case some e =>
    have hs : (sign cfg e).isSome ↔ _ := isSome_sign
    cases hg : sign cfg e
    case none => simpa [hg, isDict_commandEnvelope hv] using hs
    case some e' => simp [hg, isSome_sign_message]

end Messages

section Handler

variable {c : Session} {s : State} {store : Store} {now : Int}

theorem send_cases (c : Session) (s : State) (item : Option Item)
    (build : DeliveryStamp → Option Value) :
    (∃ m, send c s item build = .ok { s with sent := s.sent ++ [(item, m)] }) ∧
        (build (c.stamps s.sent.length)).isSome ∧ c.sends s.sent.length ∨
      send c s item build = .error s ∧
        ¬((build (c.stamps s.sent.length)).isSome ∧ c.sends s.sent.length) := by
  cases hb : build (c.stamps s.sent.length)
  case none => exact .inr ⟨by simp [send, hb], by simp⟩
  case some m =>
    by_cases hs : c.sends s.sent.length
    case pos => exact .inl ⟨⟨m, by simp [send, hb, hs]⟩, rfl, hs⟩
    case neg => exact .inr ⟨by simp [send, hb, hs], by simp [hs]⟩

theorem deliver_cases {queued : List Item} (hc : CanSign c.settings)
    (hq : ∀ item ∈ queued, ∃ r : CommandDispatchRequest, item.message = r.modelDump) :
    ∃ n ≤ queued.length, (final (deliver c s queued)).store = s.store ∧
      (final (deliver c s queued)).sent.map Prod.fst =
        s.sent.map Prod.fst ++ (queued.take n).map some ∧
      (n = queued.length ↔ (∀ item ∈ queued, Deliverable item.message) ∧
        ∀ i < queued.length, c.sends (s.sent.length + i)) := by
  induction queued generalizing s
  case nil => exact ⟨0, le_rfl, rfl, (List.append_nil _).symm, by simp⟩
  case cons item rest ih =>
    obtain ⟨r, hr⟩ := hq item List.mem_cons_self
    have hb : (c.commandDelivery (c.stamps s.sent.length) item.message).isSome ↔
        Deliverable item.message := by
      rw [hr, Session.commandDelivery, isSome_buildCommandDelivery, and_iff_right hc]
    obtain ⟨⟨m, hm⟩, hd, hs⟩ | ⟨hm, hn⟩ :=
      send_cases c s (some item) (c.commandDelivery · item.message)
    case inl =>
      obtain ⟨n, hl, ht, he, hi⟩ := ih (s := { s with sent := s.sent ++ [(some item, m)] })
        fun item hi => hq item (List.mem_cons_of_mem _ hi)
      have hv : deliver c s (item :: rest) =
          deliver c { s with sent := s.sent ++ [(some item, m)] } rest := by
        rw [deliver, hm]
        rfl
      refine ⟨n + 1, by simpa using hl, hv ▸ ht, ?_, ?_⟩
      · rw [hv, he]
        simp
      · have ha {i : Nat} : (s.sent ++ [(some item, m)]).length + i = s.sent.length + (i + 1) := by
          rw [List.length_append, List.length_singleton]
          omega
        simp only [List.length_cons, Nat.add_right_cancel_iff, hi, List.forall_mem_cons, hb.mp hd,
          true_and, ha]
        refine and_congr_right fun _ => ⟨fun h i hi => ?_, fun h i hi => h (i + 1) (by omega)⟩
        cases i
        case zero => exact hs
        case succ i => exact h i (by omega)
    case inr =>
      have hv : deliver c s (item :: rest) = .error s := by
        rw [deliver, hm]
        rfl
      refine ⟨0, Nat.zero_le _, by rw [hv, final], by simp [hv, final], by simp, fun h => ?_⟩
      exact absurd ⟨hb.mpr (h.left item List.mem_cons_self), by simpa using h.right 0 (by simp)⟩ hn

structure Greeted (store : Store) (n : Nat) (s : State) : Prop where
  store : s.store = store
  length : s.sent.length = n
  sent : ∀ item, some item ∉ s.sent.map Prod.fst

theorem greeting_cases {n : Nat} (build : DeliveryStamp → Option Value)
    (h : Greeted store n s) (hb : ∀ stamp, (build stamp).isSome ↔ CanSign c.settings) :
    (∃ s', send c s none build = .ok s' ∧ Greeted store (n + 1) s') ∧
        CanSign c.settings ∧ c.sends n ∨
      send c s none build = .error s ∧ ¬(CanSign c.settings ∧ c.sends n) := by
  obtain ⟨⟨m, hm⟩, hs⟩ | ⟨hm, hs⟩ := send_cases c s none build
  case inl =>
    rw [hb, h.length] at hs
    refine .inl ⟨⟨_, hm, h.store, ?_, ?_⟩, hs⟩
    · rw [List.length_append, List.length_singleton, h.length]
    · simpa using h.sent
  case inr =>
    rw [hb, h.length] at hs
    exact .inr ⟨hm, hs⟩

theorem greet_cases (c : Session) (store : Store) :
    (∃ s, greet c ⟨store, []⟩ = .ok s ∧ Greeted store c.greetings s) ∧ c.Greets ∨
      (∃ s, greet c ⟨store, []⟩ = .error s ∧ s.store = store) ∧ ¬c.Greets := by
  have h₀ : Greeted store 0 ⟨store, []⟩ := ⟨rfl, rfl, by simp⟩
  have hl : 2 ≤ c.greetings := Nat.le_add_right ..
  have hf {i : Nat} (hi : i < c.greetings) (hn : ¬(CanSign c.settings ∧ c.sends i)) : ¬c.Greets :=
    fun hg => hn ⟨hg.left, hg.right i hi⟩
  obtain ⟨⟨s₁, e₁, h₁⟩, hc, t₁⟩ | ⟨e₁, f₁⟩ :=
    greeting_cases (c := c) c.authAck h₀ fun _ => isSome_sign_message
  case inr =>
    exact .inr ⟨⟨⟨store, []⟩, by simp [greet, e₁, bind, Except.bind], rfl⟩, hf (by omega) f₁⟩
  obtain ⟨⟨s₂, e₂, h₂⟩, -, t₂⟩ | ⟨e₂, f₂⟩ :=
    greeting_cases (c := c) c.policyUpdate h₁ fun _ => isSome_sign_message
  case inr =>
    exact .inr ⟨⟨_, by simp [greet, e₁, e₂, bind, Except.bind], h₁.store⟩, hf (by omega) f₂⟩
  cases hu : c.latest
  case none =>
    have hg : c.greetings = 2 := by simp [Session.greetings, hu]
    refine .inl ⟨⟨s₂, ?_, hg ▸ h₂⟩, hc, fun i hi => ?_⟩
    · simp [greet, e₁, e₂, hu, bind, Except.bind, pure, Except.pure]
    rw [hg] at hi
    interval_cases i
    · exact t₁
    · exact t₂
  case some latest =>
    have hg : c.greetings = 3 := by simp [Session.greetings, hu]
    obtain ⟨⟨s₃, e₃, h₃⟩, -, t₃⟩ | ⟨e₃, f₃⟩ :=
      greeting_cases (c := c) (c.updateAnnounce · latest) h₂ fun _ => isSome_sign_message
    case inr =>
      refine .inr ⟨⟨_, ?_, h₂.store⟩, hf (by omega) f₃⟩
      simp [greet, e₁, e₂, e₃, hu, bind, Except.bind]
    refine .inl ⟨⟨s₃, ?_, hg ▸ h₃⟩, hc, fun i hi => ?_⟩
    · simp [greet, e₁, e₂, e₃, hu, bind, Except.bind]
    rw [hg] at hi
    interval_cases i
    · exact t₁
    · exact t₂
    · exact t₃

theorem queue_drain : (store.drain now).2.queue = [] := by
  simp only [Store.drain]
  split
  case isTrue hc =>
    split
    case isTrue hr => simp [Store.queue, hc, hr]
    case isFalse => simp [Store.queue, Store.setList, hc]
  case isFalse hc => simp [Store.queue, hc]

theorem mem_drain_iff {item : Item} :
    item ∈ (store.drain now).1 ↔ item ∈ store.queue ∧ ¬item.isExpired now := by
  simp [Store.drain, sortByPriority]

theorem length_drain : (store.drain now).1.length = store.queue.countP (!·.isExpired now) := by
  simp [Store.drain, sortByPriority, List.countP_eq_length_filter]

theorem nodup_drain (h : (store.queue.map (·.id)).Nodup) : (store.drain now).1.Nodup :=
  (List.perm_insertionSort ..).nodup_iff.mpr (h.of_map.filter _)

theorem forall_mem_take_iff {α : Type} {xs : List α} {n : Nat} (h : xs.Nodup) (hn : n ≤ xs.length) :
    (∀ x ∈ xs, x ∈ xs.take n) ↔ n = xs.length := by
  constructor
  · intro hm
    have hl := (List.subperm_of_subset h hm).length_le
    rw [List.length_take, min_eq_left hn] at hl
    exact hn.antisymm hl
  · rintro rfl x hx
    rwa [List.take_length]

end Handler

-- No queued command is lost if and only if the handler ends before it drains the queue or all of them can
-- be delivered.
theorem keeps_iff_safe {c : Session} {store : Store} (hn : (store.queue.map (·.id)).Nodup)
    (hq : ∀ item ∈ store.queue, ∃ r : CommandDispatchRequest, item.message = r.modelDump) :
    Keeps c store ↔ Safe c store := by
  obtain ⟨⟨s, hs, hg⟩, hc⟩ | ⟨⟨s, hs, he⟩, hc⟩ := greet_cases c store
  case inr =>
    have ha : agentWs c ⟨store, []⟩ = s := by simp [agentWs, connect, hs, bind, Except.bind, final]
    refine iff_of_true (fun item hi _ => .inr ?_) (.inl hc)
    rw [ha, he]
    exact hi
  case inl =>
    have hq' : ∀ item ∈ (store.drain c.now).1, ∃ r : CommandDispatchRequest,
        item.message = r.modelDump :=
      fun item hm => hq item (mem_drain_iff.mp hm).left
    let s' : State := { s with store := (store.drain c.now).2 }
    have hs' : agentWs c ⟨store, []⟩ = final (deliver c s' (store.drain c.now).1) := by
      simp only [agentWs, connect, hs, bind, Except.bind, hg.store, s']
    obtain ⟨n, hl, ht, he, hi⟩ := deliver_cases (s := s') hc.left hq'
    have hk : Keeps c store ↔
        ∀ item ∈ (store.drain c.now).1, item ∈ (store.drain c.now).1.take n := by
      simp only [Keeps, hs', ht, he, mem_drain_iff, and_imp, s', queue_drain]
      refine forall₃_congr fun item _ _ => ?_
      rw [List.mem_append, or_iff_right (hg.sent item),
        List.mem_map_of_injective (Option.some_injective _), or_iff_left List.not_mem_nil]
    rw [hk, forall_mem_take_iff (nodup_drain hn) hl, hi, Safe, or_iff_right (not_not_intro hc)]
    simp only [mem_drain_iff, and_imp, length_drain, hg.length, s']

section Examples

def exampleSession (sends : Nat → Bool) : Session :=
  ⟨plainSettings, ⟨[], []⟩, none, "dev-1", "s-1", 0, fun _ => stamp, sends⟩

def exampleStore (policies : List (Option (List (String × Value)))) : Store where
  connected := true
  redis := policies.mapIdx fun i policy =>
    ⟨i, 0, { Connect.lockScreen with policy }.modelDump, 0, none⟩
  expireAt := none
  fallback := []
  memory := []

theorem exists_modelDump {policies : List (Option (List (String × Value)))} :
    ∀ item ∈ (exampleStore policies).queue, ∃ r : CommandDispatchRequest,
      item.message = r.modelDump := by
  intro item hi
  obtain ⟨i, _, rfl⟩ := List.mem_mapIdx.mp hi
  exact ⟨_, rfl⟩

instance : DecidablePred CanSign := fun _ =>
  inferInstanceAs (Decidable (_ ∨ _ ∨ _))

instance : DecidablePred Deliverable := fun payload =>
  inferInstanceAs (Decidable ((∀ policy ∈ payload.getItem "policy", policy.isDict) ∧
    ∀ envelope ∈ payload.getItem "envelope", ∀ k ∈ ["header", "body", "meta"],
      ∀ v ∈ envelope.getItem k, v.isDict))

instance : DecidablePred Session.Greets := fun c =>
  inferInstanceAs (Decidable (CanSign c.settings ∧ ∀ i < c.greetings, c.sends i))

instance (c : Session) : DecidablePred (Safe c) := fun store =>
  inferInstanceAs (Decidable (¬c.Greets ∨
    (∀ item ∈ store.queue, ¬item.isExpired c.now → Deliverable item.message) ∧
      ∀ i < store.queue.countP (!·.isExpired c.now), c.sends (c.greetings + i)))

theorem keeps_iff_safe_delivered :
    (agentWs (exampleSession fun _ => true) ⟨exampleStore [some [], some []], []⟩).sent.map
        (·.1.map (·.id)) = [none, none, some 0, some 1] ∧
      Keeps (exampleSession fun _ => true) (exampleStore [some [], some []]) :=
  ⟨by decide, (keeps_iff_safe (by decide) exists_modelDump).mpr (by decide)⟩

theorem not_keeps {c : Session} {store : Store} {item : Item} (hi : item ∈ store.queue)
    (he : ¬item.isExpired c.now)
    (hs : some item.id ∉ (agentWs c ⟨store, []⟩).sent.map (·.1.map (·.id)))
    (hq : item.id ∉ (agentWs c ⟨store, []⟩).store.queue.map (·.id)) : ¬Keeps c store := by
  intro hk
  cases hk item hi he
  case inl hm =>
    obtain ⟨m, hm, he⟩ := List.mem_map.mp hm
    exact hs (List.mem_map.mpr ⟨m, hm, by rw [he, Option.map_some]⟩)
  case inr hm => exact hq (List.mem_map_of_mem hm)

-- A command without a policy is lost, and with it the one behind it. So are both if the first of them
-- cannot be sent.
theorem commands_lost :
    ¬Keeps (exampleSession fun _ => true) (exampleStore [none, some []]) ∧
      ¬Keeps (exampleSession (· ≠ 2)) (exampleStore [some [], some []]) := by
  constructor
  · refine not_keeps (List.mem_cons_of_mem _ List.mem_cons_self) ?_ ?_ ?_
    all_goals decide
  · refine not_keeps (List.mem_cons_of_mem _ List.mem_cons_self) ?_ ?_ ?_
    all_goals decide

end Examples

end AgentWs

end Gateway
