import Quoodle.ControlPlane.Dispatch
import Quoodle.Gateway.Copies
import Quoodle.Windows.WsClient

-- The way of the commands from the control plane through the gateway to an agent for Windows.
namespace Windows.Deliveries

open Gateway (CommandDispatchRequest DeliveryStamp Value)
open Gateway.Connect (Delivery Sends)

structure Config where
  queue : Gateway.OfflineQueue.Config
  settings : Gateway.Settings
  agent : Environment
  sessionId : Nat → String

structure System where
  gateway : Gateway.Connect.State
  -- What was written to the websockets and has not arrived yet.
  inbox : List Delivery
  agent : Windows.State
  -- The requests that were put into the queue or written to a websocket.
  taken : List CommandDispatchRequest

inductive Action where
  -- In particular, the control plane may dispatch a command any number of times.
  | gateway (a : Gateway.Connect.Action)
  | receive (sessionId : Nat) (stamp : DeliveryStamp) (c : Circumstances)
  | lose (sessionId : Nat)
  | restart

def takenBy (g : Gateway.Connect.State) : Gateway.Connect.Action → List CommandDispatchRequest
  | .dispatch r ok _ => if g.Takes r ok then [r] else []
  | _ => []

-- A payload from which no message can be built is not sent.
def receive (cfg : Config) (s : Windows.State) (d : Delivery) (stamp : DeliveryStamp)
    (c : Circumstances) : Windows.State :=
  match Gateway.buildCommandDelivery cfg.settings stamp d.payload (cfg.sessionId d.sessionId) with
  | some m => (handleCommandDelivery cfg.agent c s (Gateway.received cfg.agent.number m)).2
  | none => s

-- The messages of a session arrive in the order in which they were sent. The agent keeps the last
-- number in its memory only.
def step (cfg : Config) (s : System) : Action → Option System
  | .gateway a =>
    (Gateway.Connect.step cfg.queue s.gateway a).map fun g => { s with
      gateway := g
      inbox := s.inbox ++ g.sent.drop s.gateway.sent.length
      taken := s.taken ++ takenBy s.gateway a }
  | .receive sid stamp c =>
    (s.inbox.find? (·.sessionId = sid)).map fun d => { s with
      inbox := s.inbox.eraseP (·.sessionId = sid)
      agent := receive cfg s.agent d stamp c }
  | .lose sid => some { s with inbox := s.inbox.filter (·.sessionId ≠ sid) }
  | .restart => some { s with agent := { s.agent with lastCommandSeq := 0 } }

structure Initial (s : System) : Prop where
  gateway : s.gateway.payloads = []
  inbox : s.inbox = []
  executed : s.agent.executed = []
  taken : s.taken = []

def System.payloads (s : System) : List Value :=
  s.gateway.payloads ++ s.inbox.map Delivery.payload

-- The gateway takes one request for every command at most, the agent checks signatures, and is not
-- restarted while a command that it has executed is on its way again.
def Once (cfg : Config) (s : System) : Action → Prop
  | .gateway (.dispatch r ok _) =>
    s.gateway.Takes r ok → r.commandId ∉ s.taken.map CommandDispatchRequest.commandId
  | .receive _ _ _ => cfg.agent.requireSignature
  | .restart =>
    ∀ r ∈ s.taken, r.commandId ∈ s.agent.executed → r.modelDump ∉ s.payloads
  | .gateway _ | .lose _ => True

def seq (cfg : Config) (r : CommandDispatchRequest) : Nat :=
  cfg.agent.toUInt64 (cfg.agent.number (.int r.seq))

def Outdated (cfg : Config) (s : Windows.State) (r : CommandDispatchRequest) : Prop :=
  r.commandId ∈ s.executed → seq cfg r ≤ s.lastCommandSeq

-- Everything that is on its way comes from a request that was taken, and will not be executed if it
-- was executed before.
structure Sound (cfg : Config) (s : System) : Prop where
  distinct : (s.taken.map CommandDispatchRequest.commandId).Nodup
  executed : s.agent.executed ⊆ s.taken.map CommandDispatchRequest.commandId
  nodup : s.agent.executed.Nodup
  payloads : ∀ p ∈ s.payloads, ∃ r ∈ s.taken, r.modelDump = p ∧ Outdated cfg s.agent r

variable {cfg : Config} {s s' : System}

theorem nodup_taken (h : (s.taken.map CommandDispatchRequest.commandId).Nodup)
    {a : Gateway.Connect.Action} (ha : Once cfg s (.gateway a)) :
    ((s.taken ++ takenBy s.gateway a).map CommandDispatchRequest.commandId).Nodup := by
  cases a
  case dispatch r ok now =>
    simp only [takenBy]
    split
    case isTrue ht =>
      rw [List.map_append, List.map_singleton]
      exact h.append (List.nodup_singleton _) (List.disjoint_singleton.mpr (ha ht))
    case isFalse => simpa using h
  all_goals simpa [takenBy] using h

namespace Sound

theorem of_initial (h : Initial s) : Sound cfg s := by
  obtain ⟨hg, hi, he, ht⟩ := h
  refine ⟨?_, ?_, ?_, ?_⟩ <;> simp [System.payloads, hg, hi, he, ht]

theorem gateway (h : Sound cfg s) {a : Gateway.Connect.Action} (ha : Once cfg s (.gateway a))
    (hs : step cfg s (.gateway a) = some s') : Sound cfg s' := by
  obtain ⟨g, hg, rfl⟩ := Option.map_eq_some_iff.mp hs
  let P (p : Value) :=
    ∃ r ∈ s.taken ++ takenBy s.gateway a, r.modelDump = p ∧ Outdated cfg s.agent r
  have ho (p : Value) (hp : p ∈ s.payloads) : P p := by
    obtain ⟨r, hr, he, hc⟩ := h.payloads p hp
    exact ⟨r, List.mem_append_left _ hr, he, hc⟩
  have hn : ∀ r ok now, a = .dispatch r ok now → s.gateway.Takes r ok → P r.modelDump := by
    rintro r ok now rfl ht
    refine ⟨r, ?_, rfl, fun he => absurd (h.executed he) (ha ht)⟩
    simp [takenBy, ht]
  have hq : Gateway.Connect.Holds P s.gateway :=
    Gateway.Connect.holds_iff.mpr fun p hp => ho p (List.mem_append_left _ hp)
  obtain ⟨hq, ds, he, hd⟩ := hq.step hn hg
  refine ⟨nodup_taken h.distinct ha, fun id hi => ?_, h.nodup, ?_⟩
  · exact List.map_subset _ (List.subset_append_left _ _) (h.executed hi)
  · simp only [System.payloads, he, List.drop_left, List.map_append, List.forall_mem_append,
      List.forall_mem_map]
    refine ⟨Gateway.Connect.holds_iff.mp hq, fun d hm => ho _ ?_, hd⟩
    exact List.mem_append_right _ (List.mem_map_of_mem hm)

theorem of_subset (h : Sound cfg s) {inbox : List Delivery} {agent : Windows.State}
    (hi : inbox ⊆ s.inbox)
    (he : agent.executed ⊆ s.taken.map CommandDispatchRequest.commandId)
    (hn : agent.executed.Nodup)
    (ho : ∀ r ∈ s.taken, r.modelDump ∈ s.payloads → Outdated cfg s.agent r → Outdated cfg agent r) :
    Sound cfg { s with inbox, agent } := by
  refine ⟨h.distinct, he, hn, fun p hp => ?_⟩
  have hm : p ∈ s.payloads :=
    List.mem_append.mpr ((List.mem_append.mp hp).imp_right fun hp => List.map_subset _ hi hp)
  obtain ⟨r, hr, rfl, hc⟩ := h.payloads p hm
  exact ⟨r, hr, rfl, ho r hr hm hc⟩

theorem execute (h : Sound cfg s) {inbox : List Delivery} (hi : inbox ⊆ s.inbox)
    {r : CommandDispatchRequest} (hr : r ∈ s.taken) (ho : Outdated cfg s.agent r)
    (hl : s.agent.lastCommandSeq < seq cfg r) :
    Sound cfg { s with
      inbox
      agent := ⟨seq cfg r, s.agent.executed ++ [r.commandId]⟩ } := by
  have hx : r.commandId ∉ s.agent.executed := fun hx => absurd (ho hx) (not_le.mpr hl)
  refine h.of_subset hi ?_ ?_ fun q hq _ hc he => ?_
  · exact List.append_subset.mpr ⟨h.executed, by simpa using ⟨r, hr, rfl⟩⟩
  · exact h.nodup.append (List.nodup_singleton _) (List.disjoint_singleton.mpr hx)
  · cases List.mem_append.mp he
    case inl he => exact (hc he).trans hl.le
    case inr he =>
      have hqr : q = r := List.inj_on_of_nodup_map h.distinct hq hr (List.mem_singleton.mp he)
      exact hqr ▸ le_rfl

theorem receive (h : Sound cfg s) {sid : Nat} {stamp : DeliveryStamp} {c : Circumstances}
    (hr : cfg.agent.requireSignature) (hs : step cfg s (.receive sid stamp c) = some s') :
    Sound cfg s' := by
  obtain ⟨d, hd, rfl⟩ := Option.map_eq_some_iff.mp hs
  have hm : d.payload ∈ s.payloads :=
    List.mem_append_right _ (List.mem_map_of_mem (List.mem_of_find?_eq_some hd))
  obtain ⟨r, hrm, hp, hc⟩ := h.payloads _ hm
  unfold Deliveries.receive
  split
  case h_2 => exact h.of_subset List.eraseP_subset h.executed h.nodup fun _ _ _ => id
  case h_1 m hb =>
    rw [← hp] at hb
    have hh := handleCommandDelivery_cases hr c s.agent (Gateway.received cfg.agent.number m)
    revert hh
    generalize (handleCommandDelivery cfg.agent c s.agent _).2 = agent
    rintro (⟨hl, he⟩ | ⟨d, n, hrd, hq, hl, rfl⟩)
    · exact h.of_subset List.eraseP_subset (he ▸ h.executed) (he ▸ h.nodup) fun q _ _ hc hx =>
        (hc (he ▸ hx)).trans hl
    · obtain ⟨hid, hsq⟩ := readCommandDelivery_received hb hrd
      cases hq.symm.trans hsq
      rw [hid]
      exact h.execute List.eraseP_subset hrm hc hl

theorem step {a : Action} (h : Sound cfg s) (ha : Once cfg s a) (hs : step cfg s a = some s') :
    Sound cfg s' := by
  cases a
  case gateway a => exact h.gateway ha hs
  case receive sid stamp c => exact h.receive ha hs
  case lose sid =>
    cases hs
    exact h.of_subset (List.filter_subset_self _) h.executed h.nodup fun _ _ _ => id
  case restart =>
    cases hs
    exact h.of_subset (List.Subset.refl _) h.executed h.nodup fun r hr hm _ he =>
      absurd hm (ha r hr he)

end Sound

-- The operation of a command is run once at most.
theorem executed_count_le_one {as : List Action} (hi : Initial s)
    (h : Transition.Steps (Deliveries.step cfg) (Once cfg) s as s') (id : String) :
    s'.agent.executed.count id ≤ 1 :=
  List.nodup_iff_count_le_one.mp (h.invariant Sound.step (.of_initial hi)).nodup id

instance (s : System) : DecidablePred (Once cfg s)
  | .gateway (.dispatch r ok _) => inferInstanceAs <| Decidable <|
    s.gateway.Takes r ok → r.commandId ∉ s.taken.map CommandDispatchRequest.commandId
  | .receive _ _ _ => inferInstanceAs (Decidable (cfg.agent.requireSignature = true))
  | .restart => inferInstanceAs <| Decidable <|
    ∀ r ∈ s.taken, r.commandId ∈ s.agent.executed → r.modelDump ∉ s.payloads
  | .lose _ => isTrue trivial
  | .gateway .connect | .gateway (.superseded _) | .gateway (.greeted _ _) | .gateway (.deliver _ _)
  | .gateway (.close _) | .gateway (.setQuarantine _) | .gateway (.resume _ _ _)
  | .gateway (.lapse _) | .gateway .disconnect => isTrue trivial

def exampleConfig : Config where
  queue := { Gateway.OfflineQueue.defaultConfig with
    parseIso8601 ts := some (parseIso8601ToEpoch ts) }
  settings := { Gateway.plainSettings with
    signingKey := some ⟨fun _ => "sig", fun _ _ => true, fun _ => rfl⟩ }
  agent := {
    requireSignature := true
    readDouble _ := ⟨"0.0".toList, by decide, by decide⟩
    truncate _ := 0
    verify _ _ := true }
  sessionId _ := "s-1"

def idle : System :=
  ⟨Gateway.Connect.idle, [], ⟨0, []⟩, []⟩

def exampleDispatcher : ControlPlane.Dispatcher :=
  ⟨"v1", "h1", fun _ => "sig"⟩

def lockScreen : ControlPlane.QueuedCommand :=
  ControlPlane.CommandService.newCommand ControlPlane.exampleServices ⟨"c-1", "t-1", 1767225600⟩
    ⟨"u-1", "operator", false, none⟩ ControlPlane.lockScreenRequest

def request (seq now : Int) : CommandDispatchRequest :=
  (exampleDispatcher.request lockScreen [] [] seq now).get rfl

-- The control plane dispatches the command while the device is offline.
def enqueue (seq now : Int) : List Action := [
  .gateway (.dispatch (request seq now) true now), .gateway (.resume 0 true now),
  .gateway (.resume 0 true now), .gateway (.resume 0 true now)
]

def drain (now : Int) : List Action := [
  .gateway .connect, .gateway (.greeted 0 now), .gateway (.resume 0 true now),
  .gateway (.resume 0 true now)
]

def deliver (now : Int) : List Action :=
  [.gateway (.deliver 0 true), .receive 0 Gateway.stamp ⟨now, false, "h1"⟩]

theorem executed_once :
    ∃ s, Transition.Steps (step exampleConfig) (Once exampleConfig) idle
        (enqueue 1 1767225600 ++ drain 1767225610 ++ deliver 1767225610) s ∧
      s.agent.executed = ["c-1"] ∧ ∀ id, s.agent.executed.count id ≤ 1 := by
  have h : Transition.Steps (step exampleConfig) (Once exampleConfig) idle
      (enqueue 1 1767225600 ++ drain 1767225610 ++ deliver 1767225610) _ := .of_run rfl
  exact ⟨_, h, rfl, executed_count_le_one ⟨rfl, rfl, rfl, rfl⟩ h⟩

-- The control plane dispatches the command once more because the gateway has put it into the queue.
-- Both messages are sent as soon as the device connects, and the second has the greater number.
theorem executed_twice :
    (Transition.run (step exampleConfig) idle
        (enqueue 1 1767225600 ++ enqueue 2 1767225605 ++ drain 1767225610 ++
          deliver 1767225610 ++ deliver 1767225611)).map (·.agent.executed) =
      some ["c-1", "c-1"] := by
  decide +kernel

end Windows.Deliveries
