import Quoodle.Windows.Deliveries

-- The numbers of the commands, from the jobs of the control plane that draw them to the agent for
-- Windows, which takes them in increasing order only.
namespace Windows

open Json.Nlohmann

section Handle

variable {env : Environment} {c : Circumstances} {s : State} {msg : Json Number}

theorem le_of_verifyCommandEnvelope_eq_seqReplay {now : Int} {lastSeq : Nat}
    {envelope : Json Number}
    (h : verifyCommandEnvelope env now lastSeq envelope = some .seqReplay) :
    ∃ seq, value env.readUInt64 envelope "seq" 0 = some seq ∧ seq ≤ lastSeq := by
  unfold verifyCommandEnvelope at h
  split at h
  case h_1 => cases h
  split at h
  case isTrue => cases h
  split at h
  case h_1 => cases h
  case h_2 seq hq =>
    split at h
    case isTrue hl => exact ⟨seq, hq, hl⟩
    split at h
    case h_1 => cases h
    case h_2 => cases h
    case h_3 => split at h <;> cases h

theorem Failure.eq_seqReplay {f : Failure} (h : f.errorCode = seqReplay.errorCode) :
    f = .seqReplay := by
  cases f <;> first | rfl | exact absurd h (by decide)

theorem le_of_rejected_seqReplay
    (h : (handleCommandDelivery env c s msg).1 =
      .rejected Failure.seqReplay.code Failure.seqReplay.errorCode) :
    ∃ d seq, readCommandDelivery msg = some d ∧
      value env.readUInt64 d.envelope "seq" 0 = some seq ∧ seq ≤ s.lastCommandSeq := by
  unfold handleCommandDelivery at h
  split at h
  case h_1 => cases h
  case h_2 d hd =>
    split at h
    case isTrue => cases h
    simp only at h
    split at h
    case h_1 f hf =>
      obtain rfl : f = .seqReplay := Failure.eq_seqReplay (Outcome.rejected.inj h).right
      obtain ⟨_, hf⟩ := Option.ite_none_right_eq_some.mp hf
      obtain ⟨seq, hq, hl⟩ := le_of_verifyCommandEnvelope_eq_seqReplay hf
      exact ⟨d, seq, hd, hq, hl⟩
    split at h
    case isTrue => cases h
    case isFalse => split at h <;> cases h

theorem lastCommandSeq_handleCommandDelivery (env : Environment) (c : Circumstances) (s : State)
    (msg : Json Number) :
    (handleCommandDelivery env c s msg).2.lastCommandSeq = s.lastCommandSeq ∨
      ∃ d seq, readCommandDelivery msg = some d ∧
        value env.readUInt64 d.envelope "seq" 0 = some seq ∧
        (handleCommandDelivery env c s msg).2.lastCommandSeq = seq := by
  by_cases hr : env.requireSignature
  case pos =>
    unfold handleCommandDelivery
    split
    case h_1 => exact .inl rfl
    case h_2 d hd =>
      split
      case isTrue => exact .inl rfl
      simp only
      split
      case h_1 => exact .inl rfl
      case h_2 hv =>
        obtain ⟨seq, hq, hl⟩ := lt_of_verifyCommandEnvelope hv
        refine .inr ⟨d, seq, hd, hq, ?_⟩
        simp only [hq, Option.getD_some, max_eq_left hl.le]
        split
        case isTrue => rfl
        case isFalse => split <;> rfl
  case neg =>
    refine .inl ?_
    simp only [handleCommandDelivery, if_neg hr]
    split
    case h_1 => rfl
    split
    case isTrue => rfl
    split
    case isTrue => rfl
    case isFalse => split <;> rfl

theorem toUInt64_number {n : Int} (h : 0 ≤ n) (hn : n < 2 ^ 63) :
    (env.toUInt64 (env.number (.int n)) : Int) = n := by
  have hr : readInteger (Json.intText n) = some ⟨n, by omega, by omega⟩ :=
    readInteger_intText ⟨n, _, _⟩
  simp only [Environment.number, Gateway.Number.text, hr, Environment.toUInt64, Environment.toInt]
  omega

end Handle

namespace Sequence

open ControlPlane (Dispatcher QueuedCommand)
open Gateway (CommandDispatchRequest DeliveryStamp Value)
open Gateway.Connect (Delivery Sends)
open Deliveries (Config)

structure System where
  counter : Nat
  -- The requests that the jobs have made, and the gateway has not got yet.
  jobs : List CommandDispatchRequest
  deliveries : Deliveries.System
  -- The payloads of the messages that the agent has got.
  arrived : List Value

-- The cache cannot count any further than a signed integer of 64 bits.
def next (counter : Nat) : Option Nat :=
  if counter + 1 < 2 ^ 63 then some (counter + 1) else none

inductive Action where
  | draw (d : Dispatcher) (command : QueuedCommand)
    (policyDecision compliance : List (String × Value)) (now : Int)
  | send (i : Nat) (ok : Bool) (now : Int)
  | deliveries (a : Deliveries.Action)

def isDispatch : Deliveries.Action → Bool
  | .gateway (.dispatch _ _ _) => true
  | _ => false

def arrivedBy (s : Deliveries.System) : Deliveries.Action → List Value
  | .receive sid _ _ => (s.inbox.find? (·.sessionId = sid)).toList.map Delivery.payload
  | _ => []

def step (cfg : Config) (s : System) : Action → Option System
  | .draw d command policyDecision compliance now =>
    (next s.counter).map fun seq => { s with
      counter := seq
      jobs := s.jobs ++ (d.request command policyDecision compliance seq now).toList }
  | .send i ok now =>
    s.jobs[i]?.bind fun r =>
      (Deliveries.step cfg s.deliveries (.gateway (.dispatch r ok now))).map fun deliveries =>
        { s with jobs := s.jobs.eraseIdx i, deliveries }
  | .deliveries a =>
    if isDispatch a then none
    else
      (Deliveries.step cfg s.deliveries a).map fun deliveries =>
        { s with deliveries, arrived := s.arrived ++ arrivedBy s.deliveries a }

structure Initial (s : System) : Prop where
  counter : s.counter < 2 ^ 63
  jobs : s.jobs = []
  deliveries : Deliveries.Initial s.deliveries
  last : s.deliveries.agent.lastCommandSeq ≤ s.counter

def IsNew (arrived : List Value) (commandId : String) : Prop :=
  ∀ p ∈ arrived, p.getItem "command_id" ≠ some (.str commandId)

-- The requests get to the gateway in the order in which their numbers were drawn, and so do the
-- messages with new commands to the agent.
def InOrder (s : System) : Action → Prop
  | .draw _ _ _ _ _ => True
  | .send i _ _ => ∀ r ∈ s.jobs[i]?, ∀ j ∈ s.jobs.eraseIdx i, r.seq < j.seq
  | .deliveries a =>
    ∀ p ∈ arrivedBy s.deliveries a, ∀ r ∈ s.deliveries.taken, r.modelDump = p →
      ∀ q ∈ s.deliveries.taken, q.modelDump ∈ s.deliveries.payloads → IsNew s.arrived q.commandId →
        q.commandId ≠ r.commandId → r.seq < q.seq

-- What is on its way comes from requests that were taken, in the order of their numbers.
structure Ordered (s : System) : Prop where
  counter : s.counter < 2 ^ 63
  last : s.deliveries.agent.lastCommandSeq ≤ s.counter
  jobs : ∀ j ∈ s.jobs, (s.deliveries.agent.lastCommandSeq : Int) < j.seq ∧ j.seq ≤ s.counter
  taken : ∀ r ∈ s.deliveries.taken, 0 < r.seq ∧ r.seq ≤ s.counter ∧ ∀ j ∈ s.jobs, r.seq < j.seq
  payloads : ∀ p ∈ s.deliveries.payloads, ∃ r ∈ s.deliveries.taken, r.modelDump = p
  ahead : ∀ r ∈ s.deliveries.taken, r.modelDump ∈ s.deliveries.payloads →
    IsNew s.arrived r.commandId → (s.deliveries.agent.lastCommandSeq : Int) < r.seq

variable {cfg : Config}

section Deliveries

variable {s s' : Deliveries.System} {a : Deliveries.Action}

theorem mem_payloads_of_gateway {a : Gateway.Connect.Action}
    (hs : Deliveries.step cfg s (.gateway a) = some s') {p : Value} (hp : p ∈ s'.payloads) :
    p ∈ s.payloads ∨
      p ∈ (Deliveries.takenBy s.gateway a).map CommandDispatchRequest.modelDump := by
  obtain ⟨g, hg, rfl⟩ := Option.map_eq_some_iff.mp hs
  let P (p : Value) := p ∈ s.payloads ∨
    p ∈ (Deliveries.takenBy s.gateway a).map CommandDispatchRequest.modelDump
  have hn : ∀ r ok now, a = .dispatch r ok now → s.gateway.Takes r ok → P r.modelDump := by
    rintro r ok now rfl ht
    exact .inr (by simp [Deliveries.takenBy, ht])
  have hq : Gateway.Connect.Holds P s.gateway :=
    Gateway.Connect.holds_iff.mpr fun p hp => .inl (List.mem_append_left _ hp)
  obtain ⟨hq, ds, he, hd⟩ := hq.step hn hg
  simp only [Deliveries.System.payloads, he, List.drop_left, List.map_append,
    List.mem_append] at hp
  obtain hp | hp | hp := hp
  · exact Gateway.Connect.holds_iff.mp hq p hp
  · exact .inl (List.mem_append_right _ hp)
  · obtain ⟨d, hm, rfl⟩ := List.mem_map.mp hp
    exact hd d hm

theorem payloads_subset_of_step (ha : ¬isDispatch a) (hs : Deliveries.step cfg s a = some s') :
    s'.taken = s.taken ∧ s'.payloads ⊆ s.payloads := by
  cases a
  case gateway a =>
    have ht : Deliveries.takenBy s.gateway a = [] := by
      cases a
      case dispatch => exact absurd rfl ha
      all_goals rfl
    refine ⟨?_, fun p hp => ?_⟩
    · obtain ⟨g, _, rfl⟩ := Option.map_eq_some_iff.mp hs
      simp [ht]
    · simpa [ht] using mem_payloads_of_gateway hs hp
  case receive sid stamp c =>
    obtain ⟨d, _, rfl⟩ := Option.map_eq_some_iff.mp hs
    refine ⟨rfl, fun p hp => ?_⟩
    exact List.mem_append.mpr <| (List.mem_append.mp hp).imp_right fun hp =>
      List.map_subset _ List.eraseP_subset hp
  case lose sid =>
    cases hs
    refine ⟨rfl, fun p hp => ?_⟩
    exact List.mem_append.mpr <| (List.mem_append.mp hp).imp_right fun hp =>
      List.map_subset _ (List.filter_subset_self _) hp
  case restart =>
    cases hs
    exact ⟨rfl, List.Subset.refl _⟩

theorem arrivedBy_subset : arrivedBy s a ⊆ s.payloads := by
  intro p hp
  cases a
  case receive sid stamp c =>
    obtain ⟨d, hd, rfl⟩ := List.mem_map.mp hp
    have hm : d ∈ s.inbox := List.mem_of_find?_eq_some (Option.mem_toList.mp hd)
    exact List.mem_append_right _ (List.mem_map_of_mem hm)
  all_goals cases hp

theorem lastCommandSeq_of_step (hs : Deliveries.step cfg s a = some s') :
    s'.agent.lastCommandSeq ≤ s.agent.lastCommandSeq ∨
      ∃ p ∈ arrivedBy s a, ∀ r : CommandDispatchRequest, r.modelDump = p →
        s'.agent.lastCommandSeq = Deliveries.seq cfg r := by
  cases a
  case gateway a =>
    obtain ⟨g, _, rfl⟩ := Option.map_eq_some_iff.mp hs
    exact .inl le_rfl
  case receive sid stamp c =>
    obtain ⟨d, hd, rfl⟩ := Option.map_eq_some_iff.mp hs
    simp only [Deliveries.receive]
    split
    case h_2 => exact .inl le_rfl
    case h_1 m hb =>
      cases lastCommandSeq_handleCommandDelivery cfg.agent c s.agent
        (Gateway.received cfg.agent.number m)
      case inl he => exact .inl he.le
      case inr he =>
        obtain ⟨e, seq, he, hq, hl⟩ := he
        refine .inr ⟨d.payload, by simp [arrivedBy, hd], fun r hr => ?_⟩
        rw [← hr] at hb
        obtain ⟨_, hsq⟩ := readCommandDelivery_received hb he
        cases hq.symm.trans hsq
        exact hl
  case lose sid =>
    cases hs
    exact .inl le_rfl
  case restart =>
    cases hs
    exact .inl (Nat.zero_le _)

end Deliveries

theorem seq_eq_of_modelDump_eq {q r : CommandDispatchRequest} (h : q.modelDump = r.modelDump) :
    q.commandId = r.commandId ∧ q.seq = r.seq := by
  obtain ⟨hi, hs, _⟩ := Gateway.getItem_modelDump q
  obtain ⟨hi', hs', _⟩ := Gateway.getItem_modelDump r
  rw [h] at hi hs
  have hi := Option.some.inj (hi.symm.trans hi')
  have hs := Option.some.inj (hs.symm.trans hs')
  simp_all [Value.str, Value.int]

variable {s s' : System}

namespace Ordered

theorem of_initial (h : Initial s) : Ordered s where
  counter := h.counter
  last := h.last
  jobs := by simp [h.jobs]
  taken := by simp [h.deliveries.taken]
  payloads := by simp [Deliveries.System.payloads, h.deliveries.gateway, h.deliveries.inbox]
  ahead := by simp [h.deliveries.taken]

theorem draw (h : Ordered s) {d : Dispatcher} {command : QueuedCommand}
    {policyDecision compliance : List (String × Value)} {now : Int}
    (hs : step cfg s (.draw d command policyDecision compliance now) = some s') : Ordered s' := by
  obtain ⟨seq, hn, rfl⟩ := Option.map_eq_some_iff.mp hs
  obtain ⟨hlt, hn⟩ := Option.ite_none_right_eq_some.mp hn
  cases hn
  have hl := h.last
  -- The new request has the number that was drawn, which is greater than all others.
  have hj (j : CommandDispatchRequest) (hj : j ∈ s.jobs ++
      (d.request command policyDecision compliance (s.counter + 1 : Nat) now).toList) :
      j ∈ s.jobs ∨ j.seq = s.counter + 1 := by
    refine (List.mem_append.mp hj).imp_right fun hj => ?_
    obtain ⟨_, hq, _⟩ := Dispatcher.getItem_request (Option.mem_toList.mp hj)
    have hq := Option.some.inj ((Gateway.getItem_modelDump j).2.1.symm.trans hq)
    simpa [Value.int] using hq
  refine ⟨hlt, by simp only; omega, fun j hm => ?_, fun r hr => ?_, h.payloads, h.ahead⟩
  · cases hj j hm
    case inl hm =>
      have := h.jobs j hm
      simp only [Nat.cast_add, Nat.cast_one]
      omega
    case inr he =>
      simp only [Nat.cast_add, Nat.cast_one]
      omega
  · obtain ⟨h₀, hc, ht⟩ := h.taken r hr
    refine ⟨h₀, by simp only [Nat.cast_add, Nat.cast_one]; omega, fun j hm => ?_⟩
    cases hj j hm
    case inl hm => exact ht j hm
    case inr he => omega

theorem send (h : Ordered s) {i : Nat} {ok : Bool} {now : Int} (ha : InOrder s (.send i ok now))
    (hs : step cfg s (.send i ok now) = some s') : Ordered s' := by
  obtain ⟨r, hr, hs⟩ := Option.bind_eq_some_iff.mp hs
  obtain ⟨t, hg, rfl⟩ := Option.map_eq_some_iff.mp hs
  have hp (p : Value) (hp : p ∈ t.payloads) := mem_payloads_of_gateway hg hp
  obtain ⟨g, _, rfl⟩ := Option.map_eq_some_iff.mp hg
  have hm := List.mem_of_getElem? hr
  obtain ⟨hl, hc⟩ := h.jobs r hm
  have ht (q : CommandDispatchRequest)
      (hq : q ∈ Deliveries.takenBy s.deliveries.gateway (.dispatch r ok now)) : q = r := by
    simp only [Deliveries.takenBy] at hq
    split at hq
    case isTrue => exact List.mem_singleton.mp hq
    case isFalse => cases hq
  refine ⟨h.counter, h.last, fun j hj => h.jobs j (List.mem_of_mem_eraseIdx hj), fun q hq => ?_,
    fun p hm => ?_, fun q hq hm hn => ?_⟩
  · cases List.mem_append.mp hq
    case inl hq =>
      obtain ⟨h₀, hc, hj⟩ := h.taken q hq
      exact ⟨h₀, hc, fun j hm => hj j (List.mem_of_mem_eraseIdx hm)⟩
    case inr hq =>
      obtain rfl := ht q hq
      exact ⟨by omega, hc, ha q hr⟩
  · cases hp p hm
    case inl hm =>
      obtain ⟨q, hq, he⟩ := h.payloads p hm
      exact ⟨q, List.mem_append_left _ hq, he⟩
    case inr hm =>
      obtain ⟨q, hq, he⟩ := List.mem_map.mp hm
      exact ⟨q, List.mem_append_right _ hq, he⟩
  · cases hp _ hm
    case inl hm =>
      obtain ⟨q', hq', he⟩ := h.payloads _ hm
      obtain ⟨hi, hs⟩ := seq_eq_of_modelDump_eq he
      exact hs ▸ h.ahead q' hq' (he ▸ hm) (hi ▸ hn)
    case inr hm =>
      obtain ⟨q', hq', he⟩ := List.mem_map.mp hm
      obtain rfl := ht q' hq'
      exact (seq_eq_of_modelDump_eq he).right ▸ hl

theorem deliveries (h : Ordered s) {a : Deliveries.Action} (ha : InOrder s (.deliveries a))
    (hs : step cfg s (.deliveries a) = some s') : Ordered s' := by
  obtain ⟨hd, hs⟩ := Option.ite_none_left_eq_some.mp hs
  obtain ⟨t, ht, rfl⟩ := Option.map_eq_some_iff.mp hs
  obtain ⟨he, hp⟩ := payloads_subset_of_step hd ht
  have hn {q : CommandDispatchRequest}
      (hq : IsNew (s.arrived ++ arrivedBy s.deliveries a) q.commandId) :
      IsNew s.arrived q.commandId := fun p hp => hq p (List.mem_append_left _ hp)
  have hps (p : Value) (hm : p ∈ t.payloads) : ∃ r ∈ t.taken, r.modelDump = p :=
    he ▸ h.payloads p (hp hm)
  cases lastCommandSeq_of_step ht
  case inl hl =>
    have hl : (t.agent.lastCommandSeq : Int) ≤ s.deliveries.agent.lastCommandSeq := by omega
    refine ⟨h.counter, by have := h.last; simp only; omega, fun j hj => ?_, he ▸ h.taken, hps,
      fun q hq hm hq' => ?_⟩
    · exact (h.jobs j hj).imp_left hl.trans_lt
    · exact hl.trans_lt (h.ahead q (he ▸ hq) (hp hm) (hn hq'))
  case inr hl =>
    obtain ⟨p, hm, hl⟩ := hl
    obtain ⟨r, hr, rfl⟩ := h.payloads p (arrivedBy_subset hm)
    obtain ⟨h₀, hc, hj⟩ := h.taken r hr
    have hlt := h.counter
    have hl : (t.agent.lastCommandSeq : Int) = r.seq := by
      rw [hl r rfl]
      exact toUInt64_number h₀.le (by omega)
    refine ⟨h.counter, by simp only; omega, fun j hm => ?_, he ▸ h.taken, hps,
      fun q hq hm' hq' => ?_⟩
    · exact ⟨hl ▸ hj j hm, (h.jobs j hm).right⟩
    · refine hl ▸ ha _ hm r hr rfl q (he ▸ hq) (hp hm') (hn hq') fun hi => ?_
      exact hq' _ (List.mem_append_right _ hm) (hi ▸ (Gateway.getItem_modelDump r).left)

theorem step {a : Action} (h : Ordered s) (ha : InOrder s a) (hs : step cfg s a = some s') :
    Ordered s' := by
  cases a
  case draw => exact h.draw hs
  case send => exact h.send ha hs
  case deliveries => exact h.deliveries ha hs

end Ordered

-- A command that arrives for the first time is not taken for a replay.
theorem not_rejected_of_isNew {as : List Action} (hi : Initial s)
    (h : Transition.Steps (step cfg) InOrder s as s') {sid : Nat} {d : Delivery}
    (hd : s'.deliveries.inbox.find? (·.sessionId = sid) = some d)
    (hn : ∀ p ∈ s'.arrived, p.getItem "command_id" ≠ d.payload.getItem "command_id")
    {stamp : DeliveryStamp} {m : Value}
    (hm : Gateway.buildCommandDelivery cfg.settings stamp d.payload (cfg.sessionId d.sessionId) =
      some m) (c : Circumstances) :
    (handleCommandDelivery cfg.agent c s'.deliveries.agent
        (Gateway.received cfg.agent.number m)).1 ≠
      .rejected Failure.seqReplay.code Failure.seqReplay.errorCode := by
  intro hr
  have ho := h.invariant Ordered.step (.of_initial hi)
  have hp : d.payload ∈ s'.deliveries.payloads :=
    List.mem_append_right _ (List.mem_map_of_mem (List.mem_of_find?_eq_some hd))
  obtain ⟨r, ht, he⟩ := ho.payloads _ hp
  obtain ⟨h₀, hc, _⟩ := ho.taken r ht
  have hlt := ho.counter
  have hl := ho.ahead r ht (he ▸ hp) fun p hp hx =>
    hn p hp (hx.trans (he ▸ (Gateway.getItem_modelDump r).left.symm))
  rw [← he] at hm
  obtain ⟨e, seq, hd, hq, hle⟩ := le_of_rejected_seqReplay hr
  cases hq.symm.trans (readCommandDelivery_received hm hd).right
  have hs : (cfg.agent.toUInt64 (cfg.agent.number (.int r.seq)) : Int) = r.seq :=
    toUInt64_number h₀.le (by omega)
  omega

def idle : System :=
  ⟨0, [], Deliveries.idle, []⟩

def draw (id : String) : Action :=
  .draw Deliveries.exampleDispatcher
    (ControlPlane.CommandService.newCommand ControlPlane.exampleServices ⟨id, "t-1", 1767225600⟩
      ⟨"u-1", "operator", false, none⟩ ControlPlane.lockScreenRequest) [] [] 1767225600

instance (arrived : List Value) (commandId : String) : Decidable (IsNew arrived commandId) :=
  inferInstanceAs (Decidable (∀ p ∈ arrived, _))

instance (s : System) : DecidablePred (InOrder s)
  | .draw _ _ _ _ _ => isTrue trivial
  | .send i _ _ =>
    inferInstanceAs <| Decidable <| ∀ r ∈ s.jobs[i]?, ∀ j ∈ s.jobs.eraseIdx i, r.seq < j.seq
  | .deliveries a =>
    inferInstanceAs <| Decidable <|
      ∀ p ∈ arrivedBy s.deliveries a, ∀ r ∈ s.deliveries.taken, r.modelDump = p →
        ∀ q ∈ s.deliveries.taken, q.modelDump ∈ s.deliveries.payloads →
          IsNew s.arrived q.commandId → q.commandId ≠ r.commandId → r.seq < q.seq

def circumstances : Circumstances :=
  ⟨1767225600, false, "h1"⟩

def receive : Action :=
  .deliveries (.receive 0 Gateway.stamp circumstances)

theorem not_rejected_of_isNew_second :
    ∃ s d m, Transition.Steps (step Deliveries.exampleConfig) InOrder idle
        [.deliveries (.gateway .connect), draw "c-1", draw "c-2", .send 0 true 1767225600,
          .send 0 true 1767225600, receive] s ∧
      s.deliveries.inbox.find? (·.sessionId = 0) = some d ∧
      Gateway.buildCommandDelivery Deliveries.exampleConfig.settings Gateway.stamp d.payload "s-1" =
        some m ∧
      (handleCommandDelivery Deliveries.exampleConfig.agent circumstances s.deliveries.agent
          (Gateway.received Deliveries.exampleConfig.agent.number m)).1 ≠
        .rejected "SEQ_REPLAY" 4006 := by
  have h : Transition.Steps (step Deliveries.exampleConfig) InOrder idle
      [.deliveries (.gateway .connect), draw "c-1", draw "c-2", .send 0 true 1767225600,
        .send 0 true 1767225600, receive] _ := .of_run rfl
  refine ⟨_, _, _, h, rfl, rfl, ?_⟩
  have hi : Initial idle := ⟨by decide, rfl, ⟨rfl, rfl, rfl, rfl⟩, le_rfl⟩
  refine @not_rejected_of_isNew _ _ _ _ hi h 0 _ rfl ?_ Gateway.stamp _ rfl circumstances
  decide

-- The device is connected, and the second request gets to the gateway before the first.
theorem rejected_overtaken :
    ∃ s d m, Transition.run (step Deliveries.exampleConfig) idle
        [.deliveries (.gateway .connect), draw "c-1", draw "c-2", .send 1 true 1767225600,
          .send 0 true 1767225600, receive] = some s ∧
      s.deliveries.inbox.find? (·.sessionId = 0) = some d ∧
      (∀ p ∈ s.arrived, p.getItem "command_id" ≠ d.payload.getItem "command_id") ∧
      Gateway.buildCommandDelivery Deliveries.exampleConfig.settings Gateway.stamp d.payload "s-1" =
        some m ∧
      (handleCommandDelivery Deliveries.exampleConfig.agent circumstances s.deliveries.agent
          (Gateway.received Deliveries.exampleConfig.agent.number m)).1 =
        .rejected "SEQ_REPLAY" 4006 := by
  refine ⟨_, _, _, rfl, rfl, ?_, rfl, rfl⟩
  decide

end Sequence

end Windows
