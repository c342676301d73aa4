import Quoodle.Gateway.Connect

-- Where the payload of a request can be while it is on its way to the device. An operation of Redis
-- may copy it or lose it, but never changes it.
namespace Gateway

namespace OfflineQueue

def Call.items : Call → List Item
  | .llen x | .lpop x | .rpush x _ | .expire x _ => [x]
  | .lrange _ => []
  | .delete _ raw => raw

def State.payloads (s : State) : List Value :=
  (s.store.redis ++ s.store.fallback ++ s.store.memory ++ s.calls.flatMap Call.items).map Item.message

variable {P : Value → Prop} {cfg : Config} {s s' : State} {c : Call} {xs : List Item} {ok : Bool}
variable {now : Int}

def Forall (P : Value → Prop) (xs : List Item) : Prop :=
  ∀ x ∈ xs, P x.message

structure Holds (P : Value → Prop) (s : State) : Prop where
  redis : Forall P s.store.redis
  fallback : Forall P s.store.fallback
  memory : Forall P s.store.memory
  calls : ∀ c ∈ s.calls, Forall P c.items

theorem holds_iff : Holds P s ↔ ∀ p ∈ s.payloads, P p := by
  simp only [State.payloads, List.forall_mem_map, List.forall_mem_append, List.mem_flatMap]
  constructor
  · rintro h
    exact ⟨⟨⟨h.redis, h.fallback⟩, h.memory⟩, fun x ⟨c, hc, hx⟩ => h.calls c hc x hx⟩
  · rintro ⟨⟨⟨hr, hf⟩, hm⟩, hc⟩
    exact ⟨hr, hf, hm, fun c hm x hx => hc x ⟨c, hm, hx⟩⟩

def Drains (P : Value → Prop) (s s' : State) : Prop :=
  ∃ rs, s'.drained = s.drained ++ rs ∧ ∀ r ∈ rs, Forall P r.2

theorem Drains.of_eq (h : s'.drained = s.drained) : Drains P s s' :=
  ⟨[], by simpa using h, by simp⟩

namespace Holds

theorem spawn (h : Holds P s) (hc : Forall P c.items) : Holds P (s.spawn c) where
  redis := h.redis
  fallback := h.fallback
  memory := h.memory
  calls d hd := by
    cases List.mem_append.mp hd
    case inl hd => exact h.calls d hd
    case inr hd => exact List.mem_singleton.mp hd ▸ hc

theorem list (h : Holds P s) (ok : Bool) : Forall P (s.store.list ok) := by
  unfold Store.list
  split
  case isTrue => exact h.redis
  case isFalse => exact h.fallback

theorem setList (h : Holds P s) (ok : Bool) (hx : Forall P xs) :
    Holds P { s with store := s.store.setList ok xs } := by
  unfold Store.setList
  split
  case isTrue => exact ⟨hx, h.fallback, h.memory, h.calls⟩
  case isFalse => exact ⟨h.redis, hx, h.memory, h.calls⟩

theorem evict (h : Holds P s) (cfg : Config) (xs : List Item) : Holds P (s.evict cfg xs) := by
  unfold State.evict
  split
  case isTrue => exact ⟨h.redis, h.fallback, h.memory, h.calls⟩
  case isFalse => exact h

theorem expire (h : Holds P s) (ok : Bool) (t : Int) :
    Holds P { s with store := s.store.expire ok t } := by
  unfold Store.expire
  split
  case isTrue => exact ⟨h.redis, h.fallback, h.memory, h.calls⟩
  case isFalse => exact h

end Holds

theorem Forall.nil : Forall P [] := by
  simp [Forall]

theorem Forall.append {ys : List Item} (hx : Forall P xs) (hy : Forall P ys) : Forall P (xs ++ ys) :=
  List.forall_mem_append.mpr ⟨hx, hy⟩

theorem drains_deliver (caller : Nat) (hx : Forall P xs) :
    Drains P s (s.deliver caller now xs) := by
  refine ⟨_, rfl, fun r hr x hm => ?_⟩
  cases List.mem_singleton.mp hr
  exact hx x (List.mem_of_mem_filter ((List.perm_insertionSort _ _).subset hm))

namespace Holds

theorem resume (h : Holds P s) (hc : Forall P c.items) (ok : Bool) (now : Int) :
    Holds P (s.resume cfg ok now c) ∧ Drains P s (s.resume cfg ok now c) := by
  cases c
  case llen x =>
    simp only [State.resume]
    split <;> exact ⟨h.spawn hc, .of_eq rfl⟩
  case lpop x =>
    have ht : Forall P (s.store.list ok).tail := fun x hx => h.list ok x (List.mem_of_mem_tail hx)
    refine ⟨((h.evict cfg _).setList ok ht).spawn hc, .of_eq ?_⟩
    simp only [State.resume, State.spawn, State.evict]
    split <;> rfl
  case rpush x dropped => exact ⟨(h.setList ok ((h.list ok).append hc)).spawn hc, .of_eq rfl⟩
  case expire x dropped =>
    have he := h.expire ok (now + cfg.messageTtl)
    exact ⟨⟨he.redis, he.fallback, he.memory, he.calls⟩, .of_eq rfl⟩
  case lrange caller =>
    simp only [State.resume]
    split
    case h_1 =>
      refine ⟨⟨h.redis, h.fallback, h.memory, h.calls⟩, _, rfl, fun r hr x hx => ?_⟩
      cases List.mem_singleton.mp hr
      cases hx
    case h_2 => exact ⟨h.spawn (h.list ok), .of_eq rfl⟩
  case delete caller raw =>
    have hs := h.setList ok .nil
    exact ⟨⟨hs.redis, hs.fallback, hs.memory, hs.calls⟩, drains_deliver caller hc⟩

theorem enqueue (h : Holds P s) {message : Value} (hm : P message) (priority now : Int)
    (expiresAt : Option Int) :
    Holds P (s.enqueue cfg priority message now expiresAt) ∧
      Drains P s (s.enqueue cfg priority message now expiresAt) := by
  let x : Item := ⟨s.next, priority, message, now, expiresAt⟩
  have hx : Forall P [x] := fun y hy => List.mem_singleton.mp hy ▸ hm
  simp only [State.enqueue]
  split
  case isTrue => exact ⟨Holds.spawn ⟨h.redis, h.fallback, h.memory, h.calls⟩ hx, .of_eq rfl⟩
  split
  case isTrue => exact ⟨⟨h.redis, h.fallback, h.memory, h.calls⟩, .of_eq rfl⟩
  have hk : Forall P (if s.store.memory.length ≥ cfg.maxPerDevice then s.store.memory.tail
      else s.store.memory) := by
    split
    case isTrue => exact fun y hy => h.memory y (List.mem_of_mem_tail hy)
    case isFalse => exact h.memory
  have hs : Holds P { s with next := s.next + 1 } := ⟨h.redis, h.fallback, h.memory, h.calls⟩
  have he := hs.evict cfg s.store.memory
  exact ⟨⟨h.redis, h.fallback, hk.append hx, he.calls⟩, .of_eq (drained_evict ..)⟩

theorem drain (h : Holds P s) (caller : Nat) (now : Int) :
    Holds P (s.drain caller now) ∧ Drains P s (s.drain caller now) := by
  unfold State.drain
  split
  case isTrue => exact ⟨h.spawn .nil, .of_eq rfl⟩
  case isFalse => exact ⟨⟨h.redis, h.fallback, .nil, h.calls⟩, drains_deliver caller h.memory⟩

theorem step {a : Action} (h : Holds P s)
    (ha : ∀ priority message now, a = .enqueue priority message now → P message)
    (hs : step cfg s a = some s') : Holds P s' ∧ Drains P s s' := by
  cases a
  case enqueue priority message now =>
    obtain ⟨expiresAt, _, rfl⟩ := Option.map_eq_some_iff.mp hs
    exact h.enqueue (ha _ _ _ rfl) priority now expiresAt
  case drain caller now =>
    cases hs
    exact h.drain caller now
  case resume i ok now =>
    obtain ⟨c, hc, rfl⟩ := Option.map_eq_some_iff.mp hs
    have h' : Holds P { s with calls := s.calls.eraseIdx i } :=
      ⟨h.redis, h.fallback, h.memory, fun d hd => h.calls d (List.mem_of_mem_eraseIdx hd)⟩
    exact h'.resume (h.calls c (List.mem_of_getElem? hc)) ok now
  case lapse now =>
    obtain ⟨_, hs⟩ := Option.ite_none_right_eq_some.mp hs
    cases hs
    exact ⟨⟨.nil, h.fallback, h.memory, h.calls⟩, .of_eq rfl⟩
  case disconnect =>
    cases hs
    exact ⟨⟨h.redis, h.fallback, h.memory, h.calls⟩, .of_eq rfl⟩

end Holds

end OfflineQueue

namespace Connect

open OfflineQueue (Config Item Forall Drains)

def Phase.items : Phase → List Item
  | .sending xs => xs
  | .superseding | .greeting | .draining | .receiving | .ended => []

def State.payloads (s : State) : List Value :=
  s.queue.payloads ++ (s.sessions.flatMap Phase.items).map Item.message

def State.Takes (s : State) (r : CommandDispatchRequest) (ok : Bool) : Prop :=
  ¬(r.method ∉ runtimeSupportedMethods ∨ s.isBlocked r.method) ∧ (s.current = none ∨ ok)

instance (s : State) (r : CommandDispatchRequest) (ok : Bool) : Decidable (s.Takes r ok) :=
  inferInstanceAs (Decidable (_ ∧ _))

structure Holds (P : Value → Prop) (s : State) : Prop where
  queue : OfflineQueue.Holds P s.queue
  sessions : ∀ p ∈ s.sessions, Forall P p.items

variable {P : Value → Prop} {cfg : Config} {s s' : State}

theorem holds_iff : Holds P s ↔ ∀ p ∈ s.payloads, P p := by
  simp only [State.payloads, List.forall_mem_append, List.forall_mem_map, List.mem_flatMap,
    ← OfflineQueue.holds_iff]
  constructor
  · exact fun h => ⟨h.queue, fun x ⟨p, hp, hx⟩ => h.sessions p hp x hx⟩
  · exact fun ⟨hq, hs⟩ => ⟨hq, fun p hp x hx => hs x ⟨p, hp, hx⟩⟩

def Sends (P : Value → Prop) (s s' : State) : Prop :=
  ∃ ds, s'.sent = s.sent ++ ds ∧ ∀ d ∈ ds, P d.payload

theorem Sends.of_eq (h : s'.sent = s.sent) : Sends P s s' :=
  ⟨[], by simpa using h, by simp⟩

theorem forall_foldl_set {rs : List (Nat × List Item)} {ps : List Phase}
    (hr : ∀ r ∈ rs, Forall P r.2) (hp : ∀ p ∈ ps, Forall P p.items) :
    ∀ p ∈ rs.foldl (fun ps r => ps.set r.1 (.sending r.2)) ps, Forall P p.items := by
  induction rs generalizing ps
  case nil => exact hp
  case cons r rs hi =>
    refine hi (fun r' hr' => hr r' (List.mem_cons_of_mem _ hr')) fun p hm => ?_
    cases List.mem_or_eq_of_mem_set hm
    case inl hm => exact hp p hm
    case inr hm => exact hm ▸ hr r List.mem_cons_self

namespace Holds

theorem enter (h : Holds P s) (sid : Nat) {p : Phase} (hp : Forall P p.items) :
    Holds P (s.enter sid p) where
  queue := h.queue
  sessions q hq := by
    cases List.mem_or_eq_of_mem_set hq
    case inl hq => exact h.sessions q hq
    case inr hq => exact hq ▸ hp

theorem settle (h : Holds P s) {q : OfflineQueue.State} (hq : OfflineQueue.Holds P q)
    (hd : Drains P s.queue q) : Holds P (s.settle q) := by
  obtain ⟨rs, he, hr⟩ := hd
  refine ⟨hq, ?_⟩
  simp only [State.settle, he, List.drop_left]
  exact forall_foldl_set hr h.sessions

theorem queueStep (h : Holds P s) (cfg : Config) {a : OfflineQueue.Action}
    (ha : ∀ priority message now, a = .enqueue priority message now → P message)
    (hs : (OfflineQueue.step cfg s.queue a).map s.settle = some s') :
    Holds P s' ∧ Sends P s s' := by
  obtain ⟨q, hq, rfl⟩ := Option.map_eq_some_iff.mp hs
  obtain ⟨hq, hd⟩ := h.queue.step ha hq
  exact ⟨h.settle hq hd, .of_eq rfl⟩

theorem leave (h : Holds P s) (sid : Nat) : Holds P (s.leave sid) :=
  have he := h.enter sid (p := .ended) .nil
  ⟨he.queue, he.sessions⟩

theorem notifyOnline (h : Holds P s) (sid : Nat) : Holds P (s.notifyOnline sid) :=
  have he := h.enter sid (p := .greeting) .nil
  ⟨he.queue, he.sessions⟩

theorem register (h : Holds P s) : Holds P s.register := by
  have hr : Holds P { s with
      sessions := s.sessions ++ [.superseding], current := some s.sessions.length } := by
    refine ⟨h.queue, fun p hp => ?_⟩
    cases List.mem_append.mp hp
    case inl hp => exact h.sessions p hp
    case inr hp => exact List.mem_singleton.mp hp ▸ .nil
  unfold State.register
  split
  case isTrue => exact hr.notifyOnline _
  case isFalse => exact hr

theorem deliver (h : Holds P s) {sid : Nat} {ok : Bool} (hs : s.deliver sid ok = some s') :
    Holds P s' ∧ Sends P s s' := by
  unfold State.deliver at hs
  split at hs
  case h_1 =>
    cases hs
    exact ⟨h.enter sid .nil, .of_eq rfl⟩
  case h_2 x xs hp =>
    have hx : Forall P (x :: xs) := h.sessions _ (List.mem_of_getElem? hp)
    split at hs <;> cases hs
    case isTrue =>
      have he := h.enter sid (p := .sending xs) fun y hy => hx y (List.mem_cons_of_mem x hy)
      refine ⟨⟨he.queue, he.sessions⟩, _, rfl, fun d hd => ?_⟩
      cases List.mem_singleton.mp hd
      exact hx x List.mem_cons_self
    case isFalse => exact ⟨h.leave sid, .of_eq rfl⟩
  case h_3 => cases hs

theorem dispatch (h : Holds P s) {r : CommandDispatchRequest} {ok : Bool} {now : Int}
    (hr : s.Takes r ok → P r.modelDump) (hs : s.dispatchCommand cfg r ok now = some s') :
    Holds P s' ∧ Sends P s s' := by
  unfold State.dispatchCommand at hs
  split at hs
  case isTrue =>
    cases hs
    exact ⟨h, .of_eq rfl⟩
  case isFalse ht =>
    split at hs
    case h_1 hc =>
      obtain ⟨q, hq, rfl⟩ := Option.map_eq_some_iff.mp hs
      have hp := hr ⟨ht, .inl hc⟩
      obtain ⟨hq, _⟩ := h.queue.step (by simpa using hp) hq
      exact ⟨⟨hq, h.sessions⟩, .of_eq rfl⟩
    case h_2 sid hc =>
      split at hs <;> cases hs
      case isTrue hk =>
        refine ⟨⟨h.queue, h.sessions⟩, _, rfl, fun d hd => ?_⟩
        cases List.mem_singleton.mp hd
        exact hr ⟨ht, .inr hk⟩
      case isFalse => exact ⟨h, .of_eq rfl⟩

theorem step {a : Action} (h : Holds P s)
    (ha : ∀ r ok now, a = .dispatch r ok now → s.Takes r ok → P r.modelDump)
    (hs : step cfg s a = some s') : Holds P s' ∧ Sends P s s' := by
  cases a
  case dispatch r ok now => exact h.dispatch (ha r ok now rfl) hs
  case connect =>
    cases hs
    exact ⟨h.register, .of_eq (by unfold State.register; split <;> rfl)⟩
  case superseded sid =>
    simp only [Connect.step] at hs
    split at hs <;> cases hs
    exact ⟨h.notifyOnline sid, .of_eq rfl⟩
  case greeted sid now =>
    simp only [Connect.step] at hs
    split at hs <;> cases hs
    obtain ⟨hq, hd⟩ := h.queue.drain sid now
    exact ⟨(h.enter sid (p := .draining) (.nil)).settle hq hd, .of_eq rfl⟩
  case deliver sid ok => exact h.deliver hs
  case close sid =>
    simp only [Connect.step] at hs
    split at hs <;> cases hs
    all_goals exact ⟨h.leave sid, .of_eq rfl⟩
  case setQuarantine q =>
    cases hs
    exact ⟨⟨h.queue, h.sessions⟩, .of_eq rfl⟩
  case resume i ok now | lapse now => exact h.queueStep cfg (by simp) hs
  case disconnect => exact h.queueStep cfg (a := .disconnect) (by simp) hs

end Holds

end Connect

end Gateway
