import Quoodle.Gateway.OfflineQueue
import Quoodle.Gateway.Sessions

-- What the gateway does for one device: the sessions of its websocket, the commands that are
-- dispatched to it, and the webhooks about its presence.
namespace Gateway.Connect

open OfflineQueue (Config Item Call Accounted)
open OfflineQueue (Orderly Store count_eq_zero_iff defaultConfig sortByPriority)

inductive Phase where
  -- The websocket of the previous session is being closed.
  | superseding
  | greeting
  | draining
  | sending (queued : List Item)
  | receiving
  | ended

inductive Webhook where
  | online (sessionId : Nat)
  | activated (sessionId : Nat)
  | offline (sessionId : Nat)
  deriving DecidableEq

-- A command that was written to the websocket of a session, with the number under which it was
-- queued before.
structure Delivery where
  sessionId : Nat
  payload : Value
  queuedAs : Option Nat

structure State where
  queue : OfflineQueue.State
  quarantined : Bool
  -- The handlers of the sessions. A session is named by its position.
  sessions : List Phase
  current : Option Nat
  sent : List Delivery
  webhooks : List Webhook

inductive Action where
  | dispatch (r : CommandDispatchRequest) (ok : Bool) (now : Int)
  | connect
  | superseded (sessionId : Nat)
  | greeted (sessionId : Nat) (now : Int)
  | deliver (sessionId : Nat) (ok : Bool)
  -- The greetings of a session cannot be sent, or its device has disconnected.
  | close (sessionId : Nat)
  | setQuarantine (quarantined : Bool)
  | resume (i : Nat) (ok : Bool) (now : Int)
  | lapse (now : Int)
  | disconnect

namespace State

def isBlocked (s : State) (method : String) : Bool :=
  s.quarantined && !quarantineAllowlist.contains method

-- The lock of the connection manager is never held at an `await`, so that nothing happens between
-- the lookup of the session and the start of `enqueue`.
def dispatchCommand (cfg : Config) (s : State) (r : CommandDispatchRequest) (ok : Bool)
    (now : Int) : Option State :=
  if r.method ∉ runtimeSupportedMethods ∨ s.isBlocked r.method then some s
  else
    match s.current with
    | none =>
      (OfflineQueue.step cfg s.queue (.enqueue 0 r.modelDump now)).map ({ s with queue := · })
    | some sid => some (if ok then { s with sent := s.sent ++ [⟨sid, r.modelDump, none⟩] } else s)

def enter (s : State) (sid : Nat) (p : Phase) : State :=
  { s with sessions := s.sessions.set sid p }

def notifyOnline (s : State) (sid : Nat) : State :=
  { s.enter sid .greeting with webhooks := s.webhooks ++ [.online sid, .activated sid] }

-- If there is no previous session to close, the handler goes on at once.
def register (s : State) : State :=
  let sid := s.sessions.length
  let s' := { s with sessions := s.sessions ++ [.superseding], current := some sid }
  if s.current.isNone then s'.notifyOnline sid else s'

-- The connection manager ignores the end of a session that it does not hold. The webhook is sent
-- nevertheless.
def leave (s : State) (sid : Nat) : State :=
  { s.enter sid .ended with
    current := if s.current = some sid then none else s.current
    webhooks := s.webhooks ++ [.offline sid] }

-- The handlers whose call of `drain` has returned go on.
def settle (s : State) (q : OfflineQueue.State) : State :=
  { s with
    queue := q
    sessions := (q.drained.drop s.queue.drained.length).foldl
      (fun ps r => ps.set r.1 (.sending r.2)) s.sessions }

def deliver (s : State) (sid : Nat) (ok : Bool) : Option State :=
  match s.sessions[sid]? with
  | some (.sending []) => some (s.enter sid .receiving)
  | some (.sending (x :: xs)) =>
    if ok then some { s.enter sid (.sending xs) with sent := s.sent ++ [⟨sid, x.message, x.id⟩] }
    else some (s.leave sid)
  | _ => none

end State

def step (cfg : Config) (s : State) : Action → Option State
  | .dispatch r ok now => s.dispatchCommand cfg r ok now
  | .connect => some s.register
  | .superseded sid =>
    match s.sessions[sid]? with
    | some .superseding => some (s.notifyOnline sid)
    | _ => none
  | .greeted sid now =>
    match s.sessions[sid]? with
    | some .greeting => some ((s.enter sid .draining).settle (s.queue.drain sid now))
    | _ => none
  | .deliver sid ok => s.deliver sid ok
  | .close sid =>
    match s.sessions[sid]? with
    | some .greeting | some .receiving => some (s.leave sid)
    | _ => none
  | .setQuarantine q => some { s with quarantined := q }
  | .resume i ok now => (OfflineQueue.step cfg s.queue (.resume i ok now)).map s.settle
  | .lapse now => (OfflineQueue.step cfg s.queue (.lapse now)).map s.settle
  | .disconnect => (OfflineQueue.step cfg s.queue .disconnect).map s.settle

structure Initial (s : State) : Prop where
  queue : OfflineQueue.Initial s.queue
  sessions : s.sessions = []
  current : s.current = none
  sent : s.sent = []
  webhooks : s.webhooks = []

def Phase.IsDraining : Phase → Prop
  | .draining | .sending _ => True
  | .superseding | .greeting | .receiving | .ended => False

def Phase.HasDrained : Phase → Prop
  | .sending _ | .receiving => True
  | .superseding | .greeting | .draining | .ended => False

def caller : Call → Option Nat
  | .lrange sid | .delete sid _ => some sid
  | .llen _ | .lpop _ | .rpush _ _ | .expire _ _ => none

-- A session starts to drain the queue only while no other one does so or sends what it has drained,
-- and reads it only while no message is going to be put into it. What was drained can be sent.
def Undisturbed (cfg : Config) (s : State) : Action → Prop
  | .dispatch _ _ _ | .connect | .superseded _ | .close _ | .setQuarantine _ => True
  | .greeted sid _ => ∀ t < s.sessions.length, t ≠ sid → ∀ p ∈ s.sessions[t]?, ¬p.IsDraining
  | .deliver _ ok => ok
  | .resume i ok now =>
    Orderly cfg s.queue (.resume i ok now) ∧
      ∀ c ∈ s.queue.calls[i]?, ∀ sid, c = .lrange sid → ok ∧ ∀ d ∈ s.queue.calls, d.waiting = none
  | .lapse now => Orderly cfg s.queue (.lapse now)
  | .disconnect => Orderly cfg s.queue .disconnect

-- Every message that was drained is sent by the session that drained it, and the queue has been
-- empty since the current session drained it.
structure Settled (cfg : Config) (s : State) : Prop where
  accounted : Accounted cfg s.queue
  single : ∀ {t u : Nat} {p q : Phase}, s.sessions[t]? = some p → s.sessions[u]? = some q →
    p.IsDraining → q.IsDraining → t = u
  callers : (s.queue.calls.filterMap caller).length ≤ 1
  draining : ∀ sid ∈ s.queue.calls.filterMap caller, s.sessions[sid]? = some .draining
  delivered : ∀ r ∈ s.queue.drained, ∀ x ∈ r.2, some x.id ∈ s.sent.map Delivery.queuedAs ∨
    ∃ ys, s.sessions[r.1]? = some (.sending ys) ∧ x ∈ ys
  deleting : ∀ {sid : Nat} {raw : List Item}, .delete sid raw ∈ s.queue.calls → s.current = some sid →
    ∀ c ∈ s.queue.calls, c.waiting = none
  cleared : ∀ {sid : Nat} {p : Phase}, s.current = some sid → s.sessions[sid]? = some p → p.HasDrained →
    s.queue.store.queue = [] ∧ ∀ c ∈ s.queue.calls, c.waiting = none
  held : ∀ {sid t : Nat} {ys : List Item}, s.current = some sid → s.sessions[sid]? = some .receiving →
    s.sessions[t]? = some (.sending ys) → ys = []

variable {cfg : Config} {s s' : State}

theorem getElem?_set_cases {α : Type} {xs : List α} {i j : Nat} {a b : α}
    (h : (xs.set i a)[j]? = some b) : j = i ∧ b = a ∨ j ≠ i ∧ xs[j]? = some b := by
  by_cases hj : i = j
  case pos =>
    subst hj
    rw [List.getElem?_set_self'] at h
    obtain ⟨_, _, rfl⟩ := Option.map_eq_some_iff.mp h
    exact .inl ⟨rfl, rfl⟩
  case neg => exact .inr ⟨Ne.symm hj, List.getElem?_set_ne hj ▸ h⟩

theorem getElem?_set_of_some {α : Type} {xs : List α} {i : Nat} {a b : α} (h : xs[i]? = some b) :
    (xs.set i a)[i]? = some a := by
  rw [List.getElem?_set_self', h]
  rfl

section Settle

variable {q : OfflineQueue.State}

theorem settle_of_drained_eq (h : q.drained = s.queue.drained) :
    s.settle q = { s with queue := q } := by
  simp [State.settle, h]

theorem settle_of_drained_append {sid : Nat} {xs : List Item}
    (h : q.drained = s.queue.drained ++ [(sid, xs)]) :
    s.settle q = { s.enter sid (.sending xs) with queue := q } := by
  simp [State.settle, State.enter, h]

end Settle

theorem resume_of_waiting (cfg : Config) (q : OfflineQueue.State) {c : Call} {x : Item}
    (hx : c.waiting = some x) (ok : Bool) (now : Int) :
    (q.resume cfg ok now c).drained = q.drained ∧
      ∃ d, caller d = none ∧ (q.resume cfg ok now c).calls = q.calls ++ [d] := by
  cases c <;> cases hx
  case llen =>
    simp only [OfflineQueue.State.resume]
    split <;> exact ⟨rfl, _, rfl, rfl⟩
  case lpop =>
    simp only [OfflineQueue.State.resume, OfflineQueue.State.spawn, OfflineQueue.calls_evict,
      OfflineQueue.drained_evict]
    exact ⟨trivial, _, rfl, rfl⟩
  case rpush => exact ⟨rfl, _, rfl, rfl⟩

theorem enqueue_calls (cfg : Config) (q : OfflineQueue.State) (priority : Int) (message : Value)
    (now : Int) (e : Option Int) :
    (q.enqueue cfg priority message now e).drained = q.drained ∧
      ∃ ds, (∀ d ∈ ds, caller d = none) ∧
        (q.enqueue cfg priority message now e).calls = q.calls ++ ds := by
  simp only [OfflineQueue.State.enqueue]
  split
  case isTrue => exact ⟨rfl, [_], by simp [caller], rfl⟩
  split
  case isTrue => exact ⟨rfl, [], by simp, by simp⟩
  case isFalse => exact ⟨by simp [OfflineQueue.State.remember], [], by simp, by
    simp [OfflineQueue.State.remember]⟩

namespace Settled

variable {q : OfflineQueue.State} {p : Phase} {ok : Bool} {now : Int}

-- What does not end a drain. Messages are put into the queue only if there is no session, or if they
-- were on their way before.
theorem of_queue (h : Settled cfg s) (ha : Accounted cfg q) (hd : q.drained = s.queue.drained)
    (hc : (q.calls.filterMap caller).Perm (s.queue.calls.filterMap caller))
    (hr : ∀ {sid : Nat} {raw : List Item}, .delete sid raw ∈ q.calls →
      .delete sid raw ∈ s.queue.calls ∨ ∀ c ∈ s.queue.calls, c.waiting = none)
    (hw : s.current ≠ none → (∀ c ∈ s.queue.calls, c.waiting = none) →
      (∀ c ∈ q.calls, c.waiting = none) ∧ (s.queue.store.queue = [] → q.store.queue = [])) :
    Settled cfg (s.settle q) := by
  have hn {sid : Nat} (hs : s.current = some sid) : s.current ≠ none :=
    Option.ne_none_iff_exists'.mpr ⟨sid, hs⟩
  rw [settle_of_drained_eq hd]
  refine ⟨ha, h.single, hc.length_eq.trans_le h.callers,
    fun sid hs => h.draining sid (hc.mem_iff.mp hs), fun r hr => h.delivered r (hd ▸ hr),
    fun hs hsid => ?_, fun hs hp hd => ?_, h.held⟩
  · obtain hs | hs := hr hs
    · exact (hw (hn hsid) (h.deleting hs hsid)).left
    · exact (hw (hn hsid) hs).left
  · obtain ⟨he, hc⟩ := h.cleared hs hp hd
    exact ⟨(hw (hn hs) hc).right he, (hw (hn hs) hc).left⟩

theorem enter (h : Settled cfg s) {sid : Nat} (p' : Phase)
    (hs : s.sessions[sid]? = some p) (hn : p ≠ .draining)
    (hp : p'.HasDrained → p.HasDrained)
    (hi : p'.IsDraining ∨ p' = .receiving → ∀ t ≠ sid, ∀ q ∈ s.sessions[t]?, ¬q.IsDraining)
    {sent : List Delivery} (hm : s.sent.map Delivery.queuedAs ⊆ sent.map Delivery.queuedAs)
    (hx : ∀ xs, p = .sending xs → ∀ x ∈ xs, some x.id ∈ sent.map Delivery.queuedAs ∨
      ∃ ys, p' = .sending ys ∧ x ∈ ys)
    (hy : ∀ ys, p' = .sending ys → ∃ xs, p = .sending xs ∧ ys ⊆ xs) {current : Option Nat}
    (hc : ∀ t, current = some t → s.current = some t) (ws : List Webhook) :
    Settled cfg { s.enter sid p' with current := current, sent := sent, webhooks := ws } where
  accounted := h.accounted
  single {t u q r} ht hu hq hr := by
    obtain ⟨ht₁, hq₁⟩ | ⟨ht₁, ht₂⟩ := getElem?_set_cases ht <;>
    obtain ⟨hu₁, hr₁⟩ | ⟨hu₁, hu₂⟩ := getElem?_set_cases hu
    · exact ht₁.trans hu₁.symm
    · exact absurd hr (hi (.inl (hq₁ ▸ hq)) u hu₁ r hu₂)
    · exact absurd hq (hi (.inl (hr₁ ▸ hr)) t ht₁ q ht₂)
    · exact h.single ht₂ hu₂ hq hr
  callers := h.callers
  draining t ht := by
    have ht := h.draining t ht
    have hne : sid ≠ t := fun he => by
      rw [he, ht] at hs
      exact hn (Option.some.inj hs).symm
    exact (List.getElem?_set_ne hne).trans ht
  delivered r hr x hr' := by
    obtain hd | ⟨ys, hs', hy'⟩ := h.delivered r hr x hr'
    · exact .inl (hm hd)
    by_cases he : r.1 = sid
    case pos =>
      rw [he, hs] at hs'
      obtain hd | ⟨zs, hz, hx⟩ := hx ys (Option.some.inj hs') x hy'
      · exact .inl hd
      · refine .inr ⟨zs, ?_, hx⟩
        rw [he, ← hz]
        exact getElem?_set_of_some hs
    case neg => exact .inr ⟨ys, (List.getElem?_set_ne (Ne.symm he)).trans hs', hy'⟩
  deleting ht hc' := h.deleting ht (hc _ hc')
  cleared ht hq hd := by
    obtain ⟨rfl, rfl⟩ | ⟨_, hq⟩ := getElem?_set_cases hq
    · exact h.cleared (hc _ ht) hs (hp hd)
    · exact h.cleared (hc _ ht) hq hd
  held {t u ys} ht hq hu := by
    obtain ⟨ht₁, hr⟩ | ⟨_, hq⟩ := getElem?_set_cases hq <;>
    obtain ⟨hu₁, hz⟩ | ⟨hu₁, hu⟩ := getElem?_set_cases hu
    · simp [← hr] at hz
    · exact absurd trivial (hi (.inr hr.symm) u hu₁ _ hu)
    · obtain ⟨xs, hxs, hsub⟩ := hy ys hz.symm
      rw [hxs] at hs
      exact List.subset_nil.mp (h.held (hc _ ht) hq hs ▸ hsub)
    · exact h.held (hc _ ht) hq hu

theorem returns (h : Settled cfg s) (ha : Accounted cfg q) {sid : Nat}
    {xs : List Item} (hs : s.sessions[sid]? = some .draining)
    (hd : q.drained = s.queue.drained ++ [(sid, xs)]) (hc : q.calls.filterMap caller = [])
    (hq : ∀ c ∈ q.calls, c ∈ s.queue.calls) (he : q.store.queue = [])
    (hw : s.current = some sid → ∀ c ∈ q.calls, c.waiting = none)
    (hx : s.queue.store.queue = [] → xs = []) :
    Settled cfg (s.settle q) := by
  rw [settle_of_drained_append hd]
  refine ⟨ha, fun {t u p r} ht hu hp hr => ?_, by simp [hc], by simp [hc], fun r hr x hx => ?_,
    fun {t raw} ht _ => ?_, fun {t p} ht hp hd' => ?_, fun {t u ys} ht hp hu => ?_⟩
  · -- A session that sends was draining before.
    have hb {t : Nat} {p : Phase} (ht : (s.sessions.set sid (.sending xs))[t]? = some p)
        (hp : p.IsDraining) : ∃ p', s.sessions[t]? = some p' ∧ p'.IsDraining := by
      obtain ⟨rfl, _⟩ | ⟨_, ht⟩ := getElem?_set_cases ht
      · exact ⟨_, hs, trivial⟩
      · exact ⟨p, ht, hp⟩
    obtain ⟨_, ht, hp⟩ := hb ht hp
    obtain ⟨_, hu, hr⟩ := hb hu hr
    exact h.single ht hu hp hr
  · cases List.mem_append.mp (hd ▸ hr)
    case inl hr =>
      refine (h.delivered r hr x hx).imp_right fun ⟨ys, hy, hx⟩ => ⟨ys, ?_, hx⟩
      have hne : sid ≠ r.1 := fun he => by simp [he, hy] at hs
      exact (List.getElem?_set_ne hne).trans hy
    case inr hr =>
      obtain rfl := List.mem_singleton.mp hr
      exact .inr ⟨xs, getElem?_set_of_some hs, hx⟩
  · have hm : t ∈ q.calls.filterMap caller := List.mem_filterMap.mpr ⟨_, ht, rfl⟩
    simp [hc] at hm
  · obtain ⟨rfl, _⟩ | ⟨_, hp⟩ := getElem?_set_cases hp
    · exact ⟨he, hw ht⟩
    · exact ⟨he, fun c hc => (h.cleared ht hp hd').right c (hq c hc)⟩
  · obtain ⟨_, he⟩ | ⟨_, hp⟩ := getElem?_set_cases hp
    · cases he
    obtain ⟨_, he⟩ | ⟨_, hu⟩ := getElem?_set_cases hu
    · cases he
      exact hx (h.cleared ht hp trivial).left
    · exact h.held ht hp hu

theorem drain (h : Settled cfg s) {sid : Nat} (hs : s.sessions[sid]? = some .greeting)
    (ho : ∀ t < s.sessions.length, t ≠ sid → ∀ p ∈ s.sessions[t]?, ¬p.IsDraining) (now : Int) :
    Settled cfg ((s.enter sid .draining).settle (s.queue.drain sid now)) := by
  have ho (t : Nat) (ht : t ≠ sid) (p : Phase) (hp : p ∈ s.sessions[t]?) : ¬p.IsDraining :=
    ho t (List.getElem?_eq_some_iff.mp hp).choose ht p hp
  have he : Settled cfg (s.enter sid .draining) :=
    h.enter .draining hs nofun id (fun _ => ho) (List.Subset.refl _) nofun nofun (fun _ => id) s.webhooks
  have hc : s.queue.calls.filterMap caller = [] := by
    refine List.eq_nil_iff_forall_not_mem.mpr fun t ht => ?_
    have ht := h.draining t ht
    have hne : t ≠ sid := fun he => by simp [he, hs] at ht
    exact ho t hne _ ht trivial
  have ha := h.accounted.drainCall sid now
  unfold OfflineQueue.State.drain at ha ⊢
  split
  case isTrue hr =>
    rw [if_pos hr] at ha
    rw [settle_of_drained_eq (s := s.enter sid .draining) (q := s.queue.spawn (.lrange sid)) rfl]
    refine ⟨ha, he.single, ?_, fun t ht => ?_, he.delivered, fun {t raw} ht => ?_,
      fun ht hp hd => ?_, he.held⟩
    · simp [OfflineQueue.State.spawn, hc, caller]
    · obtain rfl : t = sid := by simpa [OfflineQueue.State.spawn, hc, caller] using ht
      exact getElem?_set_of_some hs
    · have ht : .delete t raw ∈ s.queue.calls := by simpa [OfflineQueue.State.spawn] using ht
      have hm : t ∈ s.queue.calls.filterMap caller := List.mem_filterMap.mpr ⟨_, ht, rfl⟩
      simp [hc] at hm
    · refine (he.cleared ht hp hd).imp_right fun hw c hm => ?_
      cases List.mem_append.mp hm
      case inl hm => exact hw c hm
      case inr hm => rw [List.mem_singleton.mp hm]; rfl
  case isFalse hr =>
    rw [if_neg hr] at ha
    have hn := (h.accounted.redis hr).right
    refine he.returns ha (getElem?_set_of_some hs) rfl hc (fun _ => id) ?_ ?_ fun hq => ?_
    · simp [Store.queue, hr]
    · simp [OfflineQueue.State.deliver, hn]
    · have hq : s.queue.store.memory = [] := by
        simpa [Store.queue, State.enter, hr] using hq
      simp [hq, sortByPriority]

theorem others (h : Settled cfg s) {sid : Nat} (hs : s.sessions[sid]? = some p)
    (hp : p.IsDraining) : ∀ t ≠ sid, ∀ q ∈ s.sessions[t]?, ¬q.IsDraining :=
  fun _ ht _ hq hd => ht (h.single hq hs hd hp)

theorem deliver (h : Settled cfg s) {sid : Nat} (hs : s.deliver sid true = some s') :
    Settled cfg s' := by
  unfold State.deliver at hs
  split at hs
  case h_1 hp =>
    cases hs
    exact h.enter .receiving hp nofun (fun _ => trivial) (fun _ => h.others hp trivial) (List.Subset.refl _)
      (by simp) nofun (fun _ => id) s.webhooks
  case h_2 x xs hp =>
    cases hs
    refine h.enter (.sending xs) hp nofun (fun _ => trivial) (fun _ => h.others hp trivial)
      (by simp) ?_ ?_ (fun _ => id) s.webhooks
    · simpa using fun y hy => .inr hy
    · simp
  case h_3 => cases hs

theorem leave (h : Settled cfg s) {sid : Nat} (hs : s.sessions[sid]? = some p)
    (hn : ¬p.IsDraining) : Settled cfg (s.leave sid) := by
  refine h.enter .ended hs ?_ (fun hd => hd.elim) (by simp [Phase.IsDraining]) (List.Subset.refl _)
    ?_ nofun (fun t ht => ?_) _
  · rintro rfl
    exact hn trivial
  · rintro xs rfl
    exact absurd trivial hn
  · exact (Option.ite_none_left_eq_some.mp ht).right

theorem register (h : Settled cfg s) : Settled cfg s.register := by
  have hl {t : Nat} {p q : Phase} (ht : (s.sessions ++ [p])[t]? = some q) :
      t < s.sessions.length ∧ s.sessions[t]? = some q ∨ t = s.sessions.length ∧ p = q := by
    obtain hlt | hge := lt_or_ge t s.sessions.length
    case inl => exact .inl ⟨hlt, by rwa [List.getElem?_append_left hlt] at ht⟩
    case inr =>
      rw [List.getElem?_append_right hge] at ht
      obtain ⟨hz, rfl⟩ := List.getElem?_eq_some_iff.mp ht
      simp only [List.length_singleton] at hz
      exact .inr ⟨by omega, by simp⟩
  have hc : Settled cfg { s with
      sessions := s.sessions ++ [.superseding], current := some s.sessions.length } := by
    have hs {t : Nat} {p : Phase} (ht : s.sessions[t]? = some p) :
        (s.sessions ++ [.superseding])[t]? = some p :=
      (List.getElem?_append_left (List.getElem?_eq_some_iff.mp ht).choose).trans ht
    refine ⟨h.accounted, fun {t u p q} ht hu hp hq => ?_, h.callers,
      fun t ht => hs (h.draining t ht),
      fun r hr x hx => (h.delivered r hr x hx).imp_right fun ⟨ys, hy, hx⟩ => ⟨ys, hs hy, hx⟩,
      fun {t raw} ht hc => ?_, fun {t p} ht hp hd => ?_, fun {t u ys} ht hp => ?_⟩
    · obtain ⟨_, ht⟩ | ⟨_, rfl⟩ := hl ht
      case inr => exact hp.elim
      obtain ⟨_, hu⟩ | ⟨_, rfl⟩ := hl hu
      case inr => exact hq.elim
      exact h.single ht hu hp hq
    · have ht := h.draining t (List.mem_filterMap.mpr ⟨_, ht, rfl⟩)
      have hlt := (List.getElem?_eq_some_iff.mp ht).choose
      exact absurd (Option.some.inj hc) (Nat.ne_of_gt hlt)
    all_goals
      cases ht
      obtain ⟨hlt, _⟩ | ⟨_, hp⟩ := hl hp
      case inl => exact absurd hlt (lt_irrefl _)
    · subst hp
      exact hd.elim
    · cases hp
  unfold State.register
  simp only
  split
  case isTrue =>
    exact hc.enter .greeting (p := .superseding) (by simp) nofun id (by simp [Phase.IsDraining])
      (List.Subset.refl _) nofun nofun (fun _ => id) _
  case isFalse => exact hc

theorem resume_waiting (h : Settled cfg s) {c : Call} {cs : List Call} {x : Item}
    (hp : s.queue.calls.Perm (c :: cs)) (hx : c.waiting = some x)
    (ha : Accounted cfg ({ s.queue with calls := cs }.resume cfg ok now c)) :
    Settled cfg (s.settle ({ s.queue with calls := cs }.resume cfg ok now c)) := by
  have ⟨hd, d, hn, hcs⟩ := resume_of_waiting cfg { s.queue with calls := cs } hx ok now
  have hc : caller c = none := by cases c <;> first | rfl | cases hx
  refine h.of_queue ha hd ?_ (fun {sid raw} hr => .inl ?_) fun _ hw => ?_
  · rw [hcs, List.filterMap_append]
    simpa [hn, hc] using (hp.filterMap caller).symm
  · rw [hcs, List.mem_append, List.mem_singleton] at hr
    obtain hr | rfl := hr
    · exact hp.mem_iff.mpr (.tail _ hr)
    · cases hn
  · rw [hw c (hp.mem_iff.mpr (.head _))] at hx
    cases hx

theorem resume (h : Settled cfg s) {c : Call} {cs : List Call} (hp : s.queue.calls.Perm (c :: cs))
    (ha : Accounted cfg ({ s.queue with calls := cs }.resume cfg ok now c))
    (ho : c.Orderly ok cs)
    (hl : ∀ sid, c = .lrange sid → ok ∧ ∀ d ∈ s.queue.calls, d.waiting = none) :
    Settled cfg (s.settle ({ s.queue with calls := cs }.resume cfg ok now c)) := by
  have hm (d : Call) (hd : d ∈ cs) : d ∈ s.queue.calls := hp.mem_iff.mpr (.tail _ hd)
  have hf : c ∈ s.queue.calls := hp.mem_iff.mpr (.head _)
  -- While a session drains the queue, no other one does.
  have hd {sid : Nat} (hc : caller c = some sid) :
      s.sessions[sid]? = some .draining ∧ cs.filterMap caller = [] := by
    have hl := (hp.filterMap caller).length_eq.symm.trans_le h.callers
    rw [List.filterMap_cons_some hc, List.length_cons] at hl
    exact ⟨h.draining sid (List.mem_filterMap.mpr ⟨c, hf, hc⟩),
      List.eq_nil_of_length_eq_zero (by omega)⟩
  have hr : s.queue.store.connected := by
    by_contra hn
    rw [(h.accounted.redis hn).right] at hf
    cases hf
  cases c
  case llen x | lpop x | rpush x dropped => exact h.resume_waiting hp rfl ha
  case expire x dropped =>
    refine h.of_queue ha rfl (hp.filterMap caller).symm (fun hr => .inl (hm _ hr)) fun _ hw =>
      ⟨fun d hd => hw d (hm d hd), ?_⟩
    simp only [OfflineQueue.State.resume, Store.expire]
    split <;> exact id
  case lrange sid =>
    obtain ⟨rfl, hw⟩ := hl sid rfl
    obtain ⟨hs, hc⟩ := hd rfl
    simp only [OfflineQueue.State.resume, Store.list_true hr] at ha ⊢
    split at ha
    case h_1 he =>
      exact h.returns ha hs rfl hc hm (by rwa [Store.queue_of_connected hr])
        (fun _ d hd => hw d (hm d hd)) fun _ => rfl
    case h_2 hne =>
      refine h.of_queue ha rfl ?_ (fun _ => .inr hw) fun _ _ => ⟨fun d hd => ?_, id⟩
      · simpa [OfflineQueue.State.spawn, hc, caller] using (hp.filterMap caller).symm
      · cases List.mem_append.mp hd
        case inl hd => exact hw d (hm d hd)
        case inr hd => rw [List.mem_singleton.mp hd]; rfl
  case delete sid raw =>
    obtain ⟨rfl, _⟩ := ho
    obtain ⟨hs, hc⟩ := hd rfl
    refine h.returns ha hs rfl hc hm ?_ (fun hsid d hd => h.deleting hf hsid d (hm d hd)) fun he => ?_
    · simp only [OfflineQueue.State.resume, Store.setList_true hr,
        Store.queue, hr, if_true]
    · obtain rfl := h.accounted.drain sid raw hf
      rw [Store.queue_of_connected hr] at he
      simp [he, sortByPriority]

theorem dispatch (h : Settled cfg s) {r : CommandDispatchRequest}
    (hs : s.dispatchCommand cfg r ok now = some s') : Settled cfg s' := by
  unfold State.dispatchCommand at hs
  split at hs
  case isTrue => exact Option.some.inj hs ▸ h
  split at hs
  case h_1 hc =>
    obtain ⟨q, hq, rfl⟩ := Option.map_eq_some_iff.mp hs
    have ha := h.accounted.step (a := .enqueue 0 r.modelDump now) trivial hq
    obtain ⟨e, _, rfl⟩ := Option.map_eq_some_iff.mp hq
    have ⟨hd, ds, hn, hcs⟩ := enqueue_calls cfg s.queue 0 r.modelDump now e
    rw [← settle_of_drained_eq hd]
    refine h.of_queue ha hd ?_ (fun {sid raw} hr => .inl ?_) fun hn => absurd hc hn
    · rw [hcs, List.filterMap_append, List.filterMap_eq_nil_iff.mpr hn, List.append_nil]
    · cases List.mem_append.mp (hcs ▸ hr)
      case inl hr => exact hr
      case inr hr => cases hn _ hr
  case h_2 sid _ =>
    cases hs
    split
    case isTrue =>
      refine { h with delivered := fun r hr x hx => (h.delivered r hr x hx).imp_left fun hm => ?_ }
      rw [List.map_append]
      exact List.mem_append_left _ hm
    case isFalse => exact h

theorem step {a : Action} (h : Settled cfg s) (ha : Undisturbed cfg s a)
    (hs : step cfg s a = some s') : Settled cfg s' := by
  cases a <;> simp only [Connect.step] at hs
  case dispatch r ok now => exact h.dispatch hs
  case connect => exact Option.some.inj hs ▸ h.register
  case superseded sid =>
    split at hs <;> cases hs
    case h_1 hp =>
      exact h.enter .greeting hp nofun id (by simp [Phase.IsDraining]) (List.Subset.refl _) nofun nofun
        (fun _ => id) _
  case greeted sid now =>
    split at hs <;> cases hs
    case h_1 hp => exact h.drain hp ha now
  case deliver sid ok =>
    obtain rfl : ok = true := ha
    exact h.deliver hs
  case close sid =>
    split at hs <;> cases hs
    case h_1 hp | h_2 hp => exact h.leave hp id
  case setQuarantine q => exact Option.some.inj hs ▸ { h with }
  case resume i ok now =>
    obtain ⟨q, hq, rfl⟩ := Option.map_eq_some_iff.mp hs
    have hq' := h.accounted.step ha.left hq
    obtain ⟨c, hc, rfl⟩ := Option.map_eq_some_iff.mp hq
    obtain ⟨hi, rfl⟩ := List.getElem?_eq_some_iff.mp hc
    exact h.resume (List.getElem_cons_eraseIdx_perm hi).symm hq' (ha.left _ hc) (ha.right _ hc)
  case lapse now =>
    obtain ⟨q, hq, rfl⟩ := Option.map_eq_some_iff.mp hs
    have hq' := h.accounted.step (a := .lapse now) ha hq
    obtain ⟨_, hq⟩ := Option.ite_none_right_eq_some.mp hq
    cases hq
    refine h.of_queue hq' rfl (.refl _) .inl fun _ hw => ⟨hw, ?_⟩
    intro he
    by_cases hc : s.queue.store.connected
    case pos => exact Store.queue_of_connected hc
    case neg => simpa [OfflineQueue.State.lapse, Store.queue, hc] using he
  case disconnect =>
    obtain ⟨q, hq, rfl⟩ := Option.map_eq_some_iff.mp hs
    have hq' := h.accounted.step (a := .disconnect) ha hq
    cases hq
    refine h.of_queue hq' rfl (.refl _) .inl fun _ hw => ⟨hw, ?_⟩
    simp only [Store.queue]
    split
    case isTrue hc => simp [h.accounted.memory hc]
    case isFalse => exact id

theorem of_initial (h : Initial s) : Settled cfg s := by
  refine ⟨.of_initial h.queue, ?_, ?_, ?_, ?_, ?_, ?_, ?_⟩
  all_goals simp [h.sessions, h.queue.calls, h.queue.drained]

end Settled

-- When the current session has sent what it has drained, the queue is empty, and every command that
-- was queued has been sent or dropped.
theorem queue_eq_nil_of_receiving {as : List Action} (hi : Initial s)
    (h : Transition.Steps (step cfg) (Undisturbed cfg) s as s') {sid : Nat}
    (hc : s'.current = some sid) (hp : s'.sessions[sid]? = some .receiving) :
    s'.queue.store.queue = [] ∧
      ∀ r ∈ s'.queue.enqueued, some r.1 ∈ s'.sent.map Delivery.queuedAs ∨
        r.1 ∈ (s'.queue.evicted ++ s'.queue.expired).map Item.id := by
  have hs := h.invariant Settled.step (.of_initial hi)
  have hq := (hs.cleared hc hp trivial).left
  refine ⟨hq, fun r hr => ?_⟩
  have hf := hs.accounted.returned r hr
  by_contra hn
  obtain ⟨hn, he, hx⟩ : some r.1 ∉ s'.sent.map Delivery.queuedAs ∧
      r.1 ∉ s'.queue.evicted.map Item.id ∧ r.1 ∉ s'.queue.expired.map Item.id := by
    simpa only [List.map_append, List.mem_append, not_or] using hn
  rw [OfflineQueue.State.fates, hq, count_eq_zero_iff.mpr he,
    count_eq_zero_iff.mpr hx] at hf
  have hd : r.1 ∈ (s'.queue.drained.flatMap Prod.snd).map Item.id := by
    by_contra hd
    simp [count_eq_zero_iff.mpr hd] at hf
  obtain ⟨x, hx, hr⟩ := List.mem_map.mp hd
  obtain ⟨d, hd, hx⟩ := List.mem_flatMap.mp hx
  obtain hm | ⟨ys, hy, hx⟩ := hs.delivered d hd x hx
  · exact hn (hr ▸ hm)
  · rw [hs.held hc hp hy] at hx
    cases hx

instance : DecidablePred Phase.IsDraining
  | .draining | .sending _ => isTrue trivial
  | .superseding | .greeting | .receiving | .ended => isFalse id

instance (c : Call) : Decidable (c.waiting = none) :=
  decidable_of_iff (c.waiting.isNone) Option.isNone_iff_eq_none

instance (c : Call) (P : Prop) [Decidable P] : Decidable (∀ sid, c = .lrange sid → P) :=
  match c with
  | .lrange sid => decidable_of_iff P ⟨fun h _ _ => h, fun h => h sid rfl⟩
  | .llen _ | .lpop _ | .rpush _ _ | .expire _ _ | .delete _ _ => isTrue nofun

instance (s : State) : DecidablePred (Undisturbed cfg s)
  | .dispatch _ _ _ | .connect | .superseded _ | .close _ | .setQuarantine _ => isTrue trivial
  | .greeted sid _ =>
    inferInstanceAs <| Decidable <|
      ∀ t < s.sessions.length, t ≠ sid → ∀ p ∈ s.sessions[t]?, ¬p.IsDraining
  | .deliver _ ok => inferInstanceAs (Decidable (ok = true))
  | .resume i ok now =>
    inferInstanceAs <| Decidable <|
      Orderly cfg s.queue (.resume i ok now) ∧
        ∀ c ∈ s.queue.calls[i]?, ∀ sid, c = .lrange sid →
          ok ∧ ∀ d ∈ s.queue.calls, d.waiting = none
  | .lapse now => inferInstanceAs (Decidable (Orderly cfg s.queue (.lapse now)))
  | .disconnect => inferInstanceAs (Decidable (Orderly cfg s.queue .disconnect))

def idle : State :=
  ⟨OfflineQueue.emptyQueue, false, [], none, [], []⟩

theorem initial_idle : Initial idle :=
  ⟨OfflineQueue.initial_emptyQueue, rfl, rfl, rfl, rfl⟩

def lockScreen : CommandDispatchRequest where
  commandId := "c-1"
  deviceId := "dev-1"
  traceId := "t-1"
  seq := 1
  method := "lock_screen"
  params := []
  sensitive := false
  envelope := [("header", .dict [
    ("timestamp", .str "2026-01-01T00:00:00+00:00"), ("ttl_seconds", .int 300)
  ])]
  policy := some []
  compliance := none
  methodNotEmpty := by decide

theorem queue_eq_nil_of_receiving_connected :
    ∃ s, Transition.Steps (step defaultConfig)
        (Undisturbed defaultConfig) idle
        [.dispatch lockScreen true 1767225600, .resume 0 true 1767225600,
          .resume 0 true 1767225600, .resume 0 true 1767225600, .connect, .greeted 0 1767225610,
          .resume 0 true 1767225610, .resume 0 true 1767225610, .deliver 0 true,
          .deliver 0 true] s ∧
      s.sent.map Delivery.queuedAs = [some 0] ∧ s.queue.store.queue = [] := by
  have h : Transition.Steps (step defaultConfig)
      (Undisturbed defaultConfig) idle
      [.dispatch lockScreen true 1767225600, .resume 0 true 1767225600,
        .resume 0 true 1767225600, .resume 0 true 1767225600, .connect, .greeted 0 1767225610,
        .resume 0 true 1767225610, .resume 0 true 1767225610, .deliver 0 true,
        .deliver 0 true] _ := .of_run rfl
  exact ⟨_, h, rfl, (queue_eq_nil_of_receiving initial_idle h rfl rfl).left⟩

-- A command that is dispatched just before the device connects is put into the queue when the
-- session has drained it, and stays there.
theorem queued_behind_session :
    ∃ s, Transition.run (step defaultConfig) idle
        [.dispatch lockScreen true 1767225600, .resume 0 true 1767225600,
          .resume 0 true 1767225600, .resume 0 true 1767225600,
          .dispatch lockScreen true 1767225610, .connect, .greeted 0 1767225610,
          .resume 1 true 1767225610, .resume 1 true 1767225610, .resume 0 true 1767225610,
          .resume 0 true 1767225610, .resume 0 true 1767225610, .deliver 0 true,
          .deliver 0 true] = some s ∧
      s.current = some 0 ∧ s.sessions[0]? = some .receiving ∧
      s.queue.enqueued = [(0, true), (1, true)] ∧ s.queue.evicted = [] ∧ s.queue.expired = [] ∧
      s.sent.map Delivery.queuedAs = [some 0] ∧ s.queue.store.queue.map Item.id = [1] :=
  ⟨_, rfl, rfl, rfl, rfl, rfl, rfl, rfl, rfl⟩

end Gateway.Connect
