import Quoodle.Gateway.ReplayProtection
import Quoodle.Windows.SequenceManager

-- The threads of the agent that write messages to the websocket of one authenticated session.
namespace Windows.Senders

open Gateway.Replay (ReplayConfig ReplayProtector LastAtMost Exact IsAccepted memoryConfig)
open Transition (Steps)

inductive Thread where
  | callback
  | listener
  | loop
  deriving DecidableEq

inductive Phase where
  | idle
  -- The thread is in its critical section and has no message.
  | holding
  -- The message with this number is ready, and the thread is in its critical section.
  | built (seq : Nat)
  -- The message is ready, but `outbound_send_mutex` is still to be locked.
  | waiting (seq : Nat)

namespace Phase

def IsLocked : Phase → Prop
  | holding | built _ => True
  | idle | waiting _ => False

def isWaiting : Phase → Bool
  | waiting _ => true
  | idle | holding | built _ => false

def seq? : Phase → Option Nat
  | built n | waiting n => some n
  | idle | holding => none

end Phase

structure State where
  counter : Nat
  phase : Thread → Phase
  mutex : Option Thread
  -- The numbers of the messages in the order in which they were written.
  written : List Nat

inductive Action where
  | lock (t : Thread)
  -- The number is drawn even if the message cannot be signed.
  | build (t : Thread) (signed : Bool)
  | write (t : Thread) (ok : Bool)
  | unlock (t : Thread)
  -- The listener finds that the websocket is not ready, and queues its event.
  | queue

namespace State

def enter (s : State) (t : Thread) (p : Phase) : State :=
  { s with phase := Function.update s.phase t p }

-- All threads but the listener lock the mutex before they build a message.
def lock (s : State) (t : Thread) : Option State :=
  if s.mutex.isSome then none
  else
    match t, s.phase t with
    | .listener, .waiting n => some { s.enter t (.built n) with mutex := some t }
    | .listener, _ => none
    | t, .idle => some { s.enter t .holding with mutex := some t }
    | _, _ => none

def build (s : State) (t : Thread) (signed : Bool) : Option State :=
  let seq := SequenceManager.next s.counter
  match t, s.phase t with
  | .listener, .idle =>
    some { s.enter t (if signed then .waiting seq else .idle) with counter := seq }
  | .listener, _ => none
  | t, .holding =>
    some { s.enter t (if signed then .built seq else .holding) with counter := seq }
  | _, _ => none

def write (s : State) (t : Thread) (ok : Bool) : Option State :=
  match s.phase t with
  | .built n => some { s.enter t .holding with written := if ok then s.written ++ [n] else s.written }
  | _ => none

def unlock (s : State) (t : Thread) : Option State :=
  match s.phase t with
  | .holding => some { s.enter t .idle with mutex := none }
  | _ => none

def queue (s : State) : Option State :=
  match s.phase .listener with
  | .waiting _ => some (s.enter .listener .idle)
  | _ => none

end State

def step (s : State) : Action → Option State
  | .lock t => s.lock t
  | .build t signed => s.build t signed
  | .write t ok => s.write t ok
  | .unlock t => s.unlock t
  | .queue => s.queue

-- The session is authenticated, and nothing was sent yet.
structure Initial (s : State) : Prop where
  phase : ∀ t, s.phase t = .idle
  mutex : s.mutex = none
  written : s.written = []

-- No other thread draws a number while the listener has one that is not written yet.
def InOrder (cfg : ReplayConfig) (s : State) : Action → Prop
  | .build t _ =>
    s.counter + 1 < 2 ^ 64 ∧ Exact cfg (s.counter + 1) ∧
      (t ≠ .listener → (s.phase .listener).isWaiting = false)
  | .lock _ | .write _ _ | .unlock _ | .queue => True

structure Ordered (cfg : ReplayConfig) (start : Nat) (s : State) : Prop where
  written : (start :: s.written).Pairwise (· < ·)
  le : ∀ m ∈ start :: s.written, m ≤ s.counter
  exact : ∀ m ∈ s.written, Exact cfg m
  mutex : ∀ t, (s.phase t).IsLocked → s.mutex = some t
  waiting : ∀ t n, s.phase t = .waiting n → t = .listener
  pending : ∀ t n, (s.phase t).seq? = some n →
    n ≤ s.counter ∧ Exact cfg n ∧ ∀ m ∈ start :: s.written, m < n
  -- Whatever is about to be written is older than the event that waits for the mutex.
  before : ∀ t m n, s.phase t = .built m → s.phase .listener = .waiting n → m < n

theorem Initial.ordered {s : State} (h : Initial s) (cfg : ReplayConfig) :
    Ordered cfg s.counter s where
  written := by simp [h.written]
  le := by simp [h.written]
  exact := by simp [h.written]
  mutex := by simp [h.phase, Phase.IsLocked]
  waiting := by simp [h.phase]
  pending := by simp [h.phase, Phase.seq?]
  before := by simp [h.phase]

section Step

variable {cfg : ReplayConfig} {start : Nat} {s s' : State} {t : Thread}

theorem phase_enter {p : Phase} {u : Thread} :
    (s.enter t p).phase u = if u = t then p else s.phase u :=
  Function.update_apply ..

namespace Ordered

theorem enter {p : Phase} (h : Ordered cfg start s) (hl : p.IsLocked → s.mutex = some t)
    (hw : ∀ n, p ≠ .waiting n) (hb : ∀ n, p = .built n → s.phase t = .waiting n) :
    Ordered cfg start (s.enter t p) where
  written := h.written
  le := h.le
  exact := h.exact
  mutex u hu := by
    rw [phase_enter] at hu
    split at hu
    case isTrue he => exact he ▸ hl hu
    case isFalse he => exact h.mutex u hu
  waiting u n hu := by
    rw [phase_enter] at hu
    split at hu
    case isTrue => exact absurd hu (hw n)
    case isFalse => exact h.waiting u n hu
  pending u n hu := by
    rw [phase_enter] at hu
    split at hu
    case isFalse => exact h.pending u n hu
    case isTrue he =>
      cases p <;> cases hu
      case built => exact h.pending t n (by rw [hb n rfl]; rfl)
      case waiting => exact absurd rfl (hw n)
  before u m n hu hn := by
    rw [phase_enter] at hu hn
    split at hn
    case isTrue => exact absurd hn (hw n)
    case isFalse he =>
      split at hu
      case isFalse => exact h.before u m n hu hn
      exact absurd (h.waiting t m (hb m hu)) (Ne.symm he)

theorem lock (h : Ordered cfg start s) (hs : s.lock t = some s') : Ordered cfg start s' := by
  unfold State.lock at hs
  split at hs
  case isTrue => cases hs
  case isFalse hm =>
    have hn : s.mutex = none := by simpa using hm
    have hl : Ordered cfg start { s with mutex := some t } :=
      { h with mutex := fun u hu => absurd (h.mutex u hu) (by simp [hn]) }
    split at hs
    case h_1 n hp =>
      cases hs
      exact hl.enter (fun _ => rfl) (by simp) fun m hm => by
        cases hm
        exact hp
    case h_2 => cases hs
    case h_3 =>
      cases hs
      exact hl.enter (fun _ => rfl) (by simp) (by simp)
    case h_4 => cases hs

theorem draw (h : Ordered cfg start s) : Ordered cfg start { s with counter := s.counter + 1 } :=
  { h with
    le := fun m hm => (h.le m hm).trans (Nat.le_succ _)
    pending := fun t n hn =>
      have ⟨hle, he⟩ := h.pending t n hn
      ⟨hle.trans (Nat.le_succ _), he⟩ }

theorem enter_new {p : Phase} (h : Ordered cfg start s) (he : Exact cfg (s.counter + 1))
    (hp : p = .built (s.counter + 1) ∧ s.mutex = some t ∧ (s.phase .listener).isWaiting = false ∨
      p = .waiting (s.counter + 1) ∧ t = .listener) :
    Ordered cfg start { s.enter t p with counter := s.counter + 1 } where
  written := h.written
  le := h.draw.le
  exact := h.exact
  mutex u hu := by
    simp only [phase_enter] at hu
    split at hu
    case isFalse => exact h.mutex u hu
    case isTrue ht =>
      obtain ⟨rfl, hm, _⟩ | ⟨rfl, _⟩ := hp
      · exact ht ▸ hm
      · cases hu
  waiting u n hu := by
    simp only [phase_enter] at hu
    split at hu
    case isFalse => exact h.waiting u n hu
    case isTrue ht =>
      obtain ⟨rfl, _⟩ | ⟨rfl, hl⟩ := hp
      · cases hu
      · exact ht.trans hl
  pending u n hu := by
    simp only [phase_enter] at hu
    split at hu
    case isFalse => exact h.draw.pending u n hu
    have hn : s.counter + 1 = n := by
      obtain ⟨rfl, _⟩ | ⟨rfl, _⟩ := hp <;> exact Option.some.inj hu
    subst hn
    exact ⟨le_rfl, by exact_mod_cast he, fun m hm => Nat.lt_succ_of_le (h.le m hm)⟩
  before u m n hu hn := by
    simp only [phase_enter] at hu hn
    split at hn
    case isTrue ht =>
      split at hu
      case isTrue =>
        rw [hu] at hn
        cases hn
      have hm := (h.pending u m (by rw [hu]; rfl)).left
      obtain ⟨rfl, _⟩ | ⟨rfl, _⟩ := hp <;> cases hn
      exact Nat.lt_succ_of_le hm
    case isFalse ht =>
      obtain ⟨_, _, hw⟩ | ⟨_, hl⟩ := hp
      · rw [hn] at hw
        cases hw
      · exact absurd hl.symm ht

theorem build {signed : Bool} (h : Ordered cfg start s) (hc : InOrder cfg s (.build t signed))
    (hs : s.build t signed = some s') : Ordered cfg start s' := by
  obtain ⟨hb, he, hw⟩ := hc
  have hn : SequenceManager.next s.counter = s.counter + 1 := Nat.mod_eq_of_lt hb
  simp only [State.build, hn] at hs
  split at hs
  case h_1 hp =>
    cases hs
    cases signed
    case true => exact h.enter_new he (.inr ⟨rfl, rfl⟩)
    case false => exact h.draw.enter False.elim (by simp) (by simp)
  case h_2 => cases hs
  case h_3 u _ _ hl hp =>
    cases hs
    have hm : s.mutex = some u := h.mutex u (by rw [hp]; trivial)
    cases signed
    case true => exact h.enter_new he (.inl ⟨rfl, hm, hw hl⟩)
    case false => exact h.draw.enter (fun _ => hm) (by simp) (by simp)
  case h_4 => cases hs

theorem write {ok : Bool} (h : Ordered cfg start s) (hs : s.write t ok = some s') :
    Ordered cfg start s' := by
  unfold State.write at hs
  split at hs
  case h_2 => cases hs
  case h_1 n hp =>
    cases hs
    have hm : s.mutex = some t := h.mutex t (by rw [hp]; trivial)
    have he : Ordered cfg start (s.enter t .holding) := h.enter (fun _ => hm) (by simp) (by simp)
    have ⟨hle, hx, hlt⟩ := h.pending t n (by rw [hp]; rfl)
    cases ok
    case false => exact he
    case true =>
      refine { he with written := ?written, le := ?le, exact := ?exact, pending := ?pending } <;>
        simp only [↓reduceIte]
      case written =>
        rw [← List.cons_append]
        refine List.pairwise_append.mpr ⟨h.written, List.pairwise_singleton _ _, fun m hm k hk => ?_⟩
        exact List.mem_singleton.mp hk ▸ hlt m hm
      case le =>
        rw [← List.cons_append]
        exact List.forall_mem_append.mpr ⟨h.le, fun m hm => List.mem_singleton.mp hm ▸ hle⟩
      case exact => exact List.forall_mem_append.mpr ⟨h.exact, by simpa using hx⟩
      case pending =>
        intro u k hu
        have ⟨hk, hx', hlt'⟩ := he.pending u k hu
        refine ⟨hk, hx', ?_⟩
        rw [← List.cons_append]
        refine List.forall_mem_append.mpr ⟨hlt', ?_⟩
        suffices hs : n < k by simpa using hs
        -- The number of another thread is that of the listener, which waits for the mutex.
        rw [phase_enter] at hu
        split at hu
        case isTrue => cases hu
        case isFalse hne =>
          cases hu' : s.phase u <;> rw [hu'] at hu <;> cases hu
          case built =>
            have := h.mutex u (by rw [hu']; trivial)
            exact absurd (Option.some.inj (this.symm.trans hm)) hne
          case waiting => exact h.before t n k hp (h.waiting u k hu' ▸ hu')

theorem unlock (h : Ordered cfg start s) (hs : s.unlock t = some s') : Ordered cfg start s' := by
  unfold State.unlock at hs
  split at hs
  case h_2 => cases hs
  case h_1 hp =>
    cases hs
    have hm : s.mutex = some t := h.mutex t (by rw [hp]; trivial)
    have he : Ordered cfg start (s.enter t .idle) := h.enter False.elim (by simp) (by simp)
    refine { he with mutex := fun u hu => ?_ }
    simp only [phase_enter] at hu
    split at hu
    case isTrue => cases hu
    case isFalse hne =>
      exact absurd (Option.some.inj ((h.mutex u hu).symm.trans hm)) hne

theorem queue (h : Ordered cfg start s) (hs : s.queue = some s') : Ordered cfg start s' := by
  unfold State.queue at hs
  split at hs
  case h_2 => cases hs
  case h_1 =>
    cases hs
    exact h.enter False.elim (by simp) (by simp)

theorem step {a : Action} (h : Ordered cfg start s) (hc : InOrder cfg s a)
    (hs : step s a = some s') : Ordered cfg start s' := by
  cases a
  case lock t => exact h.lock hs
  case build t signed => exact h.build hc hs
  case write t ok => exact h.write hs
  case unlock t => exact h.unlock hs
  case queue => exact h.queue hs

end Ordered

end Step

-- The messages of a session are in order unless another thread draws a number between the drawing of
-- the number of an event and its writing.
theorem accepted_of_inOrder {cfg : ReplayConfig} {p : ReplayProtector} {deviceId : String}
    {s s' : State} {as : List Action} (hi : Initial s) (hl : LastAtMost cfg p deviceId s.counter)
    (h : Steps step (InOrder cfg) s as s') :
    s'.written.Pairwise (· < ·) ∧ IsAccepted cfg p deviceId (s'.written.map Nat.cast) := by
  have ho := h.invariant (fun h hc hs => h.step hc hs) (hi.ordered cfg)
  have hn : ((s.counter : Int) :: s'.written.map Nat.cast).Pairwise (· < ·) := by
    rw [← List.map_cons (f := Nat.cast), List.pairwise_map]
    exact ho.written.imp fun h => by exact_mod_cast h
  exact ⟨ho.written.of_cons, hl.isAccepted (by simp) hn (by simpa using ho.exact)⟩

def connected : State :=
  ⟨7, fun _ => .idle, none, []⟩

instance (cfg : ReplayConfig) (n : Int) : Decidable (Exact cfg n) :=
  inferInstanceAs (Decidable (_ → _))

instance (cfg : ReplayConfig) (s : State) : (a : Action) → Decidable (InOrder cfg s a)
  | .build _ _ => inferInstanceAs (Decidable (_ ∧ _ ∧ (_ → _)))
  | .lock _ | .write _ _ | .unlock _ | .queue => inferInstanceAs (Decidable True)

theorem accepted_of_inOrder_heartbeat :
    ∃ as s', Steps step (InOrder memoryConfig) connected as s' ∧ s'.written = [8, 9, 10] ∧
      s'.written.Pairwise (· < ·) ∧ IsAccepted memoryConfig .empty "dev-1" (s'.written.map Nat.cast) := by
  let as : List Action := [
    .lock .loop, .build .loop true, .build .listener true, .write .loop true, .unlock .loop,
    .lock .listener, .write .listener true, .unlock .listener, .lock .loop, .build .loop true,
    .write .loop true]
  have hr : (Transition.run (Transition.restrict step (InOrder memoryConfig)) connected as).any
      (·.written = [8, 9, 10]) := by
    decide
  obtain ⟨s', hs, hw⟩ := Option.any_eq_true _ _ |>.mp hr
  have hst := Steps.of_run hs
  have hi : Initial connected := ⟨fun _ => rfl, rfl, rfl⟩
  exact ⟨as, s', hst, by simpa using hw, accepted_of_inOrder hi (Gateway.Replay.lastAtMost_empty (by decide)) hst⟩

-- The listener draws a number, the loop draws the next one and writes its heartbeat, and then the event
-- is written.
theorem event_overtaken :
    ∃ as s', Transition.run step connected as = some s' ∧ s'.written = [9, 8] ∧
      ¬s'.written.Pairwise (· < ·) ∧ ¬IsAccepted memoryConfig .empty "dev-1" (s'.written.map Nat.cast) := by
  let as : List Action := [
    .build .listener true, .lock .loop, .build .loop true, .write .loop true, .unlock .loop,
    .lock .listener, .write .listener true]
  have hr : (Transition.run step connected as).any (·.written = [9, 8]) := by decide
  obtain ⟨s', hs, hw⟩ := Option.any_eq_true _ _ |>.mp hr
  have hw : s'.written = [9, 8] := by simpa using hw
  refine ⟨as, s', hs, hw, by simp [hw], fun ha => ?_⟩
  have hm := ha [⟨.checkAndUpdateSeq "dev-1" (.int 9), 0, true⟩,
    ⟨.checkAndUpdateSeq "dev-1" (.int 8), 0, true⟩] (by simp [hw]) (by simp)
  exact absurd hm (by decide)

end Windows.Senders
