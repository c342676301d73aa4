import Quoodle.Data.Calendar
import Quoodle.Data.Rows
import Quoodle.Data.Transition
import Quoodle.Gateway.Value

-- The outbox of webhooks: the calls of `enqueue_and_send` and the worker, between their awaits.
namespace Gateway.WebhookOutbox

open Transition (Steps)

structure OutboxConfig where
  maxAttempts : Int
  baseDelaySeconds : Int
  maxDelaySeconds : Int
  -- The texts of times that are given in milliseconds.
  isoformat : Int → String
  sha256 : List UInt8 → String

inductive Status where
  | pending | delivered | dlq
  deriving DecidableEq

structure Row where
  eventId : String
  eventType : String
  destinationUrl : String
  payload : Value
  attempts : Nat
  nextRetryAt : String
  status : Status
  lastError : Option String

inductive Sender where
  | call | worker
  deriving DecidableEq

structure State where
  rows : List Row
  -- The events of the calls of `enqueue_and_send` that wait for `_deliver`.
  calls : List String
  -- What the worker has fetched and not dealt with, and whether it waits for `_deliver` of the first row.
  due : List Row
  sending : Bool
  posts : List (Sender × String)

structure Delivery where
  result : Except String Unit
  now : Int
  -- The factor by which the delay is multiplied, in thousandths.
  jitter : Int

inductive Action where
  -- The request is not made if a fault is injected or the payload cannot be signed.
  | enqueueAndSend (eventType destinationUrl : String) (payload : Value) (posted : Bool) (now : Int)
  | callDone (i : Nat) (d : Delivery)
  | fetchDue (now : Int)
  | workerSend (posted : Bool)
  | workerDone (d : Delivery)

def computeEventId (cfg : OutboxConfig) (eventType destinationUrl : String) (payload : Value) :
    String :=
  cfg.sha256 (canonicalizeJson Number.format payload.json ++ utf8 ['|'] ++ utf8 eventType.toList ++
    utf8 ['|'] ++ utf8 destinationUrl.toList)

def eventIdOf (cfg : OutboxConfig) (eventType destinationUrl : String) (payload : Value) : String :=
  match (payload.getItem "event_id").map Value.json with
  | some (.str s) => if s = "" then computeEventId cfg eventType destinationUrl payload else s
  | _ => computeEventId cfg eventType destinationUrl payload

section Rows

variable (cfg : OutboxConfig) (rows : List Row) (eventId : String)

def find : Option Row :=
  Rows.find Row.eventId rows eventId

def markDelivered : List Row :=
  Rows.update Row.eventId rows eventId fun r => { r with status := .delivered, lastError := none }

def markDlq (error : String) : List Row :=
  Rows.update Row.eventId rows eventId fun r => { r with status := .dlq, lastError := some error }

def getAttempts : Nat :=
  (find rows eventId).elim 0 Row.attempts

def delay (attempts : Nat) (jitter : Int) : Int :=
  min (cfg.baseDelaySeconds * 2 ^ attempts) cfg.maxDelaySeconds * jitter

-- The worker counts from the attempts that it has fetched, `enqueue_and_send` from those of the row.
def markRetry (error : String) (attempts : Option Nat) (now jitter : Int) : List Row :=
  let attempts := attempts.getD (getAttempts rows eventId)
  if cfg.maxAttempts ≤ attempts + 1 then markDlq rows eventId error
  else
    Rows.update Row.eventId rows eventId fun r =>
      { r with
        attempts := attempts + 1
        nextRetryAt := cfg.isoformat (now + delay cfg attempts jitter)
        status := .pending
        lastError := some error }

def settle (attempts : Option Nat) (d : Delivery) : List Row :=
  match d.result with
  | .ok () => markDelivered rows eventId
  | .error err => markRetry cfg rows eventId err attempts d.now d.jitter

-- Times are compared as texts.
def isDue (now : Int) (r : Row) : Bool :=
  r.status = .pending && r.nextRetryAt ≤ cfg.isoformat now

def fetchDue (now : Int) : List Row :=
  ((rows.filter (isDue cfg now)).insertionSort fun r r' => r.nextRetryAt ≤ r'.nextRetryAt).take 50

-- Models `INSERT OR IGNORE`.
def insert (r : Row) : List Row :=
  if (find rows r.eventId).isSome then rows else rows ++ [r]

end Rows

def post (s : State) (sender : Sender) (eventId : String) (posted : Bool) : List (Sender × String) :=
  if posted then s.posts ++ [(sender, eventId)] else s.posts

def step (cfg : OutboxConfig) (s : State) : Action → Option State
  | .enqueueAndSend eventType destinationUrl payload posted now => do
    let eventId := eventIdOf cfg eventType destinationUrl payload
    let payload ← payload.setItem "event_id" (.str eventId)
    let row : Row :=
      ⟨eventId, eventType, destinationUrl, payload, 0, cfg.isoformat now, .pending, none⟩
    some { s with
      rows := insert s.rows row
      calls := s.calls ++ [eventId]
      posts := post s .call eventId posted }
  | .callDone i d =>
    s.calls[i]?.map fun eventId =>
      { s with rows := settle cfg s.rows eventId none d, calls := s.calls.eraseIdx i }
  | .fetchDue now => if s.due = [] then some { s with due := fetchDue cfg s.rows now } else none
  | .workerSend posted =>
    match s.due, s.sending with
    | r :: _, false => some { s with sending := true, posts := post s .worker r.eventId posted }
    | _, _ => none
  | .workerDone d =>
    match s.due, s.sending with
    | r :: rs, true =>
      some { s with
        rows := settle cfg s.rows r.eventId (some r.attempts) d
        due := rs
        sending := false }
    | _, _ => none

structure Initial (s : State) : Prop where
  rows : s.rows = []
  calls : s.calls = []
  due : s.due = []
  sending : s.sending = false
  posts : s.posts = []

def State.status (s : State) (eventId : String) : Option Status :=
  (find s.rows eventId).map Row.status

def State.Held (s : State) (eventId : String) : Prop :=
  eventId ∈ s.calls ∨ eventId ∈ s.due.map Row.eventId

-- No two calls of `_deliver` for an event overlap, and no event is sent again by a call after it was
-- delivered or given up.
def Serial (cfg : OutboxConfig) (s : State) : Action → Prop
  | .enqueueAndSend eventType destinationUrl payload _ _ =>
    let eventId := eventIdOf cfg eventType destinationUrl payload
    ¬s.Held eventId ∧ ∀ st ∈ s.status eventId, st = .pending
  | .fetchDue now => ∀ r ∈ fetchDue cfg s.rows now, r.eventId ∉ s.calls
  | .callDone _ _ | .workerSend _ | .workerDone _ => True

section Rows

variable {cfg : OutboxConfig} {rows : List Row} {e e' : String} {attempts : Option Nat} {d : Delivery}

def Row.settle (cfg : OutboxConfig) (attempts : Option Nat) (d : Delivery) (r : Row) : Row :=
  match d.result with
  | .ok () => { r with status := .delivered, lastError := none }
  | .error err =>
    let attempts := attempts.getD r.attempts
    if cfg.maxAttempts ≤ attempts + 1 then { r with status := .dlq, lastError := some err }
    else
      { r with
        attempts := attempts + 1
        nextRetryAt := cfg.isoformat (d.now + delay cfg attempts d.jitter)
        status := .pending
        lastError := some err }

theorem eventId_settle (r : Row) : (r.settle cfg attempts d).eventId = r.eventId := by
  unfold Row.settle
  split
  case h_1 => rfl
  case h_2 => dsimp only; split <;> rfl

theorem settle_eq_update :
    settle cfg rows e attempts d = Rows.update Row.eventId rows e
      (Row.settle cfg (some (attempts.getD (getAttempts rows e))) d) := by
  unfold settle Row.settle
  split
  case h_1 => rfl
  simp only [markRetry, Option.getD_some]
  split <;> rfl

theorem find_settle :
    find (settle cfg rows e attempts d) e' =
      if e = e' then (find rows e').map (Row.settle cfg attempts d) else find rows e' := by
  rw [settle_eq_update, find, Rows.find_update fun r hr => (eventId_settle r).trans hr]
  split
  case isFalse => rfl
  case isTrue he =>
    subst he
    refine Option.map_congr fun r hr => ?_
    have ha : getAttempts rows e = r.attempts := by rw [getAttempts, find, hr, Option.elim_some]
    rw [ha]
    rfl

theorem eventIds_settle : (settle cfg rows e attempts d).map Row.eventId = rows.map Row.eventId := by
  rw [settle_eq_update, Rows.update, List.map_map]
  refine List.map_congr_left fun r _ => ?_
  rw [Function.comp_apply]
  split
  case isTrue => exact eventId_settle r
  case isFalse => rfl

theorem find_insert {r : Row} :
    find (insert rows r) e = if r.eventId = e then some ((find rows e).getD r) else find rows e := by
  unfold insert
  split
  case isTrue h =>
    split
    case isTrue he =>
      obtain ⟨r', hr⟩ := Option.isSome_iff_exists.mp (he ▸ h)
      rw [hr, Option.getD_some]
    case isFalse => rfl
  case isFalse h =>
    rw [find, Rows.find_append]
    split
    case isTrue he =>
      subst he
      simp [find, Rows.find]
    case isFalse he => simp [find, Rows.find, he]

theorem nodup_insert {r : Row} (h : (rows.map Row.eventId).Nodup) :
    ((insert rows r).map Row.eventId).Nodup := by
  unfold insert
  split
  case isTrue => exact h
  case isFalse hn =>
    rw [List.map_append, List.nodup_append]
    refine ⟨h, List.nodup_singleton _, fun a ha b hb => ?_⟩
    obtain ⟨r', hr', rfl⟩ := List.mem_map.mp ha
    rw [List.mem_singleton.mp hb]
    intro he
    have hf : find rows r.eventId = none := by simpa using hn
    have := List.find?_eq_none.mp hf r' hr'
    simp [he] at this

theorem mem_fetchDue {now : Int} {r : Row} (h : r ∈ fetchDue cfg rows now) :
    r ∈ rows ∧ r.status = .pending := by
  have hm := List.mem_of_mem_take h
  rw [List.mem_insertionSort, List.mem_filter] at hm
  exact ⟨hm.left, by simpa [isDue] using (Bool.and_eq_true_iff.mp hm.right).left⟩

theorem nodup_fetchDue {now : Int} (hn : (rows.map Row.eventId).Nodup) :
    ((fetchDue cfg rows now).map Row.eventId).Nodup := by
  have hs : ((rows.filter (isDue cfg now)).map Row.eventId).Nodup :=
    hn.sublist (List.filter_sublist.map _)
  have hp := (List.perm_insertionSort (fun r r' : Row => r.nextRetryAt ≤ r'.nextRetryAt)
    (rows.filter (isDue cfg now))).map Row.eventId
  exact (hp.nodup_iff.mpr hs).sublist ((List.take_sublist _ _).map _)

end Rows

namespace State

variable (s : State) (e : String)

def fetched : Nat :=
  (s.due.map Row.eventId).count e

def inFlight : Nat :=
  s.calls.count e + if s.sending then ((s.due.map Row.eventId).take 1).count e else 0

def posted : Nat :=
  (s.posts.map Prod.snd).count e

end State

-- What holds of an event if its deliveries do not overlap.
structure Tracked (cfg : OutboxConfig) (s : State) (e : String) : Prop where
  held : s.calls.count e + s.fetched e ≤ 1
  absent : find s.rows e = none → s.calls.count e + s.fetched e = 0 ∧ s.posted e = 0
  pending : ∀ r, find s.rows e = some r → r.status = .pending →
    (r.attempts : Int) < cfg.maxAttempts ∧ s.posted e ≤ r.attempts + s.inFlight e
  settled : ∀ r, find s.rows e = some r → r.status ≠ .pending →
    s.calls.count e + s.fetched e = 0 ∧ (s.posted e : Int) ≤ cfg.maxAttempts
  fetched : ∀ r ∈ s.due, r.eventId = e → ∀ r' ∈ find s.rows e, r'.attempts = r.attempts

structure Consistent (cfg : OutboxConfig) (s : State) : Prop where
  nodup : (s.rows.map Row.eventId).Nodup
  tracked : ∀ e, Tracked cfg s e

section Step

variable {cfg : OutboxConfig} {s s' : State} {e : String}

theorem State.inFlight_le : s.inFlight e ≤ s.calls.count e + s.fetched e := by
  unfold State.inFlight State.fetched
  split
  case isTrue => exact Nat.add_le_add_left ((List.take_sublist _ _).count_le e) _
  case isFalse => exact Nat.le_add_right _ _

theorem count_post_of_ne {sender : Sender} {e' : String} {b : Bool} (h : e' ≠ e) :
    ((post s sender e' b).map Prod.snd).count e = s.posted e := by
  unfold post State.posted
  split <;> simp [h]

theorem count_post_le {sender : Sender} {e' : String} {b : Bool} :
    ((post s sender e' b).map Prod.snd).count e ≤ s.posted e + 1 := by
  unfold post State.posted
  split
  case isTrue =>
    rw [List.map_append, List.count_append]
    exact Nat.add_le_add_left List.count_le_length _
  case isFalse => exact Nat.le_succ _

theorem Initial.consistent (h : Initial s) : Consistent cfg s where
  nodup := by simp [h.rows]
  tracked e := by
    constructor <;> simp [h.rows, h.calls, h.due, h.posts, find, Rows.find, State.fetched, State.posted]

namespace Tracked

theorem frame (h : Tracked cfg s e) (hr : find s'.rows e = find s.rows e)
    (hc : s'.calls.count e = s.calls.count e) (hd : s'.fetched e = s.fetched e)
    (hm : ∀ r ∈ s'.due, r.eventId = e → r ∈ s.due) (hi : s.inFlight e ≤ s'.inFlight e)
    (hp : s'.posted e = s.posted e) : Tracked cfg s' e where
  held := by
    rw [hc, hd]
    exact h.held
  absent hn := by
    rw [hc, hd, hp]
    exact h.absent (hr ▸ hn)
  pending r hf hs := by
    have ⟨ha, hb⟩ := h.pending r (hr ▸ hf) hs
    rw [hp]
    exact ⟨ha, hb.trans (Nat.add_le_add_left hi _)⟩
  settled r hf hs := by
    rw [hc, hd, hp]
    exact h.settled r (hr ▸ hf) hs
  fetched r hm' he := by
    rw [hr]
    exact h.fetched r (hm r hm' he) he

theorem exists_pending (h : Tracked cfg s e) (hh : 0 < s.calls.count e + s.fetched e) :
    ∃ r, find s.rows e = some r ∧ r.status = .pending := by
  cases hr : find s.rows e
  case none => exact absurd (h.absent hr).left hh.ne'
  case some r => exact ⟨r, rfl, by_contra fun hs => absurd (h.settled r hr hs).left hh.ne'⟩

theorem settle {attempts : Option Nat} {d : Delivery} (h : Tracked cfg s e)
    (hf : s.inFlight e = 1) (ha : ∀ n ∈ attempts, ∀ r ∈ find s.rows e, r.attempts = n)
    (hr : s'.rows = WebhookOutbox.settle cfg s.rows e attempts d)
    (hc : s'.calls.count e + s'.fetched e = 0) (hp : s'.posted e = s.posted e) :
    Tracked cfg s' e := by
  have hle := @State.inFlight_le s e
  obtain ⟨r, hr', hs⟩ := h.exists_pending (by omega)
  obtain ⟨hm, hb⟩ := h.pending r hr' hs
  have hn : attempts.getD r.attempts = r.attempts := by
    cases attempts
    case none => rfl
    case some n => exact (ha n rfl r hr').symm
  have hx : find s'.rows e = some (r.settle cfg attempts d) := by
    rw [hr, find_settle, if_pos rfl, hr', Option.map_some]
  constructor
  case held => omega
  case absent =>
    intro hn
    rw [hx] at hn
    cases hn
  case pending =>
    intro r' hr'
    rw [hx, Option.some.injEq] at hr'
    subst hr'
    unfold Row.settle
    split
    case h_1 => exact fun hs => by cases hs
    simp only [hn]
    split
    case isTrue => exact fun hs => by cases hs
    case isFalse hlt =>
      intro _
      simp only [Nat.cast_add, Nat.cast_one]
      omega
  case settled =>
    intro r' hr' _
    omega
  case fetched =>
    intro r' hm' he
    have : 0 < s'.fetched e := List.count_pos_iff.mpr (he ▸ List.mem_map_of_mem hm')
    omega

theorem enqueue {r₀ : Row} (h : Tracked cfg s e) (hd : s.fetched e = 0)
    (hst : ∀ st ∈ s.status e, st = .pending) (hm : 1 ≤ cfg.maxAttempts)
    (hr : find s'.rows e = some ((find s.rows e).getD r₀)) (h₀ : r₀.status = .pending)
    (ha : r₀.attempts = 0) (hc : s'.calls.count e = 1) (hn : s.calls.count e = 0)
    (hd' : s'.due = s.due) (hp : s'.posted e ≤ s.posted e + 1) : Tracked cfg s' e := by
  have hle := @State.inFlight_le s e
  have hf : 1 ≤ s'.inFlight e := hc ▸ Nat.le_add_right _ _
  have hf' : s'.fetched e = 0 := by
    rw [State.fetched, hd']
    exact hd
  have hs {r : Row} (hx : find s.rows e = some r) : r.status = .pending :=
    hst _ (by rw [State.status, hx]; rfl)
  constructor
  case held => omega
  case absent =>
    intro hx
    rw [hr] at hx
    cases hx
  case fetched =>
    intro r hm' he
    have : 0 < s.fetched e := List.count_pos_iff.mpr (he ▸ List.mem_map_of_mem (hd' ▸ hm'))
    omega
  case pending =>
    intro r hr' _
    rw [hr, Option.some.injEq] at hr'
    cases hx : find s.rows e
    case none =>
      obtain ⟨_, hz⟩ := h.absent hx
      rw [hx, Option.getD_none] at hr'
      subst hr'
      rw [ha]
      exact ⟨by omega, by omega⟩
    case some r' =>
      rw [hx, Option.getD_some] at hr'
      subst hr'
      obtain ⟨hlt, hb⟩ := h.pending r' hx (hs hx)
      exact ⟨hlt, by omega⟩
  case settled =>
    intro r hr' hp'
    rw [hr, Option.some.injEq] at hr'
    cases hx : find s.rows e
    case none =>
      rw [hx, Option.getD_none] at hr'
      exact absurd (hr' ▸ h₀) hp'
    case some r' =>
      rw [hx, Option.getD_some] at hr'
      exact absurd (hr' ▸ hs hx) hp'

end Tracked

namespace Consistent

theorem enqueueAndSend {eventType destinationUrl : String} {payload : Value} {posted : Bool}
    {now : Int} (h : Consistent cfg s) (hm : 1 ≤ cfg.maxAttempts)
    (hc : Serial cfg s (.enqueueAndSend eventType destinationUrl payload posted now))
    (hs : step cfg s (.enqueueAndSend eventType destinationUrl payload posted now) = some s') :
    Consistent cfg s' := by
  simp only [step, Option.bind_eq_bind, Option.bind_eq_some_iff, Option.some.injEq] at hs
  obtain ⟨p, _, rfl⟩ := hs
  refine ⟨nodup_insert h.nodup, fun e => ?_⟩
  have ht := h.tracked e
  by_cases he : eventIdOf cfg eventType destinationUrl payload = e
  case neg =>
    refine ht.frame ?_ ?_ rfl (fun r hr _ => hr) ?_ (count_post_of_ne he)
    · rw [find_insert, if_neg he]
    · simp [he]
    · simp [State.inFlight, he]
  case pos =>
    simp only [Serial, he, State.Held, not_or] at hc
    have hn : s.calls.count e = 0 := List.count_eq_zero.mpr hc.left.left
    have hd : s.fetched e = 0 := List.count_eq_zero.mpr hc.left.right
    refine ht.enqueue hd hc.right hm (find_insert.trans (if_pos he)) rfl rfl ?_ hn rfl ?_
    · simp [he, hn]
    · rw [he]
      exact count_post_le

theorem callDone {i : Nat} {d : Delivery} (h : Consistent cfg s)
    (hs : step cfg s (.callDone i d) = some s') : Consistent cfg s' := by
  obtain ⟨e', hi, rfl⟩ := Option.map_eq_some_iff.mp hs
  refine ⟨by simpa only [eventIds_settle] using h.nodup, fun e => ?_⟩
  have ht := h.tracked e
  obtain ⟨hl, rfl⟩ := List.getElem?_eq_some_iff.mp hi
  have hp := (List.getElem_cons_eraseIdx_perm hl).count_eq e
  by_cases he : s.calls[i] = e
  case neg =>
    rw [List.count_cons_of_ne he] at hp
    refine ht.frame ?_ hp rfl (fun r hr _ => hr) ?_ rfl
    · rw [find_settle, if_neg he]
    · simp only [State.inFlight, hp, le_refl]
  case pos =>
    rw [he, List.count_cons_self] at hp
    have hh := ht.held
    have hle := @State.inFlight_le s e
    have hge : s.calls.count e ≤ s.inFlight e := Nat.le_add_right _ _
    have hd : s.fetched e = 0 := by omega
    have hc : (s.calls.eraseIdx i).count e = 0 := by omega
    have hr : settle cfg s.rows s.calls[i] none d = settle cfg s.rows e none d := by rw [he]
    exact ht.settle (by omega) (by simp) hr (congrArg₂ (· + ·) hc hd) rfl

theorem fetchDue {now : Int} (h : Consistent cfg s) (hc : Serial cfg s (.fetchDue now))
    (hs : step cfg s (.fetchDue now) = some s') : Consistent cfg s' := by
  simp only [step, Option.ite_none_right_eq_some, Option.some.injEq] at hs
  obtain ⟨hd, rfl⟩ := hs
  refine ⟨h.nodup, fun e => ?_⟩
  have ht := h.tracked e
  have hz : s.fetched e = 0 := by simp [State.fetched, hd]
  have hi : s.inFlight e = s.calls.count e := by simp [State.inFlight, hd]
  have hn := List.nodup_iff_count_le_one.mp (@nodup_fetchDue cfg s.rows now h.nodup) e
  have hf {r : Row} (hr : r ∈ WebhookOutbox.fetchDue cfg s.rows now) :
      find s.rows r.eventId = some r :=
    Rows.find_of_mem h.nodup (mem_fetchDue hr).left
  -- An event without a pending row is not fetched.
  have hnone (hp : ∀ r ∈ find s.rows e, r.status ≠ .pending) :
      ((WebhookOutbox.fetchDue cfg s.rows now).map Row.eventId).count e = 0 := by
    refine List.count_eq_zero.mpr fun hm => ?_
    obtain ⟨r, hr, rfl⟩ := List.mem_map.mp hm
    exact hp r (hf hr) (mem_fetchDue hr).right
  constructor
  case held =>
    by_cases hm : e ∈ (WebhookOutbox.fetchDue cfg s.rows now).map Row.eventId
    case pos =>
      obtain ⟨r, hr, rfl⟩ := List.mem_map.mp hm
      have hc' : s.calls.count r.eventId = 0 := List.count_eq_zero.mpr (hc r hr)
      exact (Nat.add_le_add hc'.le hn).trans_eq (Nat.zero_add 1)
    case neg =>
      have hh := ht.held
      exact Nat.add_le_add (show s.calls.count e ≤ 1 by omega) (List.count_eq_zero.mpr hm).le
  case absent =>
    intro hx
    obtain ⟨hh, hp⟩ := ht.absent hx
    refine ⟨?_, hp⟩
    have hc' : s.calls.count e = 0 := by omega
    exact congrArg₂ (· + ·) hc' (hnone (by simp [hx]))
  case pending =>
    intro r hr hp
    obtain ⟨hlt, hb⟩ := ht.pending r hr hp
    refine ⟨hlt, hb.trans (Nat.add_le_add_left ?_ _)⟩
    rw [hi]
    exact Nat.le_add_right _ _
  case settled =>
    intro r hr hp
    obtain ⟨hh, hb⟩ := ht.settled r hr hp
    refine ⟨?_, hb⟩
    have hc' : s.calls.count e = 0 := by omega
    exact congrArg₂ (· + ·) hc' (hnone fun r' hr' => Option.some.inj (hr.symm.trans hr') ▸ hp)
  case fetched =>
    rintro r hr rfl r' hr'
    rw [Option.some.inj ((hf hr).symm.trans hr')]

theorem workerSend {b : Bool} (h : Consistent cfg s) (hs : step cfg s (.workerSend b) = some s') :
    Consistent cfg s' := by
  simp only [step] at hs
  split at hs
  case h_2 => cases hs
  case h_1 r rs hd hw =>
    cases hs
    refine ⟨h.nodup, fun e => ?_⟩
    have ht := h.tracked e
    have hi : s.inFlight e = s.calls.count e := by simp [State.inFlight, hw]
    have hle : s.inFlight e ≤ State.inFlight { s with sending := true } e :=
      hi ▸ Nat.le_add_right _ _
    by_cases he : r.eventId = e
    case neg => exact ht.frame rfl rfl rfl (fun r hr _ => hr) hle (count_post_of_ne he)
    have hf : 0 < s.fetched e := List.count_pos_iff.mpr (by simp [hd, he])
    obtain ⟨r', hr, hst⟩ := ht.exists_pending (by omega)
    obtain ⟨hlt, hb⟩ := ht.pending r' hr hst
    have hi' : State.inFlight { s with sending := true } e = s.calls.count e + 1 := by
      simp [State.inFlight, hd, he]
    have hp : ((post s .worker e b).map Prod.snd).count e ≤ s.posted e + 1 := count_post_le
    constructor
    case held => exact ht.held
    case absent => exact fun hx => absurd (hr.symm.trans hx) (by simp)
    case fetched => exact ht.fetched
    case pending =>
      intro r'' hr' _
      rw [hr, Option.some.injEq] at hr'
      subst hr'
      refine ⟨hlt, ?_⟩
      show ((post s .worker r.eventId b).map Prod.snd).count e ≤
        r'.attempts + State.inFlight { s with sending := true } e
      rw [he, hi']
      omega
    case settled =>
      intro r'' hr' hst'
      rw [hr, Option.some.injEq] at hr'
      exact absurd (hr' ▸ hst) hst'

theorem workerDone {d : Delivery} (h : Consistent cfg s)
    (hs : step cfg s (.workerDone d) = some s') : Consistent cfg s' := by
  simp only [step] at hs
  split at hs
  case h_2 => cases hs
  case h_1 r rs hd hw =>
    cases hs
    refine ⟨by simpa only [eventIds_settle] using h.nodup, fun e => ?_⟩
    have ht := h.tracked e
    by_cases he : r.eventId = e
    case neg =>
      refine ht.frame ?_ rfl ?_ (fun r' hr _ => hd ▸ List.mem_cons_of_mem r hr) ?_ rfl
      · rw [find_settle, if_neg he]
      · simp [State.fetched, hd, he]
      · simp [State.inFlight, hd, hw, he]
    case pos =>
      have hf : s.fetched e = (rs.map Row.eventId).count e + 1 := by simp [State.fetched, hd, he]
      have hh := ht.held
      have hi : s.inFlight e = s.calls.count e + 1 := by simp [State.inFlight, hd, hw, he]
      have hc : s.calls.count e = 0 := by omega
      have hz : (rs.map Row.eventId).count e = 0 := by omega
      have hr : settle cfg s.rows r.eventId (some r.attempts) d =
          settle cfg s.rows e (some r.attempts) d := by rw [he]
      refine ht.settle (by omega) ?_ hr (congrArg₂ (· + ·) hc hz) rfl
      rintro n hn r' hr
      cases hn
      exact ht.fetched r (by simp [hd]) he r' hr

theorem step {a : Action} (h : Consistent cfg s) (hm : 1 ≤ cfg.maxAttempts) (hc : Serial cfg s a)
    (hs : step cfg s a = some s') : Consistent cfg s' := by
  cases a
  case enqueueAndSend => exact h.enqueueAndSend hm hc hs
  case callDone => exact h.callDone hs
  case fetchDue => exact h.fetchDue hc hs
  case workerSend => exact h.workerSend hs
  case workerDone => exact h.workerDone hs

theorem posted_le (h : Consistent cfg s) (e : String) (hm : 1 ≤ cfg.maxAttempts) :
    (s.posted e : Int) ≤ cfg.maxAttempts := by
  have ht := h.tracked e
  cases hr : find s.rows e
  case none =>
    have := (ht.absent hr).right
    omega
  case some r =>
    by_cases hs : r.status = .pending
    case neg => exact (ht.settled r hr hs).right
    have ⟨hlt, hb⟩ := ht.pending r hr hs
    have hle := @State.inFlight_le s e
    have hh := ht.held
    omega

theorem not_held {st : Status} (h : Consistent cfg s) (hst : s.status e = some st)
    (hne : st ≠ .pending) : ¬s.Held e := by
  obtain ⟨r, hr, rfl⟩ := Option.map_eq_some_iff.mp hst
  obtain ⟨hh, _⟩ := (h.tracked e).settled r hr hne
  rintro (hc | hd)
  · have := List.count_pos_iff.mpr hc
    omega
  · have : 0 < s.fetched e := List.count_pos_iff.mpr hd
    omega

theorem settled_step {a : Action} {st : Status} (h : Consistent cfg s) (hst : s.status e = some st)
    (hne : st ≠ .pending) (hc : Serial cfg s a) (hs : WebhookOutbox.step cfg s a = some s') :
    s'.status e = some st ∧ s'.posts.count (.worker, e) = s.posts.count (.worker, e) := by
  have ⟨hn, hd⟩ := not_or.mp (h.not_held hst hne)
  have hsettle {e' : String} {n : Option Nat} {d : Delivery} (he : e' ≠ e) :
      (find (settle cfg s.rows e' n d) e).map Row.status = some st := by
    rw [find_settle, if_neg he]
    exact hst
  cases a
  case enqueueAndSend eventType destinationUrl payload _ _ =>
    simp only [WebhookOutbox.step, Option.bind_eq_bind, Option.bind_eq_some_iff,
      Option.some.injEq] at hs
    obtain ⟨p, _, rfl⟩ := hs
    have he : eventIdOf cfg eventType destinationUrl payload ≠ e :=
      fun he => hne (hc.right st (he ▸ hst))
    refine ⟨?_, ?_⟩
    · rw [State.status, find_insert, if_neg he]
      exact hst
    · unfold post
      split <;> simp
  case callDone =>
    obtain ⟨e', hi, rfl⟩ := Option.map_eq_some_iff.mp hs
    exact ⟨hsettle fun he => hn (he ▸ List.mem_of_getElem? hi), rfl⟩
  case fetchDue =>
    simp only [WebhookOutbox.step, Option.ite_none_right_eq_some, Option.some.injEq] at hs
    obtain ⟨_, rfl⟩ := hs
    exact ⟨hst, rfl⟩
  case workerSend =>
    simp only [WebhookOutbox.step] at hs
    split at hs
    case h_2 => cases hs
    case h_1 r rs hx _ =>
      cases hs
      have he : r.eventId ≠ e := fun he => hd (by simp [hx, he])
      refine ⟨hst, ?_⟩
      unfold post
      split <;> simp [he]
  case workerDone =>
    simp only [WebhookOutbox.step] at hs
    split at hs
    case h_2 => cases hs
    case h_1 r rs hx _ =>
      cases hs
      exact ⟨hsettle fun he => hd (by simp [hx, he]), rfl⟩

end Consistent

end Step

theorem settled_of_serial {cfg : OutboxConfig} {s₀ s₁ s₂ : State} {as bs : List Action}
    (hm : 1 ≤ cfg.maxAttempts) (hi : Initial s₀) (h₁ : Steps (step cfg) (Serial cfg) s₀ as s₁)
    (h₂ : Steps (step cfg) (Serial cfg) s₁ bs s₂) (e : String) :
    (∀ st, st ≠ .pending → s₁.status e = some st → s₂.status e = some st ∧
      s₂.posts.count (.worker, e) = s₁.posts.count (.worker, e)) ∧
      (s₂.posted e : Int) ≤ cfg.maxAttempts := by
  have hc₁ : Consistent cfg s₁ := h₁.invariant (fun h hc hs => h.step hm hc hs) hi.consistent
  have hc₂ : Consistent cfg s₂ := h₂.invariant (fun h hc hs => h.step hm hc hs) hc₁
  refine ⟨fun st hne hst => ?_, hc₂.posted_le e hm⟩
  have hinv := h₂.invariant (I := fun s => Consistent cfg s ∧ s.status e = some st ∧
    s.posts.count (.worker, e) = s₁.posts.count (.worker, e)) ?_ ⟨hc₁, hst, rfl⟩
  · exact hinv.right
  · rintro s a s' ⟨h, hs, hp⟩ hc ha
    have ⟨hs', hp'⟩ := h.settled_step hs hne hc ha
    exact ⟨h.step hm hc ha, hs', hp'.trans hp⟩

instance (s : State) (e : String) : Decidable (s.Held e) :=
  inferInstanceAs (Decidable (_ ∨ _))

instance (cfg : OutboxConfig) (s : State) : (a : Action) → Decidable (Serial cfg s a)
  | .enqueueAndSend .. => inferInstanceAs (Decidable (_ ∧ ∀ st ∈ _, _))
  | .fetchDue now => inferInstanceAs (Decidable (∀ r ∈ fetchDue cfg s.rows now, _))
  | .callDone .. | .workerSend _ | .workerDone _ => .isTrue trivial

def exampleConfig : OutboxConfig where
  maxAttempts := 6
  baseDelaySeconds := 1
  maxDelaySeconds := 60
  isoformat t :=
    String.ofList (Calendar.print Calendar.isoDateTime (.ofSeconds (t / 1000)) ++ ['Z'])
  sha256 _ := "0"

def started : State :=
  ⟨[], [], [], false, []⟩

def telemetryWebhook : Action :=
  .enqueueAndSend "telemetry" "http://laravel/webhook" (.dict [("event_id", .str "event-1")]) true 0

def failsAt (seconds : Int) : Delivery :=
  ⟨.error "http_503", seconds * 1000, 1000⟩

def succeedsAt (seconds : Int) : Delivery :=
  ⟨.ok (), seconds * 1000, 1000⟩

theorem settled_of_serial_retry : ∃ as bs s₁ s₂,
    Steps (step exampleConfig) (Serial exampleConfig) started as s₁ ∧
      Steps (step exampleConfig) (Serial exampleConfig) s₁ bs s₂ ∧
      s₁.status "event-1" = some .delivered ∧ s₂.status "event-1" = some .delivered ∧
      (s₂.posted "event-1" : Int) ≤ 6 := by
  let as : List Action :=
    [telemetryWebhook, .callDone 0 (failsAt 5), .fetchDue 7000, .workerSend true,
      .workerDone (succeedsAt 8)]
  have hr : (Transition.run (Transition.restrict (step exampleConfig) (Serial exampleConfig)) started
      as).any fun s₁ => s₁.status "event-1" = some .delivered &&
        (Transition.run (Transition.restrict (step exampleConfig) (Serial exampleConfig)) s₁
          [.fetchDue 9000]).isSome := by
    decide
  simp only [Option.any_eq_true, Bool.and_eq_true, decide_eq_true_eq, Option.isSome_iff_exists] at hr
  obtain ⟨s₁, h₁, hst, s₂, h₂⟩ := hr
  have h := settled_of_serial (by decide) ⟨rfl, rfl, rfl, rfl, rfl⟩ (.of_run h₁) (.of_run h₂) "event-1"
  exact ⟨as, _, s₁, s₂, .of_run h₁, .of_run h₂, hst, (h.left _ (by decide) hst).left, h.right⟩

-- The worker delivers an event while the call that has enqueued it waits, and sends it again after the
-- call has failed. If both of them fail, one request is not counted.
theorem delivered_event_sent_again :
    (∃ as bs s₁ s₂, Transition.run (step exampleConfig) started as = some s₁ ∧
      Transition.run (step exampleConfig) s₁ bs = some s₂ ∧
      s₁.status "event-1" = some .delivered ∧ s₂.status "event-1" = some .pending ∧
      s₁.posts.count (.worker, "event-1") = 1 ∧ s₂.posts.count (.worker, "event-1") = 2) ∧
    ∃ as s, Transition.run (step exampleConfig) started as = some s ∧
      s.status "event-1" = some .pending ∧ s.posted "event-1" = 7 := by
  let as : List Action :=
    [telemetryWebhook, .fetchDue 0, .workerSend true, .workerDone (succeedsAt 1)]
  let bs : List Action := [.callDone 0 (failsAt 5), .fetchDue 7000, .workerSend true]
  let retry (t : Int) : List Action :=
    [.fetchDue (t * 1000), .workerSend true, .workerDone (failsAt t)]
  let cs : List Action :=
    [telemetryWebhook, .fetchDue 0, .workerSend true, .callDone 0 (failsAt 5), .workerDone (failsAt 5)]
      ++ retry 100 ++ retry 200 ++ retry 300 ++ retry 400 ++ [.fetchDue 500000, .workerSend true]
  have h₁ : (Transition.run (step exampleConfig) started as).any fun s₁ =>
      s₁.status "event-1" = some .delivered && s₁.posts.count (.worker, "event-1") = 1 &&
      (Transition.run (step exampleConfig) s₁ bs).any fun s₂ =>
        s₂.status "event-1" = some .pending && s₂.posts.count (.worker, "event-1") = 2 := by
    decide
  have h₂ : (Transition.run (step exampleConfig) started cs).any fun s =>
      s.status "event-1" = some .pending && s.posted "event-1" = 7 := by
    decide
  simp only [Option.any_eq_true, Bool.and_eq_true, decide_eq_true_eq] at h₁ h₂
  obtain ⟨s₁, h₁, ⟨hd, hp₁⟩, s₂, h₂', hs, hp₂⟩ := h₁
  exact ⟨⟨as, bs, s₁, s₂, h₁, h₂', hd, hs, hp₁, hp₂⟩, cs, h₂⟩

end Gateway.WebhookOutbox
