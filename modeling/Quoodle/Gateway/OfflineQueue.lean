import Quoodle.Data.Transition
import Quoodle.Gateway.Value

-- The queue of messages for one device that is not connected.
namespace Gateway.OfflineQueue

structure Config where
  maxPerDevice : Nat
  messageTtl : Int
  -- The time that `datetime.fromisoformat` finds in a string, in seconds.
  parseIso8601 : String → Option Int

structure Item where
  id : Nat
  priority : Int
  message : Value
  enqueuedAt : Int
  expiresAt : Option Int

-- Models `v or {}`.
def orEmpty (v : Value) : Value :=
  match v.json with
  | .null | .bool false | .num (.int 0) | .str "" | .arr [] => .dict []
  | .num (.float x) => if x.text = "0.0".toList ∨ x.text = "-0.0".toList then .dict [] else v
  | _ => v

def computeExpiresAt (cfg : Config) (message : Value) : Option (Option Int) := do
  let envelope := orEmpty (← message.get "envelope" .none)
  let header := orEmpty (← envelope.get "header" .none)
  let ts ← header.get "timestamp" .none
  let ttl ← header.get "ttl_seconds" .none
  return match ts.json, ttl.json with
    | .str ts, .num (.int ttl) => (cfg.parseIso8601 ts).map (· + ttl)
    | .str ts, .bool ttl => (cfg.parseIso8601 ts).map (· + ttl.toNat)
    | _, _ => none

def Item.isExpired (now : Int) (x : Item) : Bool :=
  x.expiresAt.any (now > ·)

-- Higher priorities come first. Messages of the same priority keep their order.
def sortByPriority (xs : List Item) : List Item :=
  xs.insertionSort fun x y => y.priority ≤ x.priority

-- The places where messages can be: a list in Redis, what `RedisService` keeps under the same key
-- when a call fails, and the queue that is used instead of both while Redis is not connected.
structure Store where
  connected : Bool
  redis : List Item
  expireAt : Option Int
  fallback : List Item
  memory : List Item

namespace Store

-- The list that a call of `RedisService` works on. A call that fails falls back to the other one.
def list (s : Store) (ok : Bool) : List Item :=
  if s.connected && ok then s.redis else s.fallback

-- An empty list does not exist in Redis, and neither does its time to live.
def setList (s : Store) (ok : Bool) (xs : List Item) : Store :=
  if s.connected && ok then { s with redis := xs, expireAt := if xs = [] then none else s.expireAt }
  else { s with fallback := xs }

def expire (s : Store) (ok : Bool) (t : Int) : Store :=
  if s.connected && ok && !s.redis.isEmpty then { s with expireAt := some t } else s

def queue (s : Store) : List Item :=
  if s.connected then s.redis else s.memory

end Store

-- A call that waits for Redis, by the operation that it waits for. The first four are made by
-- `enqueue`, in this order, and the others by `drain`, whose callers are told apart by numbers.
inductive Call where
  | llen (x : Item)
  | lpop (x : Item)
  | rpush (x : Item) (dropped : Bool)
  | expire (x : Item) (dropped : Bool)
  | lrange (caller : Nat)
  | delete (caller : Nat) (raw : List Item)

structure State where
  store : Store
  calls : List Call
  next : Nat
  enqueued : List (Nat × Bool)
  drained : List (Nat × List Item)
  -- The messages that were removed because the queue was full, and because they had expired.
  evicted : List Item
  expired : List Item

inductive Action where
  | enqueue (priority : Int) (message : Value) (now : Int)
  | drain (caller : Nat) (now : Int)
  | resume (i : Nat) (ok : Bool) (now : Int)
  | lapse (now : Int)
  | disconnect

namespace State

def spawn (s : State) (c : Call) : State :=
  { s with calls := s.calls ++ [c] }

-- The first message is removed from a full queue.
def evict (cfg : Config) (s : State) (xs : List Item) : State :=
  if xs.length ≥ cfg.maxPerDevice then { s with evicted := s.evicted ++ xs.take 1 } else s

def deliver (caller : Nat) (now : Int) (s : State) (xs : List Item) : State :=
  { s with
    drained := s.drained ++ [(caller, sortByPriority (xs.filter (!·.isExpired now)))]
    expired := s.expired ++ xs.filter (·.isExpired now) }

-- Puts a message into the queue that is used while Redis is not connected.
def remember (cfg : Config) (s : State) (x : Item) : State :=
  let xs := s.store.memory
  let kept := if xs.length ≥ cfg.maxPerDevice then xs.tail else xs
  { s.evict cfg xs with store := { s.store with memory := kept ++ [x] } }

def enqueue (cfg : Config) (s : State) (priority : Int) (message : Value) (now : Int)
    (expiresAt : Option Int) : State :=
  let x : Item := ⟨s.next, priority, message, now, expiresAt⟩
  let s := { s with next := s.next + 1 }
  if s.store.connected then s.spawn (.llen x)
  -- There is nothing to pop from the queue, and the call fails.
  else if cfg.maxPerDevice = 0 ∧ s.store.memory = [] then s
  else
    let dropped := decide (s.store.memory.length ≥ cfg.maxPerDevice)
    let s := s.remember cfg x
    { s with enqueued := s.enqueued ++ [(x.id, !dropped)] }

def drain (s : State) (caller : Nat) (now : Int) : State :=
  if s.store.connected then s.spawn (.lrange caller)
  else { s.deliver caller now s.store.memory with store := { s.store with memory := [] } }

-- Models what a call does from the answer to one operation up to the next operation.
def resume (cfg : Config) (ok : Bool) (now : Int) (s : State) : Call → State
  | .llen x =>
    if (s.store.list ok).length ≥ cfg.maxPerDevice then s.spawn (.lpop x)
    else s.spawn (.rpush x false)
  | .lpop x =>
    let xs := s.store.list ok
    let s := s.evict cfg xs
    { s with store := s.store.setList ok xs.tail }.spawn (.rpush x true)
  | .rpush x dropped =>
    { s with store := s.store.setList ok (s.store.list ok ++ [x]) }.spawn (.expire x dropped)
  | .expire x dropped =>
    { s with
      store := s.store.expire ok (now + cfg.messageTtl)
      enqueued := s.enqueued ++ [(x.id, !dropped)] }
  | .lrange caller =>
    match s.store.list ok with
    | [] => { s with drained := s.drained ++ [(caller, [])] }
    | raw => s.spawn (.delete caller raw)
  | .delete caller raw =>
    { s.deliver caller now raw with store := s.store.setList ok [] }

-- Redis drops the list. Of its messages, only those that are as old as the time to live have
-- expired.
def lapse (cfg : Config) (s : State) (now : Int) : State :=
  { s with
    store := { s.store with redis := [], expireAt := none }
    expired := s.expired ++ s.store.redis.filter fun x =>
      x.isExpired now || x.enqueuedAt + cfg.messageTtl ≤ now }

end State

def step (cfg : Config) (s : State) : Action → Option State
  | .enqueue priority message now =>
    (computeExpiresAt cfg message).map (s.enqueue cfg priority message now)
  | .drain caller now => some (s.drain caller now)
  | .resume i ok now => s.calls[i]?.map ({ s with calls := s.calls.eraseIdx i }.resume cfg ok now)
  | .lapse now => if s.store.expireAt.any (· ≤ now) then some (s.lapse cfg now) else none
  | .disconnect => some { s with store := { s.store with connected := false } }

def count (id : Nat) (xs : List Item) : Nat :=
  xs.countP (·.id = id)

-- The number of places where a message has ended up: in the queue that the next call of `drain`
-- finds, among what was returned by one, or removed for one of the two reasons.
def State.fates (s : State) (id : Nat) : Nat :=
  count id s.store.queue + count id (s.drained.flatMap Prod.snd) + count id s.evicted +
    count id s.expired

def Call.waiting : Call → Option Item
  | .llen x | .lpop x | .rpush x _ => some x
  | .expire _ _ | .lrange _ | .delete _ _ => none

def waiting (id : Nat) (cs : List Call) : Nat :=
  count id (cs.filterMap Call.waiting)

def Call.IsPop : Call → Prop
  | .lpop _ => True
  | _ => False

def Call.IsDelete : Call → Prop
  | .delete _ _ => True
  | _ => False

-- A drain is not interrupted between its two operations by one that changes the list or reads it for
-- another drain, and neither is the removal of a message from a full queue. The operations that
-- change the list do not fail, except that a message may stay in a full queue.
def Call.Orderly (ok : Bool) (others : List Call) : Call → Prop
  | .llen _ | .expire _ _ => True
  | .lpop _ => ok → ∀ c ∈ others, ¬c.IsPop ∧ ¬c.IsDelete
  | .rpush _ _ => ok ∧ ∀ c ∈ others, ¬c.IsDelete
  | .lrange _ => ok → ∀ c ∈ others, ¬c.IsDelete
  | .delete _ _ => ok ∧ ∀ c ∈ others, ¬c.IsPop

-- Redis drops the list only when its messages have expired and no call relies on it, and is lost only
-- while there is nothing in it and no call is waiting.
def Orderly (cfg : Config) (s : State) : Action → Prop
  | .enqueue _ _ _ | .drain _ _ => True
  | .resume i ok _ => ∀ c ∈ s.calls[i]?, c.Orderly ok (s.calls.eraseIdx i)
  | .lapse now =>
    (∀ x ∈ s.store.redis, x.isExpired now ∨ x.enqueuedAt + cfg.messageTtl ≤ now) ∧
      ∀ c ∈ s.calls, ¬c.IsPop ∧ ¬c.IsDelete
  | .disconnect => s.store.redis = [] ∧ s.calls = []

-- Every message is in one place at most, and in exactly one once the call that enqueued it has put it
-- into the queue.
structure Accounted (cfg : Config) (s : State) : Prop where
  single : ∀ id, s.fates id + waiting id s.calls ≤ 1
  bounded : ∀ id ≥ s.next, s.fates id + waiting id s.calls = 0
  returned : ∀ r ∈ s.enqueued, s.fates r.1 = 1
  pushed : ∀ x dropped, .expire x dropped ∈ s.calls → s.fates x.id = 1
  fallback : s.store.fallback = []
  memory : s.store.connected → s.store.memory = []
  redis : ¬s.store.connected → s.store.redis = [] ∧ s.calls = []
  full : ∀ x, .lpop x ∈ s.calls → cfg.maxPerDevice ≤ s.store.redis.length
  drain : ∀ caller raw, .delete caller raw ∈ s.calls → raw = s.store.redis
  drains : s.calls.Pairwise fun c d => ¬(c.IsDelete ∧ d.IsDelete)

structure Initial (s : State) : Prop where
  calls : s.calls = []
  ids : (s.store.redis.map Item.id).Nodup
  bounded : ∀ x ∈ s.store.redis, x.id < s.next
  enqueued : ∀ r ∈ s.enqueued, r.1 ∈ s.store.redis.map Item.id
  fallback : s.store.fallback = []
  memory : s.store.memory = []
  redis : ¬s.store.connected → s.store.redis = []
  drained : s.drained = []
  evicted : s.evicted = []
  expired : s.expired = []

section Count

variable (id : Nat) (xs ys : List Item)

@[simp]
theorem count_nil : count id [] = 0 :=
  rfl

@[simp]
theorem count_append : count id (xs ++ ys) = count id xs + count id ys :=
  List.countP_append

theorem count_singleton (x : Item) : count id [x] = if x.id = id then 1 else 0 := by
  simp [count, List.countP_cons]

@[simp]
theorem count_sortByPriority : count id (sortByPriority xs) = count id xs :=
  (List.perm_insertionSort _ xs).countP_eq _

theorem count_filter_add (p : Item → Bool) :
    count id (xs.filter fun x => !p x) + count id (xs.filter p) = count id xs := by
  induction xs
  case nil => rfl
  case cons x xs hi =>
    simp only [count, List.filter_cons, List.countP_cons] at hi ⊢
    cases p x <;> simp [List.countP_cons] <;> omega

theorem count_take_add_tail : count id (xs.take 1) + count id xs.tail = count id xs := by
  rw [← count_append]
  cases xs <;> rfl

theorem count_eq_one (hn : (xs.map Item.id).Nodup) {x : Item} (hx : x ∈ xs) : count x.id xs = 1 := by
  have h := List.count_eq_one_of_mem hn (List.mem_map_of_mem hx)
  rwa [List.count_eq_countP, List.countP_map, List.countP_congr] at h
  simp

theorem count_eq_zero_iff {id : Nat} {xs : List Item} : count id xs = 0 ↔ id ∉ xs.map Item.id := by
  simp [count, List.countP_eq_zero]

theorem waiting_append (cs ds : List Call) :
    waiting id (cs ++ ds) = waiting id cs + waiting id ds := by
  simp only [waiting, List.filterMap_append, count_append]

theorem waiting_singleton (c : Call) :
    waiting id [c] = if ∃ x, c.waiting = some x ∧ x.id = id then 1 else 0 := by
  simp only [waiting, List.filterMap_cons, List.filterMap_nil]
  cases c.waiting <;> simp [count_singleton]

theorem waiting_cons (c : Call) (cs : List Call) :
    waiting id (c :: cs) = waiting id [c] + waiting id cs :=
  waiting_append id [c] cs

end Count

variable {cfg : Config} {s s' : State} {cs : List Call} {c : Call} {x : Item}

def Fresh (s : State) (x : Item) : Prop :=
  s.fates x.id + waiting x.id s.calls = 0 ∧ x.id < s.next

-- What does not move messages between the queue and the calls, nor loses or copies one.
theorem Accounted.of_fates (h : Accounted cfg s) (hc : s'.calls = s.calls) (hn : s'.next = s.next)
    (he : s'.enqueued = s.enqueued) (hf : ∀ id, s'.fates id = s.fates id)
    (fallback : s'.store.fallback = []) (memory : s'.store.connected → s'.store.memory = [])
    (redis : ¬s'.store.connected → s'.store.redis = [] ∧ s.calls = [])
    (full : ∀ x, .lpop x ∈ s.calls → cfg.maxPerDevice ≤ s'.store.redis.length)
    (drain : ∀ caller raw, .delete caller raw ∈ s.calls → raw = s'.store.redis) :
    Accounted cfg s' where
  single id := by rw [hf, hc]; exact h.single id
  bounded id hid := by rw [hf, hc]; exact h.bounded id (hn ▸ hid)
  returned r hr := by rw [hf]; exact h.returned r (he ▸ hr)
  pushed x d hx := by rw [hf]; exact h.pushed x d (hc ▸ hx)
  fallback := fallback
  memory := memory
  redis := hc ▸ redis
  full := hc ▸ full
  drain := hc ▸ drain
  drains := hc ▸ h.drains

theorem Accounted.erase (h : Accounted cfg { s with calls := c :: cs }) :
    Accounted cfg { s with calls := cs } where
  single id := by
    have hs := h.single id
    rw [waiting_cons, add_left_comm] at hs
    exact le_of_add_le_right hs
  bounded id hid := by
    have hb := h.bounded id hid
    rw [waiting_cons, add_left_comm] at hb
    exact (Nat.add_eq_zero_iff.mp hb).right
  returned := h.returned
  pushed x d hx := h.pushed x d (.tail _ hx)
  fallback := h.fallback
  memory := h.memory
  redis hc := by simpa using h.redis hc
  full x hx := h.full x (.tail _ hx)
  drain d r hr := h.drain d r (.tail _ hr)
  drains := (List.pairwise_cons.mp h.drains).right

theorem Accounted.fresh (h : Accounted cfg { s with calls := c :: cs })
    {x : Item} (hx : c.waiting = some x) : Fresh { s with calls := cs } x := by
  have hw : waiting x.id [c] = 1 := by rw [waiting_singleton, if_pos ⟨x, hx, rfl⟩]
  have hs : s.fates x.id + waiting x.id (c :: cs) ≤ 1 := h.single x.id
  rw [waiting_cons, hw] at hs
  refine ⟨show s.fates x.id + waiting x.id cs = 0 by omega, not_le.mp fun hl => ?_⟩
  have hb : s.fates x.id + waiting x.id (c :: cs) = 0 := h.bounded x.id hl
  rw [waiting_cons, hw] at hb
  omega

theorem Accounted.spawn (h : Accounted cfg s) (hc : s.store.connected)
    (fresh : ∀ x, c.waiting = some x → Fresh s x)
    (pushed : ∀ x dropped, c = .expire x dropped → s.fates x.id = 1)
    (full : ∀ x, c = .lpop x → cfg.maxPerDevice ≤ s.store.redis.length)
    (drain : ∀ caller raw, c = .delete caller raw → raw = s.store.redis ∧
      ∀ d ∈ s.calls, ¬d.IsDelete) :
    Accounted cfg (s.spawn c) := by
  have hf (id : Nat) : (s.spawn c).fates id = s.fates id := rfl
  have hw (id : Nat) : waiting id (s.spawn c).calls = waiting id s.calls + waiting id [c] :=
    waiting_append id s.calls [c]
  refine ⟨fun id => ?_, fun id hid => ?_, h.returned, fun x d hx => ?_, h.fallback, h.memory,
    fun hn => absurd hc hn, fun x hx => ?_, fun d r hr => ?_, ?_⟩
  · rw [hf, hw, waiting_singleton]
    split
    case isTrue he =>
      obtain ⟨x, hx, rfl⟩ := he
      have := (fresh x hx).left
      omega
    case isFalse => exact h.single id
  · rw [hf, hw, waiting_singleton, if_neg]
    case hnc =>
      rintro ⟨x, hx, rfl⟩
      exact absurd (fresh x hx).right (not_lt.mpr hid)
    exact h.bounded id hid
  · cases List.mem_append.mp hx
    case inl hx => exact h.pushed x d hx
    case inr hx => exact pushed x d (List.mem_singleton.mp hx).symm
  · cases List.mem_append.mp hx
    case inl hx => exact h.full x hx
    case inr hx => exact full x (List.mem_singleton.mp hx).symm
  · cases List.mem_append.mp hr
    case inl hr => exact h.drain d r hr
    case inr hr => exact (drain d r (List.mem_singleton.mp hr).symm).left
  · refine List.pairwise_append.mpr ⟨h.drains, List.pairwise_singleton .., fun d hd e he => ?_⟩
    rw [List.mem_singleton.mp he]
    cases c
    case delete caller raw => exact fun hn => (drain caller raw rfl).right d hd hn.left
    all_goals exact fun hn => hn.right

theorem Accounted.of_perm {cs ds : List Call} (h : Accounted cfg { s with calls := cs })
    (hp : cs.Perm ds) : Accounted cfg { s with calls := ds } := by
  have hw (id : Nat) : waiting id ds = waiting id cs := (hp.filterMap _).countP_eq _ |>.symm
  exact {
    single := fun id => (hw id).symm ▸ h.single id
    bounded := fun id hid => (hw id).symm ▸ h.bounded id hid
    returned := h.returned
    pushed := fun x d hx => h.pushed x d (hp.mem_iff.mpr hx)
    fallback := h.fallback
    memory := h.memory
    redis := fun hc => (h.redis hc).imp_right fun (he : cs = []) => (he ▸ hp).nil_eq.symm
    full := fun x hx => h.full x (hp.mem_iff.mpr hx)
    drain := fun d r hr => h.drain d r (hp.mem_iff.mpr hr)
    drains := (hp.pairwise_iff fun hn h => hn h.symm).mp h.drains
  }

section Evict

variable (s : State) (xs : List Item)

@[simp]
theorem store_evict : (s.evict cfg xs).store = s.store := by
  unfold State.evict
  split <;> rfl

@[simp]
theorem calls_evict : (s.evict cfg xs).calls = s.calls := by
  unfold State.evict
  split <;> rfl

@[simp]
theorem next_evict : (s.evict cfg xs).next = s.next := by
  unfold State.evict
  split <;> rfl

@[simp]
theorem enqueued_evict : (s.evict cfg xs).enqueued = s.enqueued := by
  unfold State.evict
  split <;> rfl

@[simp]
theorem drained_evict : (s.evict cfg xs).drained = s.drained := by
  unfold State.evict
  split <;> rfl

end Evict

theorem fates_evict (s : State) {xs : List Item} (hl : cfg.maxPerDevice ≤ xs.length) (id : Nat) :
    (s.evict cfg xs).fates id = s.fates id + count id (xs.take 1) := by
  simp only [State.evict, if_pos hl, State.fates, count_append]
  omega

theorem fates_deliver (caller : Nat) (now : Int) (s : State) (xs : List Item) (id : Nat) :
    (s.deliver caller now xs).fates id = s.fates id + count id xs := by
  have := count_filter_add id xs (·.isExpired now)
  simp only [State.deliver, State.fates, List.flatMap_append, List.flatMap_cons, List.flatMap_nil,
    List.append_nil, count_append, count_sortByPriority]
  omega

namespace Store

variable {st : Store} {ok : Bool}

theorem list_true (hc : st.connected) : st.list true = st.redis := by
  simp [list, hc]

theorem list_false (hf : st.fallback = []) : st.list false = [] := by
  simp [list, hf]

theorem queue_of_connected (hc : st.connected) : st.queue = st.redis := by
  simp [queue, hc]

theorem setList_true (hc : st.connected) (xs : List Item) :
    st.setList true xs =
      { st with redis := xs, expireAt := if xs = [] then none else st.expireAt } := by
  simp [setList, hc]

theorem setList_false (hf : st.fallback = []) : st.setList false [] = st := by
  cases st
  simp_all [setList]

end Store

theorem fates_setList_true (hc : s.store.connected) (xs : List Item) (id : Nat) :
    { s with store := s.store.setList true xs }.fates id + count id s.store.redis =
      s.fates id + count id xs := by
  simp only [State.fates, Store.setList_true hc, Store.queue, hc, if_true]
  omega

theorem Accounted.pop (h : Accounted cfg s) (hc : s.store.connected) {ok : Bool}
    (hl : cfg.maxPerDevice ≤ s.store.redis.length)
    (ho : ok → ∀ c ∈ s.calls, ¬c.IsPop ∧ ¬c.IsDelete) {t : State}
    (ht : { s.evict cfg (s.store.list ok) with
      store := s.store.setList ok (s.store.list ok).tail } = t) :
    Accounted cfg t ∧ ∀ id, t.fates id = s.fates id := by
  cases ok
  case false =>
    rw [Store.list_false h.fallback, List.tail_nil, Store.setList_false h.fallback] at ht
    have he : s.evict cfg [] = s := by simp [State.evict]
    rw [he] at ht
    exact ht ▸ ⟨h, fun _ => rfl⟩
  case true =>
    have ho := ho rfl
    rw [Store.list_true hc] at ht
    have hf (id : Nat) : t.fates id = s.fates id := by
      have h₁ := fates_evict s hl id
      have h₂ := fates_setList_true (s := s.evict cfg s.store.redis) (by simpa using hc)
        s.store.redis.tail id
      have h₃ := count_take_add_tail id s.store.redis
      rw [store_evict, ht] at h₂
      omega
    rw [Store.setList_true hc] at ht
    subst ht
    refine ⟨h.of_fates ?_ ?_ ?_ hf h.fallback h.memory (fun hn => absurd hc hn) ?_ ?_, hf⟩
    · simp
    · simp
    · simp
    · exact fun x hx => absurd trivial (ho _ hx).left
    · exact fun d r hr => absurd trivial (ho _ hr).right

-- What puts a message that was nowhere yet into one place.
theorem Accounted.of_added (h : Accounted cfg s) (hx : Fresh s x)
    (hf : ∀ id, s'.fates id = s.fates id + if x.id = id then 1 else 0) (hc : s'.calls = s.calls)
    (hn : s'.next = s.next) (he : s'.enqueued = s.enqueued) (fallback : s'.store.fallback = [])
    (memory : s'.store.connected → s'.store.memory = [])
    (redis : ¬s'.store.connected → s'.store.redis = [] ∧ s.calls = [])
    (full : ∀ x, .lpop x ∈ s.calls → cfg.maxPerDevice ≤ s'.store.redis.length)
    (drain : ∀ caller raw, .delete caller raw ∈ s.calls → raw = s'.store.redis) :
    Accounted cfg s' ∧ s'.fates x.id = 1 := by
  have hz := hx.left
  have hne (id : Nat) (h : s.fates id = 1) : x.id ≠ id := fun he => by
    rw [he, h] at hz
    omega
  refine ⟨⟨fun id => ?_, fun id hid => ?_, fun r hr => ?_, fun y d hy => ?_, fallback, memory,
    hc ▸ redis, hc ▸ full, hc ▸ drain, hc ▸ h.drains⟩, ?_⟩
  · rw [hf, hc]
    split
    case isTrue he => subst he; omega
    case isFalse => exact h.single id
  · have hl := hx.right
    rw [hn] at hid
    rw [hf, if_neg (by omega), hc]
    exact h.bounded id hid
  · have hr := h.returned r (he ▸ hr)
    rw [hf, if_neg (hne _ hr), hr]
  · have hy := h.pushed y d (hc ▸ hy)
    rw [hf, if_neg (hne _ hy), hy]
  · rw [hf, if_pos rfl]
    omega

theorem Accounted.push (h : Accounted cfg s) (hc : s.store.connected) (hx : Fresh s x)
    (ho : ∀ c ∈ s.calls, ¬c.IsDelete) {t : State}
    (ht : { s with store := s.store.setList true (s.store.list true ++ [x]) } = t) :
    Accounted cfg t ∧ t.fates x.id = 1 := by
  have hf (id : Nat) : t.fates id = s.fates id + if x.id = id then 1 else 0 := by
    have := fates_setList_true hc (s.store.list true ++ [x]) id
    rw [count_append, count_singleton, Store.list_true hc] at this
    rw [← ht, Store.list_true hc]
    omega
  rw [Store.list_true hc, Store.setList_true hc] at ht
  subst ht
  refine h.of_added hx hf rfl rfl rfl h.fallback h.memory (fun hn => absurd hc hn) (fun y hy => ?_)
    fun d r hr => absurd trivial (ho (.delete d r) hr)
  have := h.full y hy
  simp only [List.length_append]
  omega

theorem Accounted.take (h : Accounted cfg s) (hc : s.store.connected)
    (ho : ∀ c ∈ s.calls, ¬c.IsPop ∧ ¬c.IsDelete) (caller : Nat) (now : Int) :
    Accounted cfg { s.deliver caller now s.store.redis with store := s.store.setList true [] } := by
  refine h.of_fates rfl rfl rfl (fun id => ?_) ?_ ?_ ?_ ?_ ?_
  · have h₁ := fates_deliver caller now s s.store.redis id
    have h₂ := fates_setList_true (s := s.deliver caller now s.store.redis) hc [] id
    simp only [State.deliver, count_nil] at h₁ h₂ ⊢
    omega
  · rw [Store.setList_true hc]; exact h.fallback
  · rw [Store.setList_true hc]; exact h.memory
  · rw [Store.setList_true hc]; exact fun hn => absurd hc hn
  · exact fun x hx => absurd trivial (ho _ hx).left
  · exact fun d r hr => absurd trivial (ho _ hr).right

theorem Accounted.returns (h : Accounted cfg s) {id : Nat} (hf : s.fates id = 1) (queued : Bool) :
    Accounted cfg { s with enqueued := s.enqueued ++ [(id, queued)] } where
  single := h.single
  bounded := h.bounded
  returned r hr := by
    cases List.mem_append.mp hr
    case inl hr => exact h.returned r hr
    case inr hr => rw [List.mem_singleton.mp hr]; exact hf
  pushed := h.pushed
  fallback := h.fallback
  memory := h.memory
  redis := h.redis
  full := h.full
  drain := h.drain
  drains := h.drains

theorem Accounted.expire (h : Accounted cfg s) (ok : Bool) (t : Int) :
    Accounted cfg { s with store := s.store.expire ok t } := by
  unfold Store.expire
  split <;> exact h.of_fates rfl rfl rfl (fun _ => rfl) h.fallback h.memory h.redis h.full h.drain

theorem fates_expire (s : State) (ok : Bool) (t : Int) (id : Nat) :
    { s with store := s.store.expire ok t }.fates id = s.fates id := by
  unfold Store.expire
  split <;> rfl

theorem Accounted.resume {ok : Bool} (now : Int)
    (h : Accounted cfg { s with calls := c :: cs }) (ho : c.Orderly ok cs) :
    Accounted cfg ({ s with calls := cs }.resume cfg ok now c) := by
  have hc : s.store.connected := by
    by_contra hn
    exact absurd (h.redis hn).right (by simp)
  have he := h.erase
  cases c
  case llen x =>
    simp only [State.resume]
    split
    case isTrue hl =>
      refine he.spawn hc (fun y hy => h.fresh hy) nofun (fun y _ => ?_) nofun
      cases ok
      case false => rw [Store.list_false h.fallback, List.length_nil] at hl; omega
      case true => rwa [Store.list_true hc] at hl
    case isFalse => exact he.spawn hc (fun y hy => h.fresh hy) nofun nofun nofun
  case lpop x =>
    have ⟨ht, hf⟩ := he.pop hc (h.full x (.head _)) ho rfl
    simp only [State.resume, store_evict]
    refine ht.spawn (c := .rpush x true) ?_ (fun y hy => ?_) nofun nofun nofun
    · cases ok
      case false =>
        rw [Store.list_false h.fallback, List.tail_nil, Store.setList_false h.fallback]
        exact hc
      case true => rw [Store.setList_true hc]; exact hc
    · have hy : Fresh { s with calls := cs } y := h.fresh hy
      refine ⟨?_, by simpa using hy.right⟩
      rw [hf]
      simpa using hy.left
  case rpush x dropped =>
    obtain ⟨rfl, ho⟩ := ho
    have ⟨ht, hf⟩ := he.push hc (h.fresh rfl) ho rfl
    refine ht.spawn (c := .expire x dropped) ?_ nofun (fun y d hy => ?_) nofun nofun
    · rw [Store.setList_true hc]; exact hc
    · cases hy; exact hf
  case expire x dropped =>
    refine (he.expire ok (now + cfg.messageTtl)).returns ?_ (!dropped)
    rw [fates_expire]
    exact h.pushed x dropped (.head _)
  case lrange caller =>
    simp only [State.resume]
    split
    case h_1 =>
      refine he.of_fates rfl rfl rfl (fun id => ?_) h.fallback h.memory (fun hn => absurd hc hn)
        he.full he.drain
      simp [State.fates]
    case h_2 hr =>
      cases ok
      case false => exact absurd (Store.list_false h.fallback) hr
      case true =>
        rw [Store.list_true hc]
        exact he.spawn hc nofun nofun nofun fun d r hr => by
          cases hr
          exact ⟨rfl, ho rfl⟩
  case delete caller raw =>
    obtain ⟨rfl, ho⟩ := ho
    obtain rfl : raw = s.store.redis := h.drain caller raw (.head _)
    have hd := (List.pairwise_cons.mp h.drains).left
    exact he.take hc (fun c hc => ⟨ho c hc, fun hn => hd c hc ⟨trivial, hn⟩⟩) caller now

theorem Accounted.remember (h : Accounted cfg s) (hc : ¬s.store.connected)
    (hx : Fresh s x) : Accounted cfg (s.remember cfg x) ∧ (s.remember cfg x).fates x.id = 1 := by
  have hf (id : Nat) : (s.remember cfg x).fates id = s.fates id + if x.id = id then 1 else 0 := by
    have ht := count_take_add_tail id s.store.memory
    simp only [State.remember, State.fates, State.evict, Store.queue, hc, Bool.false_eq_true,
      if_false, count_append, count_singleton]
    split
    case isTrue => simp only [count_append]; omega
    case isFalse => omega
  refine h.of_added hx hf ?_ ?_ ?_ h.fallback (fun hn => absurd hn hc) h.redis h.full h.drain
  all_goals simp [State.remember]

theorem Accounted.enqueue (h : Accounted cfg s) (priority : Int) (message : Value) (now : Int)
    (expiresAt : Option Int) : Accounted cfg (s.enqueue cfg priority message now expiresAt) := by
  have hz := h.bounded s.next le_rfl
  have hn : Accounted cfg { s with next := s.next + 1 } :=
    { h with bounded := fun id hid => h.bounded id (Nat.le_of_succ_le hid) }
  simp only [State.enqueue]
  split
  case isTrue hc =>
    refine hn.spawn (c := .llen _) hc (fun x hx => ?_) nofun nofun nofun
    cases hx
    exact ⟨hz, Nat.lt_succ_self _⟩
  case isFalse hc =>
    split
    case isTrue => exact hn
    have hx : Fresh { s with next := s.next + 1 } ⟨s.next, priority, message, now, expiresAt⟩ :=
      ⟨hz, Nat.lt_succ_self _⟩
    have ⟨ha, hf⟩ := hn.remember hc hx
    exact ha.returns hf _

theorem Accounted.drainCall (h : Accounted cfg s) (caller : Nat) (now : Int) :
    Accounted cfg (s.drain caller now) := by
  unfold State.drain
  split
  case isTrue hc => exact h.spawn hc nofun nofun nofun nofun
  case isFalse hc =>
    have hr := h.redis hc
    refine h.of_fates rfl rfl rfl (fun id => ?_) h.fallback (fun _ => rfl) h.redis h.full h.drain
    have := fates_deliver caller now s s.store.memory id
    simp only [State.deliver, State.fates, Store.queue, hc, Bool.false_eq_true, if_false,
      count_nil] at this ⊢
    omega

theorem Accounted.step {a : Action} (h : Accounted cfg s) (ha : Orderly cfg s a)
    (hs : step cfg s a = some s') : Accounted cfg s' := by
  cases a <;> simp only [OfflineQueue.step, Option.some.injEq] at hs
  case enqueue priority message now =>
    obtain ⟨e, _, rfl⟩ := Option.map_eq_some_iff.mp hs
    exact h.enqueue priority message now e
  case drain caller now => exact hs ▸ h.drainCall caller now
  case resume i ok now =>
    obtain ⟨c, hc, rfl⟩ := Option.map_eq_some_iff.mp hs
    obtain ⟨hi, rfl⟩ := List.getElem?_eq_some_iff.mp hc
    exact (h.of_perm (List.getElem_cons_eraseIdx_perm hi).symm).resume now (ha _ hc)
  case lapse now =>
    have ⟨_, hs⟩ := Option.ite_none_right_eq_some.mp hs
    cases hs
    have hx : s.store.redis.filter (fun x =>
        x.isExpired now || x.enqueuedAt + cfg.messageTtl ≤ now) = s.store.redis :=
      List.filter_eq_self.mpr fun x hx => by simpa using ha.left x hx
    refine h.of_fates rfl rfl rfl (fun id => ?_) h.fallback h.memory
      (fun hc => ⟨rfl, (h.redis hc).right⟩) (fun x hx => absurd trivial (ha.right _ hx).left)
      fun d r hr => absurd trivial (ha.right _ hr).right
    simp only [State.lapse, State.fates, hx, Store.queue, count_append]
    split
    case isTrue => simp only [count_nil]; omega
    case isFalse hc => simp [(h.redis hc).left]
  case disconnect =>
    subst hs
    refine h.of_fates rfl rfl rfl (fun id => ?_) h.fallback nofun (fun _ => ha) h.full h.drain
    have hm : s.store.queue = s.store.memory := by
      unfold Store.queue
      split
      case isTrue hc => rw [ha.left, h.memory hc]
      case isFalse => rfl
    simp only [State.fates, hm]
    rfl

theorem Accounted.of_initial (h : Initial s) : Accounted cfg s := by
  have hf (id : Nat) : s.fates id = count id s.store.redis := by
    simp only [State.fates, Store.queue, h.drained, h.evicted, h.expired, h.memory]
    split
    case isTrue => simp
    case isFalse hc => simp [h.redis hc]
  have hr (id : Nat) (hid : id ∈ s.store.redis.map Item.id) : s.fates id = 1 := by
    obtain ⟨x, hx, rfl⟩ := List.mem_map.mp hid
    rw [hf, count_eq_one _ h.ids hx]
  have hz (id : Nat) (hid : id ∉ s.store.redis.map Item.id) : s.fates id = 0 := by
    rw [hf]
    exact count_eq_zero_iff.mpr hid
  refine ⟨fun id => ?_, fun id hid => ?_, fun r hr' => hr _ (h.enqueued r hr'), ?_, h.fallback,
    fun _ => h.memory, fun hc => ⟨h.redis hc, h.calls⟩, ?_, ?_, ?_⟩
  · by_cases hid : id ∈ s.store.redis.map Item.id
    case pos => simp [hr id hid, h.calls, waiting]
    case neg => simp [hz id hid, h.calls, waiting]
  · have hm : id ∉ s.store.redis.map Item.id := fun hm => by
      obtain ⟨x, hx, rfl⟩ := List.mem_map.mp hm
      exact absurd (h.bounded x hx) (not_lt.mpr hid)
    simp [hz id hm, h.calls, waiting]
  all_goals simp [h.calls]

-- Every message whose `enqueue` has returned is in exactly one place.
theorem fates_eq_one {as : List Action} (hi : Initial s)
    (h : Transition.Steps (step cfg) (Orderly cfg) s as s') :
    ∀ r ∈ s'.enqueued, s'.fates r.1 = 1 :=
  (h.invariant Accounted.step (.of_initial hi)).returned

instance : DecidablePred Call.IsPop
  | .lpop _ => isTrue trivial
  | .llen _ | .rpush _ _ | .expire _ _ | .lrange _ | .delete _ _ => isFalse id

instance : DecidablePred Call.IsDelete
  | .delete _ _ => isTrue trivial
  | .llen _ | .lpop _ | .rpush _ _ | .expire _ _ | .lrange _ => isFalse id

instance (ok : Bool) (others : List Call) : DecidablePred (Call.Orderly ok others)
  | .llen _ | .expire _ _ => isTrue trivial
  | .lpop _ => inferInstanceAs (Decidable (ok → ∀ c ∈ others, ¬c.IsPop ∧ ¬c.IsDelete))
  | .rpush _ _ => inferInstanceAs (Decidable (ok ∧ ∀ c ∈ others, ¬c.IsDelete))
  | .lrange _ => inferInstanceAs (Decidable (ok → ∀ c ∈ others, ¬c.IsDelete))
  | .delete _ _ => inferInstanceAs (Decidable (ok ∧ ∀ c ∈ others, ¬c.IsPop))

instance (s : State) : DecidablePred (Orderly cfg s)
  | .enqueue _ _ _ | .drain _ _ => isTrue trivial
  | .resume i ok _ =>
    inferInstanceAs (Decidable (∀ c ∈ s.calls[i]?, c.Orderly ok (s.calls.eraseIdx i)))
  | .lapse now =>
    inferInstanceAs <| Decidable <|
      (∀ x ∈ s.store.redis, x.isExpired now ∨ x.enqueuedAt + cfg.messageTtl ≤ now) ∧
        ∀ c ∈ s.calls, ¬c.IsPop ∧ ¬c.IsDelete
  | .disconnect => inferInstanceAs (Decidable (s.store.redis = [] ∧ s.calls = []))

def defaultConfig : Config where
  maxPerDevice := 200
  messageTtl := 86400
  parseIso8601 s := if s = "2026-01-01T00:00:00+00:00" then some 1767225600 else none

def emptyQueue : State :=
  ⟨⟨true, [], none, [], []⟩, [], 0, [], [], [], []⟩

def lockScreen : Value :=
  .dict [
    ("method", .str "lock_screen"),
    ("envelope", .dict [
      ("header", .dict [
        ("timestamp", .str "2026-01-01T00:00:00+00:00"), ("ttl_seconds", .int 300)
      ])
    ])
  ]

theorem initial_emptyQueue : Initial emptyQueue := by
  constructor <;> simp [emptyQueue]

theorem fates_eq_one_drained :
    ∃ s, Transition.Steps (step defaultConfig) (Orderly defaultConfig) emptyQueue
        [.enqueue 0 lockScreen 1767225600, .resume 0 true 1767225600, .resume 0 true 1767225600,
          .resume 0 true 1767225600, .drain 1 1767225610, .resume 0 true 1767225610,
          .resume 0 true 1767225610] s ∧
      s.enqueued = [(0, true)] ∧ s.drained.map (·.2.map Item.id) = [[0]] ∧ s.fates 0 = 1 := by
  have h : Transition.Steps (step defaultConfig) (Orderly defaultConfig) emptyQueue
      [.enqueue 0 lockScreen 1767225600, .resume 0 true 1767225600, .resume 0 true 1767225600,
        .resume 0 true 1767225600, .drain 1 1767225610, .resume 0 true 1767225610,
        .resume 0 true 1767225610] _ := .of_run rfl
  exact ⟨_, h, rfl, rfl, fates_eq_one initial_emptyQueue h (0, true) (.head _)⟩

-- A message is put into the queue after a drain has read it, and deleted by this drain.
theorem message_lost_by_drain :
    ∃ s, Transition.run (step defaultConfig) emptyQueue
        [.enqueue 0 lockScreen 1767225600, .resume 0 true 1767225600, .resume 0 true 1767225600,
          .resume 0 true 1767225600, .drain 1 1767225610, .resume 0 true 1767225610,
          .enqueue 0 lockScreen 1767225611, .resume 1 true 1767225611, .resume 1 true 1767225611,
          .resume 1 true 1767225611, .resume 0 true 1767225612] = some s ∧
      s.calls = [] ∧ s.enqueued = [(0, true), (1, true)] ∧
      s.drained.map (·.2.map Item.id) = [[0]] ∧ s.fates 1 = 0 :=
  ⟨_, rfl, rfl, rfl, rfl, rfl⟩

end Gateway.OfflineQueue
