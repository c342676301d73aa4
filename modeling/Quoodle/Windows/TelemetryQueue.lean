import Quoodle.Data.Rows
import Quoodle.Data.StableSort

-- The telemetry that the agent stores until it can be sent. Every method holds the lock of the queue,
-- so that threads call them one after the other.
namespace Windows.TelemetryQueue

open StableSort

structure Item where
  id : Nat
  seq : Int
  payloadJson : List UInt8
  retryCount : Nat
  nextAttemptMs : Int
  createdAtMs : Int
  lastError : List UInt8
  deriving DecidableEq

namespace Item

def created (i : Item) : Int ×ₗ Nat :=
  toLex (i.createdAtMs, i.id)

def rank (i : Item) : Int ×ₗ Nat :=
  toLex (i.seq, i.id)

-- What is never changed in a row.
def content (i : Item) : Nat × Int × List UInt8 × Int :=
  (i.id, i.seq, i.payloadJson, i.createdAtMs)

end Item

-- What is bound to a statement by `c_str()`.
def terminated (text : List UInt8) : List UInt8 :=
  text.takeWhile (· ≠ 0)

-- `ORDER BY … ASC`
def ascending (key : Item → Int ×ₗ Nat) (items : List Item) : List Item :=
  sortBy (fun i => OrderDual.toDual (key i)) items

-- The table, with the last key that was given out. `AUTOINCREMENT` gives out no key again.
structure Queue where
  items : List Item
  lastId : Nat
  nodup : (items.map Item.id).Nodup
  le_lastId : ∀ i ∈ items, i.id ≤ lastId

namespace Queue

def empty : Queue :=
  ⟨[], 0, by simp, by simp⟩

def deleteIds (q : Queue) (ids : List Nat) : Queue where
  items := q.items.filter (·.id ∉ ids)
  lastId := q.lastId
  nodup := (List.filter_sublist.map _).nodup q.nodup
  le_lastId i hi := q.le_lastId i (List.mem_of_mem_filter hi)

def insert (q : Queue) (seq : Int) (payloadJson reason : List UInt8) (now : Int) : Queue where
  items := q.items ++ [⟨q.lastId + 1, seq, terminated payloadJson, 0, now, now, terminated reason⟩]
  lastId := q.lastId + 1
  nodup := by
    rw [List.map_append]
    refine Rows.nodup_append_singleton (fun h => ?_) q.nodup
    obtain ⟨i, hi, he⟩ := List.mem_map.mp h
    exact Nat.not_succ_le_self _ (he ▸ q.le_lastId i hi)
  le_lastId i hi := by
    cases List.mem_append.mp hi
    case inl hi => exact (q.le_lastId i hi).trans (Nat.le_succ _)
    case inr hi => rw [List.mem_singleton.mp hi]

def markFailed (q : Queue) (id : Nat) (error : List UInt8) (nextAttemptMs : Int) : Queue where
  items := Rows.update Item.id q.items id fun i =>
    { i with retryCount := i.retryCount + 1, nextAttemptMs, lastError := terminated error }
  lastId := q.lastId
  nodup := by
    rw [Rows.map_key_update (by intro; rfl)]
    exact q.nodup
  le_lastId i hi := by
    obtain ⟨j, hj, rfl⟩ := List.mem_map.mp hi
    have := q.le_lastId j hj
    dsimp only
    split <;> exact this

-- A negative limit is none.
def fetchBatch (q : Queue) (limit now : Int) : List Item :=
  let due := ascending Item.rank (q.items.filter (·.nextAttemptMs ≤ now))
  if limit < 0 then due else due.take limit.toNat

-- How many items have to go before another one is stored.
def excess (maxItems : Int) (q : Queue) : Nat :=
  if maxItems ≤ 0 ∨ q.items.length < maxItems then 0 else q.items.length - maxItems.toNat + 1

-- What is reported as dropped, which is cast to 32 bits, and the table. `deleted` says whether the
-- statement has succeeded.
def enforceLimit (maxItems : Int) (q : Queue) (deleted : Bool) : Int × Queue :=
  let toDelete := q.excess maxItems
  if deleted then
    (Int.bmod toDelete (2 ^ 32),
      q.deleteIds (((ascending Item.created q.items).take toDelete).map Item.id))
  else (0, q)

end Queue

inductive Action where
  | enqueue (seq : Int) (payloadJson reason : List UInt8) (now : Int) (deleted inserted : Bool)
  | deleteIds (ids : List Nat)
  | markFailed (id : Nat) (error : List UInt8) (nextAttemptMs : Int)

-- The number of items that the call reports as dropped, and the queue after it. Statements that fail
-- change nothing.
def step (maxItems : Int) (q : Queue) : Action → Int × Queue
  | .enqueue seq payloadJson reason now deleted inserted =>
    let (dropped, q) := q.enforceLimit maxItems deleted
    (dropped, if inserted then q.insert seq payloadJson reason now else q)
  | .deleteIds ids => (0, q.deleteIds ids)
  | .markFailed id error nextAttemptMs => (0, q.markFailed id error nextAttemptMs)

def run (maxItems : Int) (q : Queue) (as : List Action) : Queue :=
  as.foldl (fun q a => (step maxItems q a).2) q

variable {maxItems : Int} {q : Queue} {i j : Item}

theorem perm_ascending (key : Item → Int ×ₗ Nat) (items : List Item) :
    (ascending key items).Perm items :=
  perm_sortBy ..

theorem le_of_mem_take_drop {key : Item → Int ×ₗ Nat} {items : List Item} {n : Nat}
    (hi : i ∈ (ascending key items).take n) (hj : j ∈ (ascending key items).drop n) :
    key i ≤ key j := by
  have hp : (ascending key items).Pairwise fun i j => key i ≤ key j :=
    pairwise_sortBy (fun i => OrderDual.toDual (key i)) items
  rw [← List.take_append_drop n (ascending key items)] at hp
  exact (List.pairwise_append.mp hp).right.right i hi j hj

-- As many items are deleted as are reported, and they are the oldest ones.
theorem perm_enforceLimit (maxItems : Int) (q : Queue) :
    (q.enforceLimit maxItems true).2.items.Perm
      ((ascending Item.created q.items).drop (q.excess maxItems)) := by
  have hp := perm_ascending Item.created q.items
  have hn := (hp.map Item.id).nodup_iff.mpr q.nodup
  refine (hp.symm.filter _).trans (.of_eq ?_)
  have he := List.take_append_drop (q.excess maxItems) (ascending Item.created q.items)
  generalize (ascending Item.created q.items).take _ = old,
    (ascending Item.created q.items).drop _ = new at *
  rw [← he, List.map_append] at hn
  rw [← he, List.filter_append, List.filter_eq_nil_iff.mpr, List.filter_eq_self.mpr, List.nil_append]
  · intro i hi
    exact decide_eq_true fun h =>
      (List.nodup_append.mp hn).right.right _ h _ (List.mem_map_of_mem hi) rfl
  · intro i hi h
    exact of_decide_eq_true h (List.mem_map_of_mem hi)

theorem length_enforceLimit (maxItems : Int) (q : Queue) (deleted : Bool) :
    (q.enforceLimit maxItems deleted).2.items.length + (if deleted then q.excess maxItems else 0) =
      q.items.length := by
  cases deleted
  case false => rfl
  case true =>
    have hx : q.excess maxItems ≤ q.items.length := by
      unfold Queue.excess
      split <;> omega
    rw [(perm_enforceLimit maxItems q).length_eq, List.length_drop, (perm_ascending ..).length_eq]
    exact Nat.sub_add_cancel hx

-- What is dropped for a new item is counted, and was stored before everything that is kept.
theorem enforceLimit_first (maxItems : Int) (q : Queue) (deleted : Bool) :
    (q.enforceLimit maxItems deleted).1 =
        Int.bmod (q.items.length - (q.enforceLimit maxItems deleted).2.items.length) (2 ^ 32) ∧
      ∀ i ∈ q.items, i ∉ (q.enforceLimit maxItems deleted).2.items →
        ∀ j ∈ (q.enforceLimit maxItems deleted).2.items, i.created ≤ j.created := by
  have hl := length_enforceLimit maxItems q deleted
  cases deleted
  case false => exact ⟨by simp [Queue.enforceLimit], fun i hi hn => absurd hi hn⟩
  case true =>
    rw [if_pos rfl] at hl
    have he : (q.items.length : Int) - (q.enforceLimit maxItems true).2.items.length =
        q.excess maxItems := by
      omega
    refine ⟨by rw [he, Queue.enforceLimit, if_pos rfl], fun i hi hn j hj => ?_⟩
    have hp := perm_enforceLimit maxItems q
    refine le_of_mem_take_drop (n := q.excess maxItems) ?_ (hp.mem_iff.mp hj)
    rw [← (perm_ascending Item.created q.items).mem_iff,
      ← List.take_append_drop (q.excess maxItems) (ascending _ _)] at hi
    exact (List.mem_append.mp hi).resolve_right fun h => hn (hp.mem_iff.mpr h)

def Action.isUnlimited : Action → Bool
  | .enqueue _ _ _ _ deleted _ => !deleted
  | _ => false

theorem length_step_le (h : 0 < maxItems) (q : Queue) (a : Action) :
    (step maxItems q a).2.items.length ≤
      max q.items.length maxItems.toNat + if a.isUnlimited then 1 else 0 := by
  cases a
  case deleteIds ids => exact (List.length_filter_le ..).trans (le_max_left ..)
  case markFailed => exact (List.length_map ..).le.trans (le_max_left ..)
  case enqueue seq payloadJson reason now deleted inserted =>
    have hl := length_enforceLimit maxItems q deleted
    have hi (q : Queue) : (if inserted then q.insert seq payloadJson reason now else q).items.length ≤
        q.items.length + 1 := by
      split
      case isTrue => simp [Queue.insert]
      case isFalse => exact Nat.le_succ _
    refine (hi (q.enforceLimit maxItems deleted).2).trans ?_
    cases deleted
    case false => exact Nat.add_le_add_right (le_max_left ..) 1
    case true =>
      simp only [Action.isUnlimited, Bool.not_true, Bool.false_eq_true, if_false]
      rw [if_pos rfl, Queue.excess] at hl
      split at hl <;> omega

-- A deletion that fails makes room for one item more at most.
theorem length_run_le (h : 0 < maxItems) (q : Queue) (as : List Action) :
    (run maxItems q as).items.length ≤
      max q.items.length maxItems.toNat + as.countP Action.isUnlimited := by
  induction as generalizing q
  case nil => exact le_max_left ..
  case cons a as hi =>
    have hs := length_step_le h q a
    have hr := hi (step maxItems q a).2
    rw [List.countP_cons]
    exact hr.trans (by omega)

def twoStored : List Action :=
  [.enqueue 7 [1] [] 0 true true, .enqueue 8 [2] [] 1 true true]

-- The third and the fourth item each take the place of one of two.
theorem length_run_le_evicted :
    (run 2 .empty (twoStored ++ twoStored)).items.map Item.id = [2, 4] ∧
      (run 2 .empty (twoStored ++ twoStored)).items.length ≤
        max 0 2 + (twoStored ++ twoStored).countP Action.isUnlimited :=
  ⟨by decide, length_run_le (by decide) _ _⟩

theorem mem_of_mem_enforceLimit {deleted : Bool} (h : i ∈ (q.enforceLimit maxItems deleted).2.items) :
    i ∈ q.items := by
  cases deleted
  case false => exact h
  case true => exact List.mem_of_mem_filter h

theorem lastId_enforceLimit (maxItems : Int) (q : Queue) (deleted : Bool) :
    (q.enforceLimit maxItems deleted).2.lastId = q.lastId := by
  cases deleted <;> rfl

theorem lastId_le_step (a : Action) : q.lastId ≤ (step maxItems q a).2.lastId := by
  cases a
  case deleteIds => exact le_rfl
  case markFailed => exact le_rfl
  case enqueue _ _ _ _ deleted inserted =>
    have hl := lastId_enforceLimit maxItems q deleted
    cases inserted
    case false => exact hl.ge
    case true => exact hl.ge.trans (Nat.le_succ _)

theorem content_mem_of_step {a : Action} (hj : j ∈ (step maxItems q a).2.items)
    (hl : j.id ≤ q.lastId) : j.content ∈ q.items.map Item.content := by
  cases a
  case deleteIds ids => exact List.mem_map_of_mem (List.mem_of_mem_filter hj)
  case markFailed id error next =>
    obtain ⟨i, hi, rfl⟩ := List.mem_map.mp hj
    refine List.mem_map.mpr ⟨i, hi, ?_⟩
    split <;> rfl
  case enqueue _ _ _ _ deleted inserted =>
    cases inserted
    case false => exact List.mem_map_of_mem (mem_of_mem_enforceLimit hj)
    case true =>
      cases List.mem_append.mp hj
      case inl hj => exact List.mem_map_of_mem (mem_of_mem_enforceLimit hj)
      case inr hj =>
        rw [List.mem_singleton.mp hj, ← lastId_enforceLimit maxItems q deleted] at hl
        exact absurd hl (Nat.not_succ_le_self _)

theorem content_mem_of_run {as : List Action} (hj : j ∈ (run maxItems q as).items)
    (hl : j.id ≤ q.lastId) : j.content ∈ q.items.map Item.content := by
  induction as generalizing q
  case nil => exact List.mem_map_of_mem hj
  case cons a as hi =>
    obtain ⟨k, hk, he⟩ := List.mem_map.mp (hi hj (hl.trans (lastId_le_step a)))
    have hid : k.id = j.id := congrArg Prod.fst he
    exact he ▸ content_mem_of_step hk (hid ▸ hl)

theorem mem_of_mem_fetchBatch {limit now : Int} (hi : i ∈ q.fetchBatch limit now) : i ∈ q.items := by
  have hm : i ∈ ascending Item.rank (q.items.filter (·.nextAttemptMs ≤ now)) := by
    unfold Queue.fetchBatch at hi
    split at hi
    case isTrue => exact hi
    case isFalse => exact List.mem_of_mem_take hi
  exact List.mem_of_mem_filter ((perm_ascending ..).mem_iff.mp hm)

-- However many items were stored, sent or dropped since a batch was fetched, nothing but what is in
-- the batch is deleted with it.
theorem deleteIds_fetched {limit now : Int} {as : List Action}
    (hj : j ∈ (run maxItems q as).items)
    (hd : j ∉ ((run maxItems q as).deleteIds ((q.fetchBatch limit now).map Item.id)).items) :
    j.content ∈ (q.fetchBatch limit now).map Item.content := by
  have hm : j.id ∈ (q.fetchBatch limit now).map Item.id := by
    by_contra hn
    exact hd (List.mem_filter.mpr ⟨hj, decide_eq_true hn⟩)
  obtain ⟨i, hi, he⟩ := List.mem_map.mp hm
  have hq := mem_of_mem_fetchBatch hi
  obtain ⟨k, hk, hc⟩ := List.mem_map.mp (content_mem_of_run hj (he ▸ q.le_lastId i hq))
  have hid : k.id = j.id := congrArg Prod.fst hc
  rw [← hc, List.inj_on_of_nodup_map q.nodup hk hq (hid.trans he.symm)]
  exact List.mem_map_of_mem hi

theorem deleteIds_fetched_failed :
    (2, 8, [2], 1) ∈ ((run 2 .empty twoStored).fetchBatch 5 9).map Item.content :=
  have hj : ⟨2, 8, [2], 1, 20, 1, []⟩ ∈
      (run 2 (run 2 .empty twoStored) [.markFailed 2 [] 20]).items := by decide
  deleteIds_fetched hj (by decide)

end Windows.TelemetryQueue
