import Quoodle.Data.StableSort
import Quoodle.Data.Window
import Quoodle.Gateway.Loads
import Quoodle.Gateway.Messages
import Quoodle.Gateway.OfflineQueue

-- What a drain returns after a sequence of calls, on each of the two paths that the queue has: texts
-- in a list of Redis, or dictionaries in memory.
namespace Gateway.OfflineQueue

open StableSort (sortBy)
open Window (last)

structure Floats where
  read : List Char → Option FloatRepr
  read_text : ∀ x : FloatRepr, read x.text = some x

-- The arguments of a call of `enqueue`, and its time.
structure Submission where
  priority : Int
  message : Value
  now : Int

structure Entry where
  priority : Int
  message : Value
  expiresAt : Option Int
  deriving DecidableEq

namespace Entry

def isExpired (t : Int) (x : Entry) : Bool :=
  x.expiresAt.any (t > ·)

def envelope (x : Entry) (now : Int) : Value :=
  .dict [("priority", .int x.priority), ("message", x.message), ("enqueued_at", .int now),
    ("expires_at", x.expiresAt.elim .none .int)]

end Entry

section Source

variable (cfg : Config)

-- There is no entry if the time of expiry cannot be computed and the call fails.
def entry (c : Submission) : Option Entry :=
  (computeExpiresAt cfg c.message).map fun expiresAt => ⟨c.priority, c.message, expiresAt⟩

-- Models `json.dumps`.
def dumpsAscii (v : Value) : List Char :=
  Json.print (.standard false (fun c => 0x7e < c.toNat) 1) Number.format v.json

def enqueueRedis (raw : List (List Char)) (c : Submission) : List (List Char) :=
  match entry cfg c with
  | none => raw
  | some x =>
    let kept := if raw.length ≥ cfg.maxPerDevice then raw.tail else raw
    kept ++ [dumpsAscii (x.envelope c.now)]

def enqueueMemory (queue : List Entry) (c : Submission) : List Entry :=
  match entry cfg c with
  | none => queue
  | some x =>
    if queue.length ≥ cfg.maxPerDevice then
      match queue with
      -- There is nothing to pop, and the call fails.
      | [] => queue
      | _ :: kept => kept ++ [x]
    else queue ++ [x]

-- Whether a time of expiry has passed. A boolean is an integer.
def hasPassed (t : Int) (expiresAt : Value) : Bool :=
  match expiresAt.json with
  | .num (.int e) => t > e
  | .bool b => t > b.toInt
  | _ => false

def asInt (v : Value) : Option Int :=
  match v.json with
  | .num (.int n) => some n
  | .bool b => some b.toInt
  | _ => none

-- What becomes of a text of the list. A text that is not JSON is left out, and what is JSON but no
-- envelope makes the drain fail.
def readEnvelope (F : Floats) (t : Int) (raw : List Char) : Option (List (Int × Value)) :=
  match Value.loads F.read raw with
  | none => some []
  | some envelope => do
    let expiresAt ← envelope.get "expires_at" .none
    if hasPassed t expiresAt then return []
    let priority ← envelope.get "priority" (.int 0)
    let message ← envelope.get "message" (.dict [])
    return [(← asInt priority, message)]

def drainRedis (F : Floats) (t : Int) (raw : List (List Char)) : Option (List Value) := do
  let messages ← raw.mapM (readEnvelope F t)
  return (sortBy Prod.fst messages.flatten).map Prod.snd

def drainMemory (t : Int) (queue : List Entry) : List Value :=
  ((sortBy Entry.priority queue).filter (!·.isExpired t)).map Entry.message

end Source

def Ordered (xs ys : List Entry) : Prop :=
  ys.Pairwise (fun x y => y.priority ≤ x.priority) ∧
    ∀ p, ys.filter (·.priority = p) = xs.filter (·.priority = p)

def due (cfg : Config) (t : Int) (cs : List Submission) : List Entry :=
  (last cfg.maxPerDevice (cs.filterMap (entry cfg))).filter (!·.isExpired t)

def Delivers (cfg : Config) (F : Floats) (t : Int) (cs : List Submission) : Prop :=
  ∃ ys, Ordered (due cfg t cs) ys ∧
    drainRedis F t (cs.foldl (enqueueRedis cfg) []) = some (ys.map Entry.message) ∧
    drainMemory t (cs.foldl (enqueueMemory cfg) []) = ys.map Entry.message

section Lossless

variable {F : Floats}

theorem read_text (F : Floats) (n : Number) : Number.read F.read n.text = some n := by
  cases n
  case int n => simp [Number.read, Number.text, Json.readInt_intText]
  case float x =>
    have hn : Json.readInt (Number.float x).text = none := x.notInt
    rw [Number.read, hn]
    exact congrArg (Option.map Number.float) (F.read_text x)

theorem loads_print (F : Floats) (st : Json.Style) (v : Value) :
    Value.loads F.read (Json.print st Number.format v.json) = some v := by
  simp only [Value.loads, Json.Dialect.read_print, Option.bind_eq_bind, Option.bind_some]
  have hn : v.json.Nums fun n => Number.read F.read (Number.format.text n) = some (id n) :=
    .of_forall (read_text F) v.json
  rw [Json.mapNum?_mapNum_of_nums hn, Json.mapNum_id, Option.bind_some]
  exact congrArg some (Value.ext (dictOf_of_distinct v.distinct))

theorem loads_dumpsAscii (F : Floats) (v : Value) : Value.loads F.read (dumpsAscii v) = some v :=
  loads_print F _ v

theorem readEnvelope_dumpsAscii (F : Floats) (t : Int) (x : Entry) (now : Int) :
    readEnvelope F t (dumpsAscii (x.envelope now)) =
      some (if x.isExpired t then [] else [(x.priority, x.message)]) := by
  have hi (k : String) : (x.envelope now).getItem k =
      [("priority", .int x.priority), ("message", x.message), ("enqueued_at", .int now),
        ("expires_at", x.expiresAt.elim .none .int)].lookup k :=
    Value.getItem_dict (by simp) k
  have he : (x.envelope now).get "expires_at" .none = some (x.expiresAt.elim .none .int) :=
    get_of_getItem (hi "expires_at")
  have hp : (x.envelope now).get "priority" (.int 0) = some (.int x.priority) :=
    get_of_getItem (hi "priority")
  have hm : (x.envelope now).get "message" (.dict []) = some x.message :=
    get_of_getItem (hi "message")
  have hx : hasPassed t (x.expiresAt.elim .none .int) = x.isExpired t := by
    rw [Entry.isExpired]
    cases x.expiresAt <;> rfl
  rw [readEnvelope, loads_dumpsAscii]
  simp only [he, hp, hm, hx, Option.bind_eq_bind, Option.bind_some]
  split <;> rfl

end Lossless

section Bounded

variable {α β γ : Type} {n : Nat}

-- Appends to a queue that holds `n` elements at most.
def push (n : Nat) (q : List α) (x : α) : List α :=
  (if q.length ≥ n then q.tail else q) ++ [x]

theorem push_last (hn : 0 < n) (xs : List α) (x : α) :
    push n (last n xs) x = last n (xs ++ [x]) := by
  have hl : (last n xs).length ≤ n := by
    rw [Window.length_last]
    omega
  rw [← Window.last_last_append]
  generalize last n xs = q at hl
  unfold push
  split
  case isTrue h =>
    cases q
    case nil => exact absurd h (Nat.not_le.mpr hn)
    case cons y q =>
      have hq : (y :: q ++ [x]).length - n = 1 := by
        simp only [List.length_cons, List.length_append, List.length_nil] at h hl ⊢
        omega
      rw [last, hq]
      rfl
  case isFalse h =>
    refine (Window.last_of_length_le ?_).symm
    rw [List.length_append, List.length_singleton]
    omega

theorem map_push (f : α → β) (q : List α) (x : α) : (push n q x).map f = push n (q.map f) (f x) := by
  unfold push
  rw [List.length_map]
  split <;> simp

end Bounded

section Paths

variable {cfg : Config} (F : Floats) (t : Int) (cs : List Submission)

def text (x : Entry × Int) : List Char :=
  dumpsAscii (x.1.envelope x.2)

def stamped (cfg : Config) (c : Submission) : Option (Entry × Int) :=
  (entry cfg c).map (·, c.now)

theorem foldl_enqueueRedis (hn : 0 < cfg.maxPerDevice) :
    cs.foldl (enqueueRedis cfg) [] =
      (last cfg.maxPerDevice (cs.filterMap (stamped cfg))).map text := by
  have hs (raw : List (List Char)) (c : Submission) : enqueueRedis cfg raw c =
      (stamped cfg c).elim raw fun x => push cfg.maxPerDevice raw (text x) := by
    unfold enqueueRedis stamped
    cases entry cfg c <;> rfl
  induction cs using List.reverseRecOn
  case nil => simp [last]
  case append_singleton cs c hi =>
    rw [List.foldl_concat, hi, hs, List.filterMap_append]
    cases hc : stamped cfg c
    case none => simp [hc]
    case some x =>
      rw [Option.elim_some, ← map_push, push_last hn]
      simp [hc]

theorem foldl_enqueueMemory (hn : 0 < cfg.maxPerDevice) :
    cs.foldl (enqueueMemory cfg) [] = last cfg.maxPerDevice (cs.filterMap (entry cfg)) := by
  have hs (queue : List Entry) (c : Submission) : enqueueMemory cfg queue c =
      (entry cfg c).elim queue (push cfg.maxPerDevice queue) := by
    unfold enqueueMemory push
    cases entry cfg c
    case none => rfl
    case some x =>
      dsimp only [Option.elim_some]
      split
      case isFalse => rfl
      case isTrue hl =>
        cases queue
        case nil => exact absurd hl (Nat.not_le.mpr hn)
        case cons => rfl
  induction cs using List.reverseRecOn
  case nil => simp [last]
  case append_singleton cs c hi =>
    rw [List.foldl_concat, hi, hs, List.filterMap_append]
    cases hc : entry cfg c
    case none => simp [hc]
    case some x =>
      rw [Option.elim_some, push_last hn]
      simp [hc]

theorem last_map {α β : Type} (n : Nat) (f : α → β) (xs : List α) :
    last n (xs.map f) = (last n xs).map f := by
  rw [last, List.length_map, last, List.map_drop]

theorem map_fst_stamped : (last cfg.maxPerDevice (cs.filterMap (stamped cfg))).map Prod.fst =
    last cfg.maxPerDevice (cs.filterMap (entry cfg)) := by
  rw [← last_map, List.map_filterMap]
  congr 2
  funext c
  unfold stamped
  cases entry cfg c <;> rfl

theorem flatten_envelopes (xs : List Entry) :
    (xs.map fun x => if x.isExpired t then [] else [(x.priority, x.message)]).flatten =
      (xs.filter (!·.isExpired t)).map fun x => (x.priority, x.message) := by
  induction xs
  case nil => rfl
  case cons x xs hi =>
    rw [List.map_cons, List.flatten_cons, hi]
    cases hx : x.isExpired t <;> simp [hx]

theorem drainRedis_map_text (xs : List (Entry × Int)) : drainRedis F t (xs.map text) =
    some ((sortBy Entry.priority ((xs.map Prod.fst).filter (!·.isExpired t))).map Entry.message) := by
  have hm : (xs.map text).mapM (readEnvelope F t) =
      some (xs.map fun x => if x.1.isExpired t then [] else [(x.1.priority, x.1.message)]) := by
    have hr (x : Entry × Int) : (readEnvelope F t ∘ text) x =
        some (if x.1.isExpired t then [] else [(x.1.priority, x.1.message)]) := by
      rw [Function.comp_apply, text, readEnvelope_dumpsAscii]
    rw [List.mapM_map]
    exact Json.mapM_eq_some_map fun x _ => hr x
  have hf := flatten_envelopes t (xs.map Prod.fst)
  rw [List.map_map] at hf
  have hs (ys : List Entry) : sortBy Prod.fst (ys.map fun x => (x.priority, x.message)) =
      (sortBy Entry.priority ys).map fun x => (x.priority, x.message) :=
    StableSort.sortBy_map (fun _ => rfl) ys
  rw [drainRedis, hm]
  simp only [Option.bind_eq_bind, Option.bind_some]
  rw [show (xs.map fun x => if x.1.isExpired t then [] else [(x.1.priority, x.1.message)]).flatten =
    _ from hf, hs, List.map_map]
  rfl

theorem delivers (hn : 0 < cfg.maxPerDevice) : Delivers cfg F t cs := by
  refine ⟨sortBy Entry.priority (due cfg t cs), ⟨StableSort.pairwise_sortBy _ _, ?_⟩, ?_, ?_⟩
  case refine_1 => exact fun p => StableSort.filter_key_sortBy p _
  case refine_2 => rw [foldl_enqueueRedis cs hn, drainRedis_map_text, map_fst_stamped, due]
  case refine_3 => rw [foldl_enqueueMemory cs hn, drainMemory, StableSort.filter_sortBy, due]

def exampleConfig (maxPerDevice : Nat) : Config :=
  ⟨maxPerDevice, 86400, fun _ => none⟩

def exampleFloats : Floats where
  read t := if h : Json.IsNumber t ∧ Json.readInt t = none then some ⟨t, h.left, h.right⟩ else none
  read_text x := dif_pos ⟨x.isNumber, x.notInt⟩

def exampleSubmission (priority : Int) (id : String) : Submission :=
  ⟨priority, .dict [("message_id", .str id)], 0⟩

theorem delivers_two : Delivers (exampleConfig 2) exampleFloats 0
    [exampleSubmission 0 "a", exampleSubmission 0 "b", exampleSubmission 5 "c"] :=
  delivers exampleFloats 0 _ (by decide)

-- A queue for no messages at all keeps one in Redis.
theorem kept_one : ¬Delivers (exampleConfig 0) exampleFloats 0 [exampleSubmission 0 "a"] := by
  rintro ⟨ys, ⟨-, ho⟩, hr, -⟩
  have hy : ys = [] := by
    refine List.eq_nil_iff_forall_not_mem.mpr fun y hy => ?_
    have hm : y ∈ ys.filter (·.priority = y.priority) := by simpa using hy
    rw [ho y.priority] at hm
    cases hm
  have he : entry (exampleConfig 0) (exampleSubmission 0 "a") =
      some ⟨0, .dict [("message_id", .str "a")], none⟩ := by decide
  have hs : [exampleSubmission 0 "a"].foldl (enqueueRedis (exampleConfig 0)) [] =
      [(⟨0, .dict [("message_id", .str "a")], none⟩, 0)].map text := by
    rw [List.foldl_cons, List.foldl_nil, enqueueRedis, he]
    rfl
  rw [hs, drainRedis_map_text, hy] at hr
  cases hr

end Paths

end Gateway.OfflineQueue
