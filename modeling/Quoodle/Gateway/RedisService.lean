import Quoodle.Data.Redis

-- The dictionary that the gateway uses if there is no Redis server. Keys have their label already.
namespace Gateway.RedisService

open Redis (Data Store Command Reply range)
open Redis (exec put replies)

structure Python where
  -- What `int` makes of a text.
  parseInt : String → Option Int
  parseInt_intText : ∀ n, parseInt (.ofList (Json.intText n)) = some n
  -- The member that `set.pop` removes.
  pick : Finset String → String

variable {α : Type}

-- Models `xs[start:stop]`, where both ends are cut off at those of the list.
def slice (xs : List α) (start stop : Int) : List α :=
  let index (i : Int) : Nat := if i < 0 then (xs.length + i).toNat else min i.toNat xs.length
  (xs.drop (index start)).take (index stop - index start)

def inclusiveSlice (xs : List α) (start stop : Int) : List α :=
  if stop = -1 then slice xs start xs.length else slice xs start (stop + 1)

-- Models `len`.
def length : Data → Nat
  | .str s => s.length
  | .hash fs => fs.length
  | .list xs => xs.length
  | .set xs => xs.card

def eraseAll {σ κ : Type} (has : σ → κ → Bool) (erase : σ → κ → σ) (s : σ) (ks : List κ) : σ × Nat :=
  ks.foldl (fun (s, count) k => if has s k then (erase s k, count + 1) else (s, count)) (s, 0)

def hasKey (s : Store) (k : String) : Bool :=
  (s k).isSome

def eraseKey (s : Store) (k : String) : Store :=
  Function.update s k none

def hasField (fs : List (String × String)) (k : String) : Bool :=
  k ∈ Json.keys fs

def eraseField (fs : List (String × String)) (k : String) : List (String × String) :=
  fs.filter (·.1 ≠ k)

def side (left : Bool) (xs : List String) : List String :=
  if left then xs else xs.reverse

section Commands

variable (py : Python)

def popMembers : Nat → Finset String → List String × Finset String
  | 0, xs => ([], xs)
  | n + 1, xs =>
    let x := py.pick xs
    let (result, rest) := popMembers n (xs.erase x)
    (x :: result, rest)

-- Models `pop(0)` or `pop()`, called a number of times. Sets have only the second.
def popTimes (left : Bool) (n : Nat) : Data → Option (List String × Data)
  | .list xs => some ((side left xs).take n, .list (side left ((side left xs).drop n)))
  | .set xs => if left then none else some ((popMembers py n xs).1, .set (popMembers py n xs).2)
  | .str _ | .hash _ => none

def pop (left : Bool) (s : Store) (key : String) (count : Option Int) : Store × Reply :=
  let lst := (s key).getD (.list [])
  if length lst = 0 then (s, .nil)
  else
    let n := count.elim 1 fun c => min c.toNat (length lst)
    if n = 0 then (s, .nil)
    else
      match popTimes py left n lst with
      | none => (s, .error)
      | some (result, rest) =>
        (Function.update s key (some rest),
          match count with
          | none => .data (.str (result.headD ""))
          | some _ => .data (.list result))

def fallback (s : Store) : Command → Store × Reply
  | .set key value nx xx =>
    if nx && (s key).isSome then (s, .bool false)
    else if xx && (s key).isNone then (s, .bool false)
    else (Function.update s key (some (.str value)), .bool true)
  | .get key => (s, (s key).elim .nil .data)
  | .delete keys =>
    let (s, count) := eraseAll hasKey eraseKey s keys
    (s, .int count)
  | .exist keys => (s, .int (keys.countP (hasKey s)))
  | .incr key =>
    match (match s key with
      | none => some 0
      | some (.str t) => py.parseInt t
      | some _ => none) with
    | none => (s, .error)
    | some n =>
      (Function.update s key (some (.str (.ofList (Json.intText (n + 1))))), .int (n + 1))
  | .hset key field value =>
    match (s key).getD (.hash []) with
    | .hash fs =>
      (Function.update s key (some (.hash (Json.assign field value fs))),
        .int (if field ∈ Json.keys fs then 0 else 1))
    | _ => (s, .error)
  | .hget key field =>
    match (s key).getD (.hash []) with
    | .hash fs => (s, (fs.lookup field).elim .nil fun v => .data (.str v))
    | _ => (s, .nil)
  | .hgetall key =>
    match (s key).getD (.hash []) with
    | .hash fs => (s, .data (.hash fs))
    | _ => (s, .data (.hash []))
  | .hdel key fields =>
    match s key with
    | some (.hash fs) =>
      let (fs, count) := eraseAll hasField eraseField fs fields
      (Function.update s key (some (.hash fs)), .int count)
    | _ => (s, .int 0)
  | .lpush key values =>
    match (s key).getD (.list []) with
    | .list xs =>
      let xs := values.reverse.foldl (fun xs v => v :: xs) xs
      (Function.update s key (some (.list xs)), .int xs.length)
    | d => (s, if values = [] then .int (length d) else .error)
  | .rpush key values =>
    match (s key).getD (.list []) with
    | .list xs =>
      (Function.update s key (some (.list (xs ++ values))), .int (xs ++ values).length)
    | _ => (s, .error)
  | .lpop key count => pop py true s key count
  | .rpop key count => pop py false s key count
  | .lrange key start stop =>
    match (s key).getD (.list []) with
    | .list xs => (s, .data (.list (inclusiveSlice xs start stop)))
    | .str t => (s, .data (.str (.ofList (inclusiveSlice t.toList start stop))))
    | _ => (s, .error)
  | .llen key =>
    match (s key).getD (.list []) with
    | .list xs => (s, .int xs.length)
    | _ => (s, .int 0)
  | .ltrim key start stop =>
    match (s key).getD (.list []) with
    | .list xs => (Function.update s key (some (.list (inclusiveSlice xs start stop))), .bool true)
    | _ => (s, .bool true)
  | .sadd key members =>
    match (s key).getD (.set ∅) with
    | .set xs =>
      (Function.update s key (some (.set (xs ∪ members.toFinset))),
        .int (members.toFinset \ xs).card)
    | _ => (s, .error)
  | .srem key members =>
    match s key with
    | some (.set xs) =>
      (Function.update s key (some (.set (xs \ members.toFinset))),
        .int (members.toFinset ∩ xs).card)
    | _ => (s, .int 0)

end Commands

-- The value, if there is one, is of the type that a command is for, and some of it is left.
def fitsPop (s : Store) (key : String) (count : Option Int) : Bool :=
  match s key with
  | none => count.all (0 ≤ ·)
  | some (.list xs) => count.elim (1 < xs.length) fun c => 0 < c && c < xs.length
  | some _ => false

-- In which states a command is answered and executed as a Redis server would.
def fits (s : Store) : Command → Bool
  | .set _ _ nx xx => !(nx && xx)
  | .get key => (s key).all fun | .str _ => true | _ => false
  | .delete keys | .exist keys => keys ≠ []
  | .incr key =>
    (s key).all fun | .str t => (Redis.integer t).any (· + 1 < 2 ^ 63) | _ => true
  | .hset _ _ _ => true
  | .hget key _ | .hgetall key => (s key).all fun | .hash _ => true | _ => false
  | .hdel key fields =>
    fields ≠ [] && (s key).all fun | .hash fs => fs.any (·.1 ∉ fields) | _ => false
  | .lpush _ values => values ≠ [] && values.reverse = values
  | .rpush _ values => values ≠ []
  | .lpop key count | .rpop key count => fitsPop s key count
  | .lrange key _ _ | .llen key => (s key).all fun | .list _ => true | _ => false
  | .ltrim key start stop => (s key).any fun | .list xs => range xs start stop ≠ [] | _ => false
  | .sadd _ members => members ≠ []
  | .srem key members =>
    members ≠ [] && (s key).all fun | .set xs => ¬xs ⊆ members.toFinset | _ => false

section Erase

variable {σ κ : Type} [DecidableEq κ] {has : σ → κ → Bool} {erase : σ → κ → σ}

theorem eraseAll_eq (hh : ∀ s k j, has (erase s k) j = (decide (j ≠ k) && has s j))
    (hn : ∀ s k, has s k = false → erase s k = s) (s : σ) (ks : List κ) :
    eraseAll has erase s ks = (ks.foldl erase s, (ks.toFinset.filter (has s ·)).card) := by
  suffices h : ∀ n, ks.foldl
      (fun (s, count) k => if has s k then (erase s k, count + 1) else (s, count)) (s, n) =
      (ks.foldl erase s, n + (ks.toFinset.filter (has s ·)).card) by
    exact (h 0).trans (by rw [Nat.zero_add])
  intro n
  induction ks generalizing s n
  case nil => simp
  case cons k ks hi =>
    simp only [List.foldl_cons, List.toFinset_cons]
    by_cases hk : has s k
    case pos =>
      have hf : (insert k ks.toFinset).filter (has s ·) =
          insert k (ks.toFinset.filter (has (erase s k) ·)) := by
        ext j
        simp only [Finset.mem_filter, Finset.mem_insert, hh, Bool.and_eq_true, decide_eq_true_eq]
        by_cases hj : j = k
        · simp [hj, hk]
        · simp [hj]
      have hm : k ∉ ks.toFinset.filter (has (erase s k) ·) := by simp [hh]
      rw [if_pos hk, hi, hf, Finset.card_insert_of_notMem hm, Nat.add_assoc, Nat.add_comm 1]
    case neg =>
      rw [if_neg hk, hi, hn s k (Bool.eq_false_iff.mpr hk), Finset.filter_insert, if_neg hk]

end Erase

theorem eraseAll_keys (s : Store) (keys : List String) : eraseAll hasKey eraseKey s keys =
    (fun k => if k ∈ keys then none else s k, (keys.toFinset.filter (hasKey s ·)).card) := by
  have hf : keys.foldl eraseKey s = fun k => if k ∈ keys then none else s k := by
    induction keys generalizing s
    case nil => simp
    case cons k keys hi =>
      rw [List.foldl_cons, hi]
      funext j
      by_cases hj : j = k <;> simp [hj, eraseKey]
  rw [eraseAll_eq, hf]
  · intro s k j
    by_cases hj : j = k <;> simp [hj, hasKey, eraseKey]
  · intro s k hk
    rw [eraseKey, Function.update_eq_self_iff]
    exact (Option.isNone_iff_eq_none.mp (by simpa [hasKey] using hk)).symm

theorem eraseAll_fields (fs : List (String × String)) (fields : List String) :
    eraseAll hasField eraseField fs fields =
      (fs.filter (·.1 ∉ fields), (fields.toFinset.filter (hasField fs ·)).card) := by
  have hf : fields.foldl eraseField fs = fs.filter (·.1 ∉ fields) := by
    induction fields generalizing fs
    case nil => simp
    case cons k fields hi =>
      rw [List.foldl_cons, hi, eraseField, List.filter_filter]
      refine List.filter_congr fun m _ => ?_
      simp [Bool.and_comm]
  rw [eraseAll_eq, hf]
  · intro fs k j
    have hm : j ∈ Json.keys (eraseField fs k) ↔ j ≠ k ∧ j ∈ Json.keys fs := by
      simp only [eraseField, Json.keys, List.mem_map, List.mem_filter, decide_eq_true_eq]
      constructor
      · rintro ⟨m, ⟨hm, hk⟩, rfl⟩
        exact ⟨hk, m, hm, rfl⟩
      · rintro ⟨hk, m, hm, rfl⟩
        exact ⟨m, ⟨hm, hk⟩, rfl⟩
    simp only [hasField, hm, Bool.decide_and]
  · intro fs k hk
    refine List.filter_eq_self.mpr fun m hm => decide_eq_true fun he => ?_
    exact of_decide_eq_false hk (he ▸ List.mem_map_of_mem hm)

theorem inclusiveSlice_eq_range (xs : List String) (start stop : Int) :
    inclusiveSlice xs start stop = range xs start stop := by
  have hs : inclusiveSlice xs start stop =
      slice xs start (if stop = -1 then xs.length else stop + 1) := by
    rw [inclusiveSlice]
    split <;> rfl
  simp only [hs, slice, range]
  generalize ha : (if start < 0 then (xs.length + start).toNat else min start.toNat xs.length) = a
  generalize hb : (if (if stop = -1 then (xs.length : Int) else stop + 1) < 0 then
    (xs.length + (if stop = -1 then (xs.length : Int) else stop + 1)).toNat
    else min (if stop = -1 then (xs.length : Int) else stop + 1).toNat xs.length) = b
  generalize hA : (if start < 0 then max (xs.length + start) 0 else start) = A
  generalize hB : (if stop < 0 then xs.length + stop else min stop (xs.length - 1)) = B
  split
  case isTrue h =>
    have hz : b - a = 0 := by split_ifs at ha hb hA hB <;> omega
    rw [hz, List.take_zero]
  case isFalse h =>
    have h₁ : a = A.toNat := by split_ifs at ha hb hA hB <;> omega
    have h₂ : b - a = (B - A + 1).toNat := by split_ifs at ha hb hA hB <;> omega
    rw [← h₁, h₂]

theorem isEmpty_assign (k v : String) (fs : List (String × String)) :
    (Json.assign k v fs).isEmpty = false := by
  cases fs
  case nil => rfl
  case cons m fs =>
    rw [Json.assign]
    split <;> rfl

section Step

variable {py : Python} {s : Store} {key : String}

theorem put_of_ne {d : Data} (h : d.isEmpty = false) :
    put s key d = Function.update s key (some d) := by
  rw [put, h]
  rfl

@[simp]
theorem length_side (left : Bool) (xs : List String) : (side left xs).length = xs.length := by
  cases left <;> simp [side]

theorem pop_eq {left : Bool} {count : Option Int} (h : fitsPop s key count) :
    pop py left s key count = Redis.pop (side left) s key count := by
  unfold fitsPop at h
  split at h
  case h_1 hk => cases count <;> simp_all [pop, length, Redis.pop]
  case h_3 => simp at h
  case h_2 xs hk =>
    have hl := length_side left xs
    have hz (ys : List String) (hy : ys ≠ []) : (Data.list (side left ys)).isEmpty = false := by
      have hl := length_side left ys
      simp only [Data.isEmpty, List.isEmpty_eq_false_iff, ← List.length_pos_iff, hl]
      exact List.length_pos_iff.mpr hy
    cases count
    case none =>
      simp only [Option.elim_none, decide_eq_true_eq] at h
      rcases hs : side left xs with _ | ⟨x, ys⟩
      case nil => rw [hs, List.length_nil] at hl; omega
      case cons =>
        rw [hs, List.length_cons] at hl
        have hy : ys ≠ [] := by
          rintro rfl
          simp at hl
          omega
        have hp : length (.list xs) ≠ 0 := by rw [length]; omega
        simp only [pop, hk, Option.getD_some, if_neg hp, Option.elim_none, popTimes, hs, Redis.pop,
          put_of_ne (hz ys hy)]
        rfl
    case some c =>
      simp only [Option.elim_some, Bool.and_eq_true, decide_eq_true_eq] at h
      obtain ⟨n, rfl⟩ := Int.eq_ofNat_of_zero_le h.left.le
      have hm : min (n : Int).toNat (length (.list xs)) = n := by rw [length]; omega
      have hp : length (.list xs) ≠ 0 := by rw [length]; omega
      have hd : (side left xs).drop n ≠ [] := by
        rw [ne_eq, List.drop_eq_nil_iff, hl]
        omega
      simp only [pop, hk, Option.getD_some, if_neg hp, Option.elim_some, hm, Redis.pop]
      rw [if_neg (by omega), if_neg (by omega)]
      simp only [popTimes, Int.toNat_natCast, put_of_ne (hz _ hd)]

theorem fallback_eq_exec {c : Command} (h : fits s c) : fallback py s c = exec s c := by
  cases c
  case set key value nx xx =>
    cases nx <;> cases xx <;> simp_all [fits, fallback, exec]
  case get key =>
    rcases hk : s key with _ | (_ | _ | _ | _) <;> simp_all [fits, fallback, exec]
  case delete keys =>
    rcases keys with _ | ⟨k, keys⟩
    case nil => simp [fits] at h
    case cons => rw [fallback, eraseAll_keys]; rfl
  case exist keys =>
    rcases keys with _ | ⟨k, keys⟩
    case nil => simp [fits] at h
    case cons => rfl
  case incr key =>
    rcases hk : s key with _ | (t | _ | _ | _)
    case some.str =>
      simp only [fits, hk, Option.all_some] at h
      obtain ⟨n, hn, hl⟩ := Option.any_eq_true _ _ |>.mp h
      obtain ⟨_, ht⟩ := Option.filter_eq_some_iff.mp hn
      simp only [Bool.and_eq_true, decide_eq_true_eq] at ht
      have hp : py.parseInt t = some n := by
        rw [← py.parseInt_intText n, ht.left.left, String.ofList_toList]
      simp only [fallback, hk, hp, exec, hn, if_pos (of_decide_eq_true hl)]
    case none => simp only [fallback, hk, exec]; rfl
    all_goals simp [fallback, hk, exec]
  case hset key field value =>
    rcases hk : s key with _ | (_ | fs | _ | _) <;>
      simp [fallback, exec, hk, put, Data.isEmpty, isEmpty_assign, Json.assign]
  case hget key field | hgetall key =>
    rcases hk : s key with _ | (_ | _ | _ | _) <;> simp_all [fits, fallback, exec]
  case hdel key fields =>
    rcases fields with _ | ⟨k, fields⟩
    case nil => simp [fits] at h
    case cons =>
      rcases hk : s key with _ | (_ | fs | _ | _)
      case some.hash =>
        have he : (Data.hash (fs.filter (·.1 ∉ k :: fields))).isEmpty = false := by
          simp only [fits, hk, Option.all_some, Bool.and_eq_true] at h
          simpa [Data.isEmpty, List.filter_eq_nil_iff] using h.right
        simp only [fallback, hk, eraseAll_fields, exec, put_of_ne he, hasField,
          decide_eq_true_eq]
      all_goals simp_all [fits, fallback, exec]
  case lpush key values =>
    simp only [fits, Bool.and_eq_true, decide_eq_true_eq] at h
    obtain ⟨v, vs, hv⟩ := List.exists_cons_of_ne_nil h.left
    have hc (xs : List String) : values.foldl (fun xs v => v :: xs) xs = values ++ xs := by
      rw [List.foldl_flip_cons_eq_append', h.right]
    have hp (xs : List String) : put s key (.list (values ++ xs)) =
        Function.update s key (some (.list (values ++ xs))) :=
      put_of_ne (by simp [Data.isEmpty, hv])
    have he : exec s (.lpush key values) =
        match (s key).getD (.list []) with
        | .list xs =>
          (put s key (.list (values.reverse ++ xs)), .int (values.length + xs.length))
        | _ => (s, .error) := by
      rw [hv]
      rcases hk : s key with _ | (_ | _ | _ | _) <;> simp [exec, hk]
    rw [he]
    simp only [fallback, h.right, hc, hp, if_neg h.left, List.length_append, Nat.cast_add]
  case rpush key values =>
    rcases values with _ | ⟨v, values⟩
    case nil => simp [fits] at h
    case cons =>
      rcases hk : s key with _ | (_ | _ | xs | _) <;>
        simp [fallback, exec, hk, put, Data.isEmpty]
  case lpop key count => exact pop_eq h
  case rpop key count => exact pop_eq h
  case lrange key start stop =>
    rcases hk : s key with _ | (_ | _ | _ | _) <;>
      simp_all [fits, fallback, exec, inclusiveSlice_eq_range, range]
  case llen key =>
    rcases hk : s key with _ | (_ | _ | _ | _) <;> simp_all [fits, fallback, exec]
  case ltrim key start stop =>
    rcases hk : s key with _ | (_ | _ | xs | _) <;>
      simp_all [fits, fallback, exec, inclusiveSlice_eq_range, put, Data.isEmpty]
  case sadd key members =>
    rcases members with _ | ⟨x, xs⟩
    case nil => simp [fits] at h
    case cons =>
      rcases hk : s key with _ | (_ | _ | _ | ys) <;>
        simp [fallback, exec, hk, put, Data.isEmpty]
  case srem key members =>
    rcases members with _ | ⟨x, xs⟩
    case nil => simp [fits] at h
    case cons =>
      rcases hk : s key with _ | (_ | _ | _ | ys) <;>
        simp_all [fits, fallback, exec, put, Data.isEmpty, Finset.sdiff_eq_empty_iff_subset]

end Step

-- As long as every command fits, the answers are those of a Redis server.
theorem replies_fallback (py : Python) (cs : List Command)
    (h : Redis.meets (fallback py) fits (fun _ => none) cs) :
    replies (fallback py) (fun _ => none) cs = replies exec (fun _ => none) cs :=
  Redis.replies_eq (fun _ _ => fallback_eq_exec) h

def examplePython : Python where
  parseInt t := Json.readInt t.toList
  parseInt_intText n := by rw [String.toList_ofList, Json.readInt_intText]
  pick _ := ""

theorem replies_fallback_queue :
    replies (fallback examplePython) (fun _ => none)
        [.rpush "q" ["a", "b", "c"], .lpop "q" none, .lrange "q" (-2) (-1), .incr "n", .exist ["q"]] =
      replies exec (fun _ => none)
        [.rpush "q" ["a", "b", "c"], .lpop "q" none, .lrange "q" (-2) (-1), .incr "n", .exist ["q"]] :=
  replies_fallback _ _ (by decide)

-- Several values are pushed in another order, and an empty list remains.
theorem replies_fallback_ne :
    replies (fallback examplePython) (fun _ => none) [.lpush "q" ["a", "b"], .lrange "q" 0 (-1)] ≠
        replies exec (fun _ => none) [.lpush "q" ["a", "b"], .lrange "q" 0 (-1)] ∧
      replies (fallback examplePython) (fun _ => none)
          [.rpush "q" ["a"], .lpop "q" none, .exist ["q"]] ≠
        replies exec (fun _ => none) [.rpush "q" ["a"], .lpop "q" none, .exist ["q"]] := by
  decide

end Gateway.RedisService
