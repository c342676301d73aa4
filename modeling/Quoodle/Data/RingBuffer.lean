import Quoodle.Data.Window

structure RingBuffer (α : Type) (n : Nat) [NeZero n] where
  slots : Fin n → α
  -- Where the next element goes.
  head : Fin n
  -- Where the oldest element is.
  tail : Fin n
  count : Nat
  count_le : count ≤ n
  head_eq : head = tail + Fin.ofNat n count

namespace RingBuffer

variable {α : Type} {n : Nat} [NeZero n] {r : RingBuffer α n} {a : α}

theorem ofNat_succ (i : Nat) : Fin.ofNat n (i + 1) = 1 + Fin.ofNat n i := by
  ext
  simp [Fin.val_add, Nat.add_comm]

def empty [Inhabited α] : RingBuffer α n where
  slots := fun _ => default
  head := 0
  tail := 0
  count := 0
  count_le := Nat.zero_le n
  head_eq := by
    ext
    simp

def dropOldest (r : RingBuffer α n) (h : 0 < r.count) : RingBuffer α n where
  slots := r.slots
  head := r.head
  tail := r.tail + 1
  count := r.count - 1
  count_le := (Nat.sub_le ..).trans r.count_le
  head_eq := by
    rw [r.head_eq, add_assoc, ← ofNat_succ, Nat.sub_add_cancel h]

def add (r : RingBuffer α n) (a : α) (h : r.count < n) : RingBuffer α n where
  slots := Function.update r.slots r.head a
  head := r.head + 1
  tail := r.tail
  count := r.count + 1
  count_le := h
  head_eq := by
    rw [r.head_eq, ofNat_succ, add_assoc, add_comm 1]

-- The oldest element makes room if there is none.
def push (r : RingBuffer α n) (a : α) : RingBuffer α n :=
  if h : r.count = n then
    have hn : 0 < n := Nat.pos_of_neZero n
    (r.dropOldest (by omega)).add a (by simp only [dropOldest]; omega)
  else r.add a (lt_of_le_of_ne r.count_le h)

def pop (r : RingBuffer α n) : Option (α × RingBuffer α n) :=
  if h : 0 < r.count then some (r.slots r.tail, r.dropOldest h) else none

-- The elements, from the oldest one on.
def toList (r : RingBuffer α n) : List α :=
  (List.range r.count).map fun i => r.slots (r.tail + Fin.ofNat n i)

@[simp]
theorem length_toList : r.toList.length = r.count := by
  simp [toList]

theorem toList_dropOldest (h : 0 < r.count) :
    r.toList = r.slots r.tail :: (r.dropOldest h).toList := by
  obtain ⟨m, hm⟩ : ∃ m, r.count = m + 1 := ⟨r.count - 1, by omega⟩
  have hz : r.tail + Fin.ofNat n 0 = r.tail := by
    ext
    simp
  simp only [toList, dropOldest, hm, List.range_succ_eq_map, List.map_cons, List.map_map, hz,
    Nat.add_sub_cancel]
  refine congrArg _ (List.map_congr_left fun i _ => ?_)
  simp only [Function.comp_apply, Nat.succ_eq_add_one, ofNat_succ, add_assoc]

theorem toList_add (h : r.count < n) : (r.add a h).toList = r.toList ++ [a] := by
  simp only [toList, add, List.range_succ, List.map_append, List.map_singleton, ← r.head_eq,
    Function.update_self]
  refine congrArg (· ++ [a]) (List.map_congr_left fun i hi => ?_)
  -- No element is where the new one goes.
  refine Function.update_of_ne (fun he => ?_) ..
  have hi := List.mem_range.mp hi
  have hv := congrArg Fin.val (add_left_cancel (he.trans r.head_eq))
  simp only [Fin.val_ofNat, Nat.mod_eq_of_lt (hi.trans h), Nat.mod_eq_of_lt h] at hv
  omega

theorem toList_push : (r.push a).toList = Window.last n (r.toList ++ [a]) := by
  by_cases h : r.count = n
  case pos =>
    have hc : 0 < r.count := (Nat.pos_of_neZero n).trans_eq h.symm
    have hd := toList_dropOldest hc
    have hl : (r.toList ++ [a]).length - n = 1 := by simp [h]
    rw [push, dif_pos h, toList_add, Window.last, hl, hd]
    rfl
  case neg =>
    have hl : (r.toList ++ [a]).length ≤ n := by
      have := r.count_le
      simp only [List.length_append, length_toList, List.length_singleton]
      omega
    rw [push, dif_neg h, toList_add, Window.last_of_length_le hl]

theorem pop_eq_none_iff : r.pop = none ↔ r.toList = [] := by
  rw [← List.length_eq_zero_iff, length_toList, pop, dite_eq_right_iff]
  simp

theorem toList_of_pop {r' : RingBuffer α n} (h : r.pop = some (a, r')) :
    r.toList = a :: r'.toList := by
  simp only [pop, Option.dite_none_right_eq_some, Option.some.injEq, Prod.mk.injEq] at h
  obtain ⟨hc, rfl, rfl⟩ := h
  exact toList_dropOldest hc

end RingBuffer
