import Mathlib

-- Sorting by a key. Elements with the same key keep their order.
namespace StableSort

variable {α κ : Type} [LinearOrder κ] {key : α → κ} {xs : List α}

def sortBy (key : α → κ) (xs : List α) : List α :=
  xs.insertionSort fun x y => key y ≤ key x

theorem orderedInsert_of_forall {x : α} (h : ∀ y ∈ xs, key y ≤ key x) :
    xs.orderedInsert (fun x y => key y ≤ key x) x = x :: xs := by
  cases xs
  case nil => rfl
  case cons y _ => exact List.orderedInsert_cons_of_le _ _ (h y (.head _))

theorem pairwise_sortBy (key : α → κ) (xs : List α) :
    (sortBy key xs).Pairwise fun x y => key y ≤ key x := by
  have : IsTrans α fun x y => key y ≤ key x := ⟨fun _ _ _ h h' => h'.trans h⟩
  have : Std.Total fun x y : α => key y ≤ key x := ⟨fun x y => le_total (key y) (key x)⟩
  exact List.pairwise_insertionSort _ xs

theorem perm_sortBy (key : α → κ) (xs : List α) : (sortBy key xs).Perm xs :=
  List.perm_insertionSort _ xs

theorem filter_orderedInsert (p : α → Bool) (x : α)
    (h : xs.Pairwise fun x y => key y ≤ key x) :
    (xs.orderedInsert (fun x y => key y ≤ key x) x).filter p =
      if p x then (xs.filter p).orderedInsert (fun x y => key y ≤ key x) x else xs.filter p := by
  induction xs
  case nil => cases hx : p x <;> simp [hx]
  case cons y ys hi =>
    have ⟨hy, hp⟩ := List.pairwise_cons.mp h
    by_cases hle : key y ≤ key x
    case pos =>
      -- Nothing that is behind the new element has to go before it.
      have ha : ∀ z ∈ (y :: ys).filter p, key z ≤ key x := by
        intro z hz
        cases List.mem_cons.mp (List.mem_of_mem_filter hz)
        case inl he => exact he ▸ hle
        case inr hm => exact (hy z hm).trans hle
      rw [List.orderedInsert_cons, if_pos hle, orderedInsert_of_forall ha, List.filter_cons]
    case neg =>
      rw [List.orderedInsert_cons, if_neg hle, List.filter_cons, hi hp, List.filter_cons]
      cases p y <;> cases p x <;> simp [hle]

theorem filter_sortBy (p : α → Bool) (xs : List α) :
    (sortBy key xs).filter p = sortBy key (xs.filter p) := by
  induction xs
  case nil => rfl
  case cons x xs hi =>
    rw [sortBy, List.insertionSort_cons, ← sortBy, filter_orderedInsert p x (pairwise_sortBy key xs),
      hi, List.filter_cons]
    split <;> rfl

theorem filter_key_sortBy (k : κ) (xs : List α) :
    (sortBy key xs).filter (key · = k) = xs.filter (key · = k) := by
  rw [filter_sortBy, sortBy]
  refine List.Pairwise.insertionSort_eq (List.pairwise_of_forall_mem_list ?_)
  intro x hx y hy
  have hx : key x = k := by simpa using (List.mem_filter.mp hx).right
  have hy : key y = k := by simpa using (List.mem_filter.mp hy).right
  exact (hy.trans hx.symm).le

theorem sortBy_map {β : Type} {f : α → β} {key' : β → κ} (h : ∀ x, key' (f x) = key x)
    (xs : List α) : sortBy key' (xs.map f) = (sortBy key xs).map f := by
  refine (List.map_insertionSort _ _ f xs fun x _ y _ => ?_).symm
  rw [h, h]

end StableSort
