import Mathlib

-- Tables whose rows are found by a key.
namespace Rows

variable {ρ κ : Type} [DecidableEq κ]

def find (key : ρ → κ) (rows : List ρ) (k : κ) : Option ρ :=
  rows.find? (key · = k)

def update (key : ρ → κ) (rows : List ρ) (k : κ) (f : ρ → ρ) : List ρ :=
  rows.map fun r => if key r = k then f r else r

def delete (key : ρ → κ) (rows : List ρ) (k : κ) : List ρ :=
  rows.filter (key · ≠ k)

variable {key : ρ → κ} {rows rows' : List ρ} {k k' : κ} {r : ρ} {f : ρ → ρ}

theorem key_of_find (h : find key rows k = some r) : key r = k := by
  simpa using List.find?_some h

theorem find_of_mem (hn : (rows.map key).Nodup) (h : r ∈ rows) :
    find key rows (key r) = some r := by
  have hs : (find key rows (key r)).isSome := List.find?_isSome.mpr ⟨r, h, by simp⟩
  obtain ⟨r', hr⟩ := Option.isSome_iff_exists.mp hs
  have hm : r' ∈ rows := List.mem_of_find?_eq_some hr
  rw [List.inj_on_of_nodup_map hn hm h (key_of_find hr)] at hr
  exact hr

theorem find_append : find key (rows ++ rows') k = (find key rows k).or (find key rows' k) :=
  List.find?_append

theorem find_update (hf : ∀ r, key r = k' → key (f r) = k') :
    find key (update key rows k' f) k =
      if k' = k then (find key rows k).map f else find key rows k := by
  -- The rows that are found are the same before and after the update.
  have hp : (fun r => decide (key r = k)) ∘ (fun r => if key r = k' then f r else r) =
      fun r => decide (key r = k) := by
    funext r
    simp only [Function.comp_apply]
    split
    case isTrue hr => rw [hf r hr, hr]
    case isFalse hr => rfl
  rw [update, find, List.find?_map, hp]
  cases h : List.find? (fun r => decide (key r = k)) rows
  case none => simp [find, h]
  case some r =>
    have hr : key r = k := key_of_find h
    simp only [find, h, Option.map_some, hr, eq_comm (a := k)]
    split <;> rfl

theorem filter_update (hf : ∀ r, key (f r) = key r) :
    (update key rows k' f).filter (key · = k) =
      if k' = k then (rows.filter (key · = k)).map f else rows.filter (key · = k) := by
  have hp : ∀ r, key (if key r = k' then f r else r) = key r := by
    intro r
    split
    case isTrue => exact hf r
    case isFalse => rfl
  rw [update, List.filter_map]
  simp only [Function.comp_def, hp]
  split
  case isTrue hk =>
    refine List.map_congr_left fun r hr => ?_
    rw [if_pos (hk ▸ of_decide_eq_true (List.mem_filter.mp hr).right)]
  case isFalse hk =>
    refine (List.map_congr_left fun r hr => ?_).trans (List.map_id _)
    rw [if_neg fun he => hk (he.symm.trans (of_decide_eq_true (List.mem_filter.mp hr).right))]
    rfl

theorem find_delete : find key (delete key rows k') k = if k' = k then none else find key rows k := by
  rw [find, delete, List.find?_filter]
  split
  case isTrue hk =>
    refine List.find?_eq_none.mpr fun r _ => ?_
    simp [hk]
  case isFalse hk =>
    congr 1
    funext r
    have hr : key r = k → key r ≠ k' := fun he hn => hk (hn.symm.trans he)
    simpa using hr

theorem map_update {α : Type} {g : ρ → α} (hf : ∀ r, g (f r) = g r) :
    (update key rows k f).map g = rows.map g := by
  rw [update, List.map_map]
  refine List.map_congr_left fun r _ => ?_
  simp only [Function.comp_apply]
  split
  case isTrue => exact hf r
  case isFalse => rfl

@[simp]
theorem map_key_update (hf : ∀ r, key (f r) = key r) :
    (update key rows k f).map key = rows.map key :=
  map_update hf

theorem nodup_append_singleton {α : Type} {x : α} {xs : List α} (hx : x ∉ xs) (h : xs.Nodup) :
    (xs ++ [x]).Nodup := by
  rw [← List.concat_eq_append, List.nodup_concat]
  exact ⟨hx, h⟩

theorem update_of_notMem (h : k ∉ rows.map key) : update key rows k f = rows := by
  refine (List.map_congr_left fun r hr => ?_).trans (List.map_id rows)
  have hk : key r ≠ k := fun he => h (he ▸ List.mem_map_of_mem hr)
  exact if_neg hk

theorem sum_update {g : ρ → Nat} (hn : (rows.map key).Nodup) (h : find key rows k = some r) :
    ((update key rows k f).map g).sum + g r = (rows.map g).sum + g (f r) := by
  induction rows
  case nil => cases h
  case cons x rows hi =>
    rw [List.map_cons, List.nodup_cons] at hn
    by_cases hx : key x = k
    case pos =>
      have hr : x = r := by simpa [find, hx] using h
      have hu : update key (x :: rows) k f = f x :: rows := by
        have hs := update_of_notMem (f := f) (hx ▸ hn.left)
        simp only [update, List.map_cons, if_pos hx] at hs ⊢
        rw [hs]
      rw [hu, ← hr, List.map_cons, List.map_cons, List.sum_cons, List.sum_cons]
      omega
    case neg =>
      have hf : find key rows k = some r := by simpa [find, hx] using h
      have hs := hi hn.right hf
      simp only [update, List.map_cons, if_neg hx, List.sum_cons] at hs ⊢
      omega

-- An update leaves the rows with a property alone if it changes none of them.
theorem filter_map_eq_iff {p : ρ → Bool} (hp : ∀ r, p (f r) = p r) :
    (rows.map f).filter p = rows.filter p ↔ ∀ r ∈ rows, p r → f r = r := by
  have hc : p ∘ f = p := funext hp
  rw [List.filter_map, hc]
  constructor
  case mp =>
    intro h r hr hp
    exact List.map_inj_left.mp (h.trans (List.map_id _).symm) r (List.mem_filter.mpr ⟨hr, hp⟩)
  case mpr =>
    intro h
    refine (List.map_congr_left fun r hr => ?_).trans (List.map_id _)
    exact h r (List.mem_of_mem_filter hr) (List.mem_filter.mp hr).right

-- What a column holds after a row was saved: only the columns that were changed since the row was
-- loaded are written.
def merge {α : Type} [DecidableEq α] (loaded changed current : α) : α :=
  if changed = loaded then current else changed

@[simp]
theorem merge_self {α : Type} [DecidableEq α] {a current : α} : merge a a current = current :=
  if_pos rfl

theorem merge_current {α : Type} [DecidableEq α] {a changed : α} : merge a changed a = changed := by
  unfold merge
  split
  case isTrue h => exact h.symm
  case isFalse h => rfl

end Rows
