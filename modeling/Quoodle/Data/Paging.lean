import Mathlib

-- Listings that are read page by page. Where a page begins is said by a cursor that comes with the
-- page before it.
namespace Paging

variable {α γ : Type}

section Separated

variable (after : γ → α → Prop) (cursor : α → Option γ)

-- What comes behind the end of a page comes after the cursor of that page.
def Separated (l : List α) (n : Nat) : Prop :=
  ∀ i x, l[i]? = some x → n ∣ i + 1 → ∀ y ∈ l.drop (i + 1), ∃ c ∈ cursor x, after c y

variable {after cursor} {l : List α} {n : Nat}

theorem separated_iff (hn : 0 < n) :
    Separated after cursor l n ↔
      (∀ x, l[n - 1]? = some x → ∀ y ∈ l.drop n, ∃ c ∈ cursor x, after c y) ∧
        Separated after cursor (l.drop n) n := by
  constructor
  case mp =>
    intro h
    refine ⟨fun x hx y hy => ?_, fun i x hx hi y hy => ?_⟩
    · have hs : n - 1 + 1 = n := by omega
      exact h (n - 1) x hx (dvd_of_eq hs.symm) y (hs.symm ▸ hy)
    · rw [List.getElem?_drop] at hx
      rw [List.drop_drop] at hy
      exact h (n + i) x hx (Nat.dvd_add_right (dvd_refl n) |>.mpr hi) y hy
  case mpr =>
    intro ⟨hf, hs⟩ i x hx hi y hy
    obtain ⟨j, hj⟩ := hi
    cases j
    case zero => omega
    case succ j =>
      cases j
      case zero =>
        obtain rfl : i = n - 1 := by omega
        have he : n - 1 + 1 = n := by omega
        exact hf x hx y (he ▸ hy)
      case succ j =>
        have he : n * (j + 1 + 1) = n * (j + 1) + n := Nat.mul_succ ..
        have hle : n ≤ n * (j + 1) := Nat.le_mul_of_pos_right _ (by omega)
        obtain ⟨k, rfl⟩ : ∃ k, i = n + k := ⟨i - n, by omega⟩
        refine hs k x (by rwa [List.getElem?_drop]) ⟨j + 1, by omega⟩ y ?_
        rwa [List.drop_drop]

theorem separated_nil : Separated after cursor ([] : List α) n := by
  intro i x hx
  simp at hx

theorem eq_of_getLast_take {x x' : α} (hx : (l.take n).getLast? = some x)
    (hx' : l[n - 1]? = some x') : x' = x := by
  have hlt : n - 1 < l.length := (List.getElem?_eq_some_iff.mp hx').choose
  by_cases hn : n = 0
  case pos => simp [hn] at hx
  rw [List.getLast?_eq_getElem?, List.length_take, min_eq_left (by omega),
    List.getElem?_take_of_lt (by omega), hx'] at hx
  exact Option.some.inj hx

theorem forall_drop_iff {x : α} (hn : 0 < n) (hx : (l.take n).getLast? = some x) :
    (∀ x', l[n - 1]? = some x' → ∀ y ∈ l.drop n, ∃ c ∈ cursor x', after c y) ↔
      ∀ y ∈ l.drop n, ∃ c ∈ cursor x, after c y := by
  constructor
  case mp =>
    intro h y hy
    have hlt : n < l.length := by
      have := List.length_pos_of_mem hy
      rw [List.length_drop] at this
      omega
    have hx' := List.getElem?_eq_getElem (show n - 1 < l.length by omega)
    exact eq_of_getLast_take hx hx' ▸ h _ hx' y hy
  case mpr =>
    intro h x' hx' y hy
    exact eq_of_getLast_take hx hx' ▸ h y hy

end Separated

variable (after : γ → α → Prop) [DecidableRel after] (cursor : α → Option γ)

def rest (l : List α) : Option γ → List α
  | none => l
  | some c => l.filter (after c ·)

def follow (l : List α) (n : Nat) : Nat → Option γ → Option (List α)
  | 0, _ => none
  | fuel + 1, c =>
    match ((rest after l c).take n).getLast? with
    | none => some []
    | some x =>
      match cursor x with
      | none => some ((rest after l c).take n)
      | some c' => (follow l n fuel (some c')).map ((rest after l c).take n ++ ·)

structure Ordered (l : List α) : Prop where
  before : l.Pairwise fun x y => ∀ c ∈ cursor y, ¬after c x
  self : ∀ x, ∀ c ∈ cursor x, ¬after c x
  trans : ∀ {c c' x y}, after c x → c' ∈ cursor x → after c' y → after c y

variable {after cursor} {l : List α} {n fuel : Nat} {c : Option γ} {x : α}

variable (after l c) in
theorem rest_sublist : (rest after l c).Sublist l := by
  cases c
  case none => exact List.Sublist.refl l
  case some c => exact List.filter_sublist

-- The cursor of a page leads to what is behind that page, or to a part of it.
theorem rest_of_getLast (h : Ordered after cursor l)
    (hx : ((rest after l c).take n).getLast? = some x) {c' : γ} (hc : c' ∈ cursor x) :
    rest after l (some c') = ((rest after l c).drop n).filter (after c' ·) := by
  have hr : rest after l (some c') = (rest after l c).filter (after c' ·) := by
    cases c
    case none => rfl
    case some c =>
      have hm : x ∈ l.filter (after c ·) := List.mem_of_mem_take (List.mem_of_getLast? hx)
      have hx : after c x := by simpa using (List.mem_filter.mp hm).right
      simp only [rest, List.filter_filter]
      refine List.filter_congr fun y _ => ?_
      by_cases hy : after c' y
      case pos => simp [hy, h.trans hx hc hy]
      case neg => simp [hy]
  have ht : ((rest after l c).take n).filter (after c' ·) = [] := by
    obtain ⟨ys, hys⟩ := List.getLast?_eq_some_iff.mp hx
    have hp := h.before.sublist ((List.take_sublist n _).trans (rest_sublist after l c))
    rw [hys, List.pairwise_append] at hp
    rw [hys, List.filter_eq_nil_iff]
    intro y hy
    rw [decide_eq_true_eq]
    cases List.mem_append.mp hy
    case inl hy => exact hp.right.right y hy x (List.mem_singleton.mpr rfl) c' hc
    case inr hy => exact List.mem_singleton.mp hy ▸ h.self x c' hc
  rw [hr, ← List.take_append_drop n (rest after l c), List.filter_append, ht, List.nil_append,
    List.take_append_drop]

-- Whatever is left out, the pages end, and they are in order.
theorem exists_follow (h : Ordered after cursor l) (hn : 0 < n)
    (hf : (rest after l c).length < fuel) :
    ∃ ys, follow after cursor l n fuel c = some ys ∧ ys.Sublist (rest after l c) := by
  induction fuel generalizing c
  case zero => cases hf
  case succ fuel hi =>
    rw [follow]
    split
    case h_1 => exact ⟨[], rfl, List.nil_sublist _⟩
    case h_2 x hx =>
      split
      case h_1 => exact ⟨_, rfl, List.take_sublist ..⟩
      case h_2 c' hc =>
        have hr := rest_of_getLast h hx hc
        have hp : 0 < (rest after l c).length :=
          List.length_pos_of_mem (List.mem_of_mem_take (List.mem_of_getLast? hx))
        have hl : (rest after l (some c')).length ≤ ((rest after l c).drop n).length :=
          hr ▸ List.length_filter_le ..
        rw [List.length_drop] at hl
        obtain ⟨ys, hy, hs⟩ := hi (c := some c') (by omega)
        refine ⟨(rest after l c).take n ++ ys, by rw [hy, Option.map_some], ?_⟩
        have hd : ys.Sublist ((rest after l c).drop n) := hs.trans (hr ▸ List.filter_sublist)
        have ha := List.Sublist.append (List.Sublist.refl ((rest after l c).take n)) hd
        rwa [List.take_append_drop] at ha

-- Nothing is left out just when no page ends between entries that the cursor does not tell apart.
theorem follow_eq_some_iff (h : Ordered after cursor l) (hn : 0 < n)
    (hf : (rest after l c).length < fuel) :
    follow after cursor l n fuel c = some (rest after l c) ↔
      Separated after cursor (rest after l c) n := by
  induction fuel generalizing c
  case zero => cases hf
  case succ fuel hi =>
    rw [follow, separated_iff hn]
    split
    case h_1 hx =>
      have he : rest after l c = [] := by
        simpa [List.take_eq_nil_iff, hn.ne'] using List.getLast?_eq_none_iff.mp hx
      simp [he, separated_nil]
    case h_2 x hx =>
      have hp : 0 < (rest after l c).length :=
        List.length_pos_of_mem (List.mem_of_mem_take (List.mem_of_getLast? hx))
      rw [forall_drop_iff hn hx]
      split
      case h_1 hc =>
        rw [Option.some.injEq, List.take_eq_self_iff, ← List.drop_eq_nil_iff]
        constructor
        case mp =>
          intro he
          simp [he, separated_nil]
        case mpr =>
          intro ⟨hb, _⟩
          refine List.eq_nil_iff_forall_not_mem.mpr fun y hy => ?_
          obtain ⟨_, hm, _⟩ := hb y hy
          cases hc.symm.trans hm
      case h_2 c' hc =>
        have hr := rest_of_getLast h hx hc
        have hle : (rest after l (some c')).length ≤ ((rest after l c).drop n).length :=
          hr ▸ List.length_filter_le ..
        rw [List.length_drop] at hle
        have hlt : (rest after l (some c')).length < fuel := by omega
        obtain ⟨ys, hy, hs⟩ := exists_follow h hn hlt
        have hi := hi hlt
        rw [hy, Option.some.injEq] at hi
        rw [hy, Option.map_some, Option.some.injEq]
        constructor
        case mp =>
          intro he
          have hd : ys = (rest after l c).drop n :=
            List.append_cancel_left (he.trans (List.take_append_drop n _).symm)
          have hall : rest after l (some c') = (rest after l c).drop n :=
            (hr ▸ List.filter_sublist : (rest after l (some c')).Sublist _).antisymm (hd ▸ hs)
          refine ⟨fun y hm => ⟨c', hc, ?_⟩, hall ▸ hi.mp (hd.trans hall.symm)⟩
          exact of_decide_eq_true (List.filter_eq_self.mp (hr.symm.trans hall) y hm)
        case mpr =>
          intro ⟨hb, hsep⟩
          have hall : rest after l (some c') = (rest after l c).drop n := by
            rw [hr, List.filter_eq_self]
            intro y hm
            obtain ⟨c₀, hc₀, ha⟩ := hb y hm
            exact decide_eq_true (Option.some.inj (hc₀.symm.trans hc) ▸ ha)
          rw [hi.mpr (hall ▸ hsep), hall, List.take_append_drop]

section Slices

def slice (l : List α) (n i : Nat) : List α :=
  (l.drop (i * n)).take n

def pageCount (total n : Nat) : Nat :=
  (total + n - 1) / n

theorem flatMap_slice (l : List α) (n k : Nat) :
    (List.range k).flatMap (slice l n) = l.take (k * n) := by
  induction k
  case zero => simp
  case succ k hi =>
    rw [List.range_succ, List.flatMap_append, hi, List.flatMap_singleton, slice, Nat.succ_mul,
      List.take_add]

theorem flatMap_slice_of_le {k : Nat} (h : l.length ≤ k * n) :
    (List.range k).flatMap (slice l n) = l := by
  rw [flatMap_slice, List.take_of_length_le h]

theorem le_pageCount_mul {total : Nat} (hn : 0 < n) : total ≤ pageCount total n * n := by
  have h := Nat.div_add_mod (total + n - 1) n
  have hm := Nat.mod_lt (total + n - 1) hn
  rw [pageCount, Nat.mul_comm]
  omega

end Slices

end Paging
