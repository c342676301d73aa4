import Mathlib

-- Means that are computed one value after the other, where some of the values are missing.
namespace RunningMean

variable {K : Type} [Field K]

def mean (vs : List K) : Option K :=
  if vs = [] then none else some (vs.sum / vs.length)

-- The mean after another value, if the one before it stands for `n` values.
def push (n : Nat) : Option K → Option K → Option K
  | a,      none => a
  | none,   some x => some x
  | some a, some x => if n = 0 then some x else some ((a * n + x) / (n + 1))

-- A value that is missing counts as one of the values before the next one.
def total (xs : List (Option K)) : Nat × Option K :=
  xs.foldl (fun p x => (p.1 + 1, push p.1 p.2 x)) (0, none)

def average (xs : List (Option K)) : Option K :=
  (total xs).2

variable {xs ys : List (Option K)} {vs ws : List K} {x : Option K} {v : K}

theorem fst_total (xs : List (Option K)) : (total xs).1 = xs.length := by
  induction xs using List.reverseRecOn
  case nil => rfl
  case append_singleton xs x hi =>
    rw [total, List.foldl_concat, List.length_append, List.length_singleton]
    exact congrArg (· + 1) hi

@[simp]
theorem average_nil : average ([] : List (Option K)) = none :=
  rfl

theorem average_concat (xs : List (Option K)) (x : Option K) :
    average (xs ++ [x]) = push xs.length (average xs) x := by
  rw [average, total, List.foldl_concat, ← fst_total]
  rfl

theorem average_append_missing (xs : List (Option K)) (n : Nat) :
    average (xs ++ List.replicate n none) = average xs := by
  induction n
  case zero => simp
  case succ n hi =>
    rw [List.replicate_succ', ← List.append_assoc, average_concat, hi]
    cases average xs <;> rfl

@[simp]
theorem mean_nil : mean ([] : List K) = none :=
  rfl

theorem mean_of_ne_nil (h : vs ≠ []) : mean vs = some (vs.sum / vs.length) :=
  if_neg h

theorem mean_perm (h : vs.Perm ws) : mean vs = mean ws := by
  by_cases hv : vs = []
  case pos =>
    rw [hv] at h ⊢
    rw [List.nil_perm.mp h]
  case neg =>
    have hw : ws ≠ [] := fun hw => hv (List.perm_nil.mp (hw ▸ h))
    rw [mean_of_ne_nil hv, mean_of_ne_nil hw, h.sum_eq, h.length_eq]

-- The values that are not missing can be put in front.
omit [Field K] in
theorem perm_reduceOption (xs : List (Option K)) :
    xs.Perm <|
      xs.reduceOption.map some ++ List.replicate (xs.length - xs.reduceOption.length) none := by
  induction xs
  case nil => simp
  case cons x xs hi =>
    have hl : xs.reduceOption.length ≤ xs.length := List.reduceOption_length_le xs
    cases x
    case none =>
      rw [List.reduceOption_cons_of_none, List.length_cons, Nat.succ_sub hl, List.replicate_succ]
      exact (hi.cons none).trans List.perm_middle.symm
    case some x =>
      rw [List.reduceOption_cons_of_some, List.length_cons, List.length_cons, Nat.succ_sub_succ]
      exact hi.cons (some x)

omit [Field K] in
theorem map_some_reduceOption (h : none ∉ xs) : xs.reduceOption.map some = xs := by
  induction xs
  case nil => rfl
  case cons x xs hi =>
    cases x
    case none => exact absurd List.mem_cons_self h
    case some x =>
      rw [List.reduceOption_cons_of_some, List.map_cons, hi fun hm => h (.tail _ hm)]

variable [CharZero K]

theorem average_map_some (vs : List K) : average (vs.map some) = mean vs := by
  induction vs using List.reverseRecOn
  case nil => rfl
  case append_singleton vs v hi =>
    have hc : vs ++ [v] ≠ [] := List.concat_ne_nil v vs
    rw [List.map_append, List.map_singleton, average_concat, hi, mean_of_ne_nil hc, List.sum_append,
      List.sum_singleton, List.length_append, List.length_singleton, List.length_map]
    by_cases hv : vs = []
    case pos => simp [hv, push]
    have hl : vs.length ≠ 0 := mt List.length_eq_zero_iff.mp hv
    have hn : (vs.length : K) ≠ 0 := Nat.cast_ne_zero.mpr hl
    rw [mean_of_ne_nil hv, push, if_neg hl, div_mul_cancel₀ _ hn]
    push_cast
    rfl

theorem average_of_constant (h : ∀ w, some w ∈ xs → w = v) :
    average xs = if xs.reduceOption = [] then none else some v := by
  induction xs using List.reverseRecOn
  case nil => rfl
  case append_singleton xs x hi =>
    have hi := hi fun w hw => h w (List.mem_append_left _ hw)
    rw [average_concat, hi, ← List.concat_eq_append, List.reduceOption_concat]
    cases x
    case none => split <;> simp_all [push]
    case some x =>
      have hx : x = v := h x (by simp)
      have hn : (xs.length : K) + 1 ≠ 0 := Nat.cast_add_one_ne_zero xs.length
      split
      case isTrue => simp [push, hx]
      have hv : (v * xs.length + v) / (xs.length + 1) = v := by
        field_simp
      simp [push, hx, hv]

theorem mean_of_constant (hv : vs ≠ []) (h : ∀ w ∈ vs, w = v) : mean vs = some v := by
  have hl : (vs.length : K) ≠ 0 := Nat.cast_ne_zero.mpr (mt List.length_eq_zero_iff.mp hv)
  rw [mean_of_ne_nil hv, List.eq_replicate_of_mem h]
  simp only [List.sum_replicate, List.length_replicate, nsmul_eq_mul]
  rw [mul_div_cancel_left₀ _ hl]

-- A value that comes after those that are missing has to be the mean of the others.
theorem eq_mean_of_average {n : Nat} (hn : n ≠ 0) (hw : ws ≠ [])
    (h : average (ws.map some ++ List.replicate n none ++ [some v]) = mean (v :: ws)) :
    v * ws.length = ws.sum := by
  rw [average_concat, average_append_missing, average_map_some, mean_of_ne_nil hw,
    mean_of_ne_nil (by simp), push, if_neg (by simp [hn]), Option.some_inj] at h
  have hl : (ws.length : K) ≠ 0 := Nat.cast_ne_zero.mpr (mt List.length_eq_zero_iff.mp hw)
  have hl' : (ws.length : K) + 1 ≠ 0 := Nat.cast_add_one_ne_zero ws.length
  have hs : (ws.length : K) + n + 1 ≠ 0 := by exact_mod_cast Nat.succ_ne_zero (ws.length + n)
  simp only [List.length_append, List.length_map, List.length_replicate, List.sum_cons,
    List.length_cons, Nat.cast_add, Nat.cast_one] at h
  have hn' : (n : K) ≠ 0 := Nat.cast_ne_zero.mpr hn
  field_simp at h
  refine mul_left_cancel₀ hn' ?_
  linear_combination -h

theorem mul_length_eq_sum (hm : none ∈ xs) (hv : v ∈ xs.reduceOption)
    (h : ∀ ys, ys.Perm xs → average ys = mean xs.reduceOption) :
    v * xs.reduceOption.length = xs.reduceOption.sum := by
  obtain ⟨as, bs, he⟩ := List.append_of_mem hv
  have hp : (v :: (as ++ bs)).Perm xs.reduceOption := he ▸ List.perm_middle.symm
  have hn : xs.length - xs.reduceOption.length ≠ 0 :=
    Nat.sub_ne_zero_of_lt (List.reduceOption_length_lt_iff.mpr hm)
  rw [← hp.length_eq, ← hp.sum_eq, List.sum_cons, List.length_cons, Nat.cast_succ, mul_add_one,
    add_comm]
  congr 1
  by_cases hw : as ++ bs = []
  case pos => simp [hw]
  refine eq_mean_of_average hn hw ((h _ ?_).trans (mean_perm hp).symm)
  have hq := (hp.map some).append_right (List.replicate (xs.length - xs.reduceOption.length) none)
  refine (List.perm_append_singleton _ _).trans ?_
  exact hq.trans (perm_reduceOption xs).symm

theorem forall_perm_average_iff : (∀ ys, ys.Perm xs → average ys = mean xs.reduceOption) ↔
    none ∉ xs ∨ ∀ v w, some v ∈ xs → some w ∈ xs → v = w := by
  constructor
  case mp =>
    intro h
    by_cases hm : none ∈ xs
    case neg => exact .inl hm
    refine .inr fun v w hv hw => ?_
    have hv := List.reduceOption_mem_iff.mpr hv
    have hw := List.reduceOption_mem_iff.mpr hw
    have hl : (xs.reduceOption.length : K) ≠ 0 :=
      Nat.cast_ne_zero.mpr (List.length_pos_of_mem hv).ne'
    exact mul_right_cancel₀ hl ((mul_length_eq_sum hm hv h).trans (mul_length_eq_sum hm hw h).symm)
  case mpr =>
    rintro h ys hp
    have hr : ys.reduceOption.Perm xs.reduceOption := hp.filterMap id
    rw [← mean_perm hr]
    obtain h | h := h
    case inl => rw [← average_map_some, map_some_reduceOption fun hy => h (hp.mem_iff.mp hy)]
    case inr =>
      by_cases hn : ys.reduceOption = []
      case pos =>
        rw [average_of_constant (v := 0), if_pos hn, hn, mean_nil]
        intro w hw
        have hw := List.reduceOption_mem_iff.mpr hw
        rw [hn] at hw
        cases hw
      case neg =>
        obtain ⟨v, hv⟩ := List.exists_mem_of_ne_nil _ hn
        have hv := List.reduceOption_mem_iff.mp hv
        have hc (w : K) (hw : some w ∈ ys) : w = v := h w v (hp.mem_iff.mp hw) (hp.mem_iff.mp hv)
        rw [average_of_constant hc, if_neg hn]
        exact (mean_of_constant hn fun w hw => hc w (List.reduceOption_mem_iff.mp hw)).symm

end RunningMean
