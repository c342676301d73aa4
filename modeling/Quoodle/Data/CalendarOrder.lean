import Quoodle.Data.Calendar

-- Texts that a format prints are in the order of the numbers in them, and these in the order of time.
namespace Calendar

open DateTime (ofSeconds)

theorem lt_append_iff {α : Type} [LinearOrder α] {a b : List α} (h : a.length = b.length)
    (x y : List α) : a ++ x < b ++ y ↔ a < b ∨ a = b ∧ x < y := by
  induction a generalizing b
  case nil =>
    obtain rfl := List.length_eq_zero_iff.mp h.symm
    simp
  case cons c a hi =>
    cases b
    case nil => cases h
    case cons d b =>
      simp only [List.cons_append, List.cons_lt_cons_iff, hi (Nat.succ.inj h), List.cons.injEq]
      tauto

def decimals : Nat → Nat → List Char
  | 0,     _ => []
  | w + 1, n => decimals w (n / 10) ++ [(n % 10).digitChar]

variable {w m n : Nat}

@[simp]
theorem length_decimals (w n : Nat) : (decimals w n).length = w := by
  induction w generalizing n
  case zero => rfl
  case succ w hi => rw [decimals, List.length_append, hi, List.length_singleton]

theorem decimals_zero (w : Nat) : decimals w 0 = List.replicate w '0' := by
  induction w
  case zero => rfl
  case succ w hi => rw [decimals, Nat.zero_div, hi, List.replicate_succ']; rfl

theorem printNumber_eq (hw : 0 < w) (h : n < 10 ^ w) : printNumber w n = decimals w n := by
  have hp (w n : Nat) : printNumber w n =
      List.replicate (w - (Nat.toDigits 10 n).length) '0' ++ Nat.toDigits 10 n := by
    simp [printNumber]
  induction w generalizing n
  case zero => cases hw
  case succ w hi =>
    rw [hp, decimals]
    by_cases hn : n < 10
    case pos =>
      rw [Nat.toDigits_of_lt_base hn, Nat.div_eq_of_lt hn, Nat.mod_eq_of_lt hn, decimals_zero]
      rfl
    case neg =>
      have hw : 0 < w := by
        by_contra hz
        obtain rfl : w = 0 := by omega
        omega
      rw [← hi hw (by omega), hp, Nat.toDigits_of_base_le (by decide) (by omega), List.length_append,
        List.length_singleton, Nat.add_sub_add_right, List.append_assoc]

theorem decimals_inj_iff (hm : m < 10 ^ w) (hn : n < 10 ^ w) :
    decimals w m = decimals w n ↔ m = n := by
  have hd : ∀ a < 10, ∀ b < 10, Nat.digitChar a = Nat.digitChar b → a = b := by decide
  refine ⟨fun h => ?_, fun h => by rw [h]⟩
  induction w generalizing m n
  case zero => omega
  case succ w hi =>
    obtain ⟨h₁, h₂⟩ := List.append_inj' h rfl
    have hq := hi (by omega) (by omega) h₁
    have hr := hd _ (Nat.mod_lt _ (by decide)) _ (Nat.mod_lt _ (by decide)) (List.singleton_inj.mp h₂)
    omega

theorem decimals_lt_iff (hm : m < 10 ^ w) (hn : n < 10 ^ w) :
    decimals w m < decimals w n ↔ m < n := by
  have hd : ∀ a < 10, ∀ b < 10, ([Nat.digitChar a] < [Nat.digitChar b] ↔ a < b) := by decide
  induction w generalizing m n
  case zero => simp [decimals]; omega
  case succ w hi =>
    have hm' : m / 10 < 10 ^ w := by omega
    have hn' : n / 10 < 10 ^ w := by omega
    have hl : decimals w (m / 10) < decimals w (n / 10) ↔ m / 10 < n / 10 := hi hm' hn'
    rw [decimals, decimals, lt_append_iff (by simp), hl, decimals_inj_iff hm' hn',
      hd _ (Nat.mod_lt _ (by decide)) _ (Nat.mod_lt _ (by decide))]
    omega

def values (fmt : List Directive) (d : DateTime) : List Int :=
  fmt.filterMap fun
    | .number f => some (f.get d)
    | .literal _ => none

def DateTime.Fits (d : DateTime) : Prop :=
  ∀ f : Field, 0 ≤ f.get d ∧ f.get d < 10 ^ f.width

theorem print_lt_iff {d d' : DateTime} (h : d.Fits) (h' : d'.Fits) (fmt : List Directive)
    (x y : List Char) : print fmt d ++ x < print fmt d' ++ y ↔
      values fmt d < values fmt d' ∨ values fmt d = values fmt d' ∧ x < y := by
  induction fmt
  case nil => simp [print, values]
  case cons a fmt hi =>
    cases a
    case literal c =>
      simp only [print, values, List.flatMap_cons, List.filterMap_cons, List.cons_append,
        List.nil_append, List.cons_lt_cons_iff, lt_irrefl, false_or, true_and]
      exact hi
    case number f =>
      obtain ⟨m, hm⟩ := Int.eq_ofNat_of_zero_le (h f).left
      obtain ⟨n, hn⟩ := Int.eq_ofNat_of_zero_le (h' f).left
      have hml : m < 10 ^ f.width := by exact_mod_cast hm ▸ (h f).right
      have hnl : n < 10 ^ f.width := by exact_mod_cast hn ▸ (h' f).right
      have hw : 0 < f.width := by cases f <;> decide
      have hc (d : DateTime) : print (.number f :: fmt) d =
        printNumber f.width (f.get d) ++ print fmt d := rfl
      have hv (d : DateTime) : values (.number f :: fmt) d = f.get d :: values fmt d := rfl
      rw [hc, hc, hv, hv, hm, hn, printNumber_eq hw hml, printNumber_eq hw hnl, List.append_assoc,
        List.append_assoc, lt_append_iff (by simp), decimals_lt_iff hml hnl, decimals_inj_iff hml hnl,
        hi, List.cons_lt_cons_iff, List.cons.injEq, Int.ofNat_lt, Int.ofNat_inj]
      tauto

section Order

variable {x x' y : Int}

theorem yearOfEra_mono (h : x ≤ x') : (x - x / 1460 + x / 36524 - x / 146096) / 365 ≤
    (x' - x' / 1460 + x' / 36524 - x' / 146096) / 365 := by
  have h₁ : x - x / 1460 ≤ x' - x' / 1460 := by omega
  have h₂ : x / 36524 - x / 146096 ≤ x' / 36524 - x' / 146096 := by omega
  exact Int.ediv_le_ediv (by decide) (by omega)

-- The days are counted within centuries, of which the last has one more, and groups of four years.
theorem dayOfYear_bounds (h₀ : 0 ≤ x) (h₁ : x < 146097)
    (hy : y = (x - x / 1460 + x / 36524 - x / 146096) / 365) :
    0 ≤ x - (365 * y + y / 4 - y / 100) ∧ x - (365 * y + y / 4 - y / 100) ≤ 365 := by
  obtain rfl | hx : x = 146096 ∨ x < 146096 := by omega
  case inl => subst hy; decide
  have he : x / 146096 = 0 := by omega
  have hd : x / 36524 = 0 ∨ x / 36524 = 1 ∨ x / 36524 = 2 ∨ x / 36524 = 3 := by omega
  have hc : y / 100 = x / 36524 := by rcases hd with hd | hd | hd | hd <;> omega
  have h4 : (x - 36524 * (x / 36524)) / 1461 = (y - 100 * (x / 36524)) / 4 := by
    rcases hd with hd | hd | hd | hd <;> rw [hd] at hy ⊢ <;> omega
  rcases hd with hd | hd | hd | hd <;> omega

-- A date by its era, the day `x` and the year `y` of the era, the day `n` and the month `m` of the
-- year.
structure IsDate (t : Int) (era x y n m : Int) : Prop where
  days : t / 86400 + 719468 = 146097 * era + x
  hx : 0 ≤ x ∧ x < 146097
  hy : y = (x - x / 1460 + x / 36524 - x / 146096) / 365
  hn : n = x - (365 * y + y / 4 - y / 100)
  hm : m = (5 * n + 2) / 153
  year : (ofSeconds t).year = (12 * (y + 400 * era) + m + 2) / 12
  month : (ofSeconds t).month = (12 * (y + 400 * era) + m + 2) % 12 + 1
  day : (ofSeconds t).day = n - (153 * m + 2) / 5 + 1

theorem exists_isDate (t : Int) : ∃ era x y n m, IsDate t era x y n m := by
  have hx : 0 ≤ (t / 86400 + 719468) % 146097 ∧ (t / 86400 + 719468) % 146097 < 146097 := by omega
  refine ⟨(t / 86400 + 719468) / 146097, (t / 86400 + 719468) % 146097, _, _, _, by omega, hx, rfl,
    rfl, rfl, ?_, ?_, rfl⟩ <;> have hn := dayOfYear_bounds hx.left hx.right rfl <;>
    simp only [ofSeconds] <;>
    generalize (t / 86400 + 719468) % 146097 = x at hn ⊢ <;>
    generalize (x - x / 1460 + x / 36524 - x / 146096) / 365 = y at hn ⊢ <;>
    generalize x - (365 * y + y / 4 - y / 100) = n at hn ⊢ <;> split <;> omega

theorem IsDate.bounds {t era x y n m : Int} (h : IsDate t era x y n m) :
    (0 ≤ y ∧ y < 400) ∧ 0 ≤ m ∧ m < 12 := by
  have hn := dayOfYear_bounds h.hx.left h.hx.right h.hy
  rw [← h.hn] at hn
  have hx := h.hx
  have hy := h.hy
  have hm := h.hm
  clear h
  constructor <;> omega

theorem IsDate.lt {t era x y n m t' era' x' y' n' m' : Int} (h : IsDate t era x y n m)
    (h' : IsDate t' era' x' y' n' m') (ht : t / 86400 < t' / 86400) :
    12 * (y + 400 * era) + m < 12 * (y' + 400 * era') + m' ∨
      12 * (y + 400 * era) + m = 12 * (y' + 400 * era') + m' ∧
        n - (153 * m + 2) / 5 + 1 < n' - (153 * m' + 2) / 5 + 1 := by
  have hb := h.bounds
  have hb' := h'.bounds
  have hd := h.days
  have hd' := h'.days
  have hx := h.hx
  have hx' := h'.hx
  have he : era < era' ∨ era = era' ∧ x < x' := by omega
  rcases he with he | ⟨he, hl⟩
  · omega
  · have hy : y ≤ y' := h.hy ▸ h'.hy ▸ yearOfEra_mono hl.le
    have hn := h.hn
    have hn' := h'.hn
    have hm := h.hm
    have hm' := h'.hm
    obtain hy | rfl := hy.lt_or_eq
    · omega
    · have hnl : n < n' := by omega
      have hml : m ≤ m' := by omega
      omega

theorem values_lt (a b : Int) (h : a < b) :
    values isoDateTime (.ofSeconds a) < values isoDateTime (.ofSeconds b) := by
  obtain ⟨_, _, _, _, _, ha⟩ := exists_isDate a
  obtain ⟨_, _, _, _, _, hb⟩ := exists_isDate b
  have hv (d : DateTime) :
      values isoDateTime d = [d.year, d.month, d.day, d.hour, d.minute, d.second] := rfl
  obtain ht | ht : a / 86400 < b / 86400 ∨ a / 86400 = b / 86400 := by omega
  case inl =>
    have hl := ha.lt hb ht
    simp only [hv, List.cons_lt_cons_iff, ha.year, ha.month, ha.day, hb.year, hb.month, hb.day]
    omega
  case inr =>
    have he : (ofSeconds a).year = (ofSeconds b).year ∧
        (ofSeconds a).month = (ofSeconds b).month ∧
        (ofSeconds a).day = (ofSeconds b).day := by
      simp only [ofSeconds, ht, and_self]
    simp only [hv, List.cons_lt_cons_iff, he]
    simp only [ofSeconds, lt_irrefl, false_or, true_and, and_false, or_false]
    omega

theorem values_inj {a b : Int}
    (h : values isoDateTime (.ofSeconds a) = values isoDateTime (.ofSeconds b)) : a = b := by
  by_contra hne
  rcases lt_or_gt_of_ne hne with hl | hl
  · exact (h ▸ values_lt a b hl).ne rfl
  · exact (h ▸ values_lt b a hl).ne rfl

theorem values_lt_iff {a b : Int} :
    values isoDateTime (.ofSeconds a) < values isoDateTime (.ofSeconds b) ↔ a < b := by
  refine ⟨fun h => ?_, values_lt a b⟩
  by_contra hn
  obtain hl | rfl := (not_lt.mp hn).lt_or_eq
  · exact (h.trans (values_lt b a hl)).ne rfl
  · exact h.ne rfl

-- Four digits are enough for the years up to 9999, and two for everything else.
theorem fits_ofSeconds {t : Int} (h₀ : 0 ≤ (ofSeconds t).year)
    (h : (ofSeconds t).year ≤ 9999) : (ofSeconds t).Fits := by
  obtain ⟨_, x, y, n, m, hd⟩ := exists_isDate t
  have hb := hd.bounds
  have hm := hd.hm
  rintro (_ | _) <;> simp only [Field.get, Field.width]
  case year => omega
  case month => rw [hd.month]; omega
  case day => rw [hd.day]; omega
  case hour | minute | second => simp only [ofSeconds]; omega

end Order

end Calendar
