import Quoodle.Data.CalendarOrder

-- Times as the outbox of webhooks stores and compares them.
namespace Gateway.DueTimes

open Calendar

def fraction (microsecond : Int) : List Char :=
  if microsecond = 0 then ['Z'] else '.' :: printNumber 6 microsecond ++ ['Z']

-- Models `isoformat` with `+00:00` replaced by `Z`, for microseconds since the beginning of 1970.
def storedText (t : Int) : List Char :=
  print isoDateTime (.ofSeconds (t / 10 ^ 6)) ++ fraction (t % 10 ^ 6)

-- The condition on a row in `_fetch_due`.
def isDue (nextRetryAt now : Int) : Bool :=
  storedText nextRetryAt ≤ storedText now

def InYears (t : Int) : Prop :=
  1000 ≤ (DateTime.ofSeconds (t / 10 ^ 6)).year ∧ (DateTime.ofSeconds (t / 10 ^ 6)).year ≤ 9999
  deriving Decidable

variable {s t : Int}

theorem fraction_lt_iff {m n : Nat} (hm : m < 10 ^ 6) (hn : n < 10 ^ 6) :
    fraction m < fraction n ↔ m ≠ 0 ∧ (n = 0 ∨ m < n) := by
  have hp {n : Nat} (h : n < 10 ^ 6) (hz : n ≠ 0) : fraction n = '.' :: (decimals 6 n ++ ['Z']) := by
    rw [fraction, if_neg (by omega), printNumber_eq (by decide) h, List.cons_append]
  have hz : fraction (0 : Nat) = ['Z'] := rfl
  rcases eq_or_ne m 0 with rfl | hm' <;> rcases eq_or_ne n 0 with rfl | hn'
  · simp
  · rw [hz, hp hn hn', List.cons_lt_cons_iff]
    simp +decide
  · rw [hz, hp hm hm', List.cons_lt_cons_iff]
    simp +decide [hm']
  · rw [hp hm hm', hp hn hn', List.cons_lt_cons_iff, lt_append_iff (by simp), decimals_lt_iff hm hn]
    simp [hm', hn']

theorem storedText_lt_iff (hs : InYears s) (ht : InYears t) : storedText s < storedText t ↔
    s / 10 ^ 6 < t / 10 ^ 6 ∨
      s / 10 ^ 6 = t / 10 ^ 6 ∧ s % 10 ^ 6 ≠ 0 ∧ (t % 10 ^ 6 = 0 ∨ s % 10 ^ 6 < t % 10 ^ 6) := by
  have hf {t : Int} (h : InYears t) : (DateTime.ofSeconds (t / 10 ^ 6)).Fits :=
    fits_ofSeconds (by have := h.left; omega) h.right
  have hn (t : Int) : ∃ n : Nat, t % 10 ^ 6 = n ∧ n < 10 ^ 6 :=
    ⟨(t % 10 ^ 6).toNat, by omega, by omega⟩
  obtain ⟨m, hm, hml⟩ := hn s
  obtain ⟨n, hn, hnl⟩ := hn t
  have he : values isoDateTime (.ofSeconds (s / 10 ^ 6)) =
      values isoDateTime (.ofSeconds (t / 10 ^ 6)) ↔ s / 10 ^ 6 = t / 10 ^ 6 :=
    ⟨values_inj, fun h => by rw [h]⟩
  rw [storedText, storedText, print_lt_iff (hf hs) (hf ht), values_lt_iff, he, hm, hn,
    fraction_lt_iff hml hnl]
  omega

-- The texts are in the order of the times, except within a second that one of them begins.
theorem isDue_iff_le_iff (hs : InYears s) (ht : InYears t) :
    (isDue s t ↔ s ≤ t) ↔ ¬(s / 10 ^ 6 = t / 10 ^ 6 ∧ (s % 10 ^ 6 = 0 ↔ t % 10 ^ 6 ≠ 0)) := by
  have hl := storedText_lt_iff ht hs
  rw [isDue, decide_eq_true_eq, ← not_lt, hl]
  omega

theorem isDue_next_second :
    InYears 1767225599999999 ∧ InYears 1767225600000000 ∧
      (isDue 1767225599999999 1767225600000000 ↔ (1767225599999999 : Int) ≤ 1767225600000000) :=
  have hs : InYears 1767225599999999 := by decide
  have ht : InYears 1767225600000000 := by decide
  ⟨hs, ht, (isDue_iff_le_iff hs ht).mpr (by decide)⟩

theorem not_isDue_after_whole_second :
    InYears 1767225600000000 ∧ InYears 1767225600000001 ∧
      storedText 1767225600000000 = "2026-01-01T00:00:00Z".toList ∧
      storedText 1767225600000001 = "2026-01-01T00:00:00.000001Z".toList ∧
      ¬(isDue 1767225600000000 1767225600000001 ↔ (1767225600000000 : Int) ≤ 1767225600000001) := by
  decide

end Gateway.DueTimes
