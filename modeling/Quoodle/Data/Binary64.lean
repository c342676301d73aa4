import Mathlib

-- Floating point numbers of double precision, as far as their values are integers.
namespace Binary64

-- Rounds to a multiple of `u`, ties to an even multiple.
def roundTo (u n : Nat) : Nat :=
  let q := n / u
  let r := n % u
  if u < 2 * r ∨ (2 * r = u ∧ q % 2 = 1) then (q + 1) * u else q * u

-- The distance between the doubles around `n`, which have 53 significant bits.
def ulp (n : Nat) : Nat :=
  2 ^ (Nat.log2 n - 52)

def roundNat (n : Nat) : Nat :=
  roundTo (ulp n) n

-- The double closest to the integer `n`, ignoring the largest double.
def round (n : Int) : Int :=
  if n < 0 then -(roundNat n.natAbs : Int) else roundNat n.natAbs

def limit : Nat :=
  2 ^ 1024

-- Rounds to `k` significant decimal digits. Returns the digits as a number and the exponent of the
-- last one.
def roundDigits (k n : Nat) : Nat × Nat :=
  let j := (Nat.toDigits 10 n).length - k
  let u := 10 ^ j
  (roundTo u n / u, j)

-- The shortest decimal that is read back as `n`, as digits and exponent. If there are two with the
-- same number of digits, the closer one is taken. Seventeen digits are always enough.
def shortest (n : Nat) : Nat × Nat :=
  let len := (Nat.toDigits 10 n).length
  let candidates (k : Nat) : List (Nat × Nat) :=
    let j := len - k
    let q := n / 10 ^ j
    let near := roundTo (10 ^ j) n / 10 ^ j
    let far := if near = q then q + 1 else q
    [(near, j), (far, j)]
  let reads (c : Nat × Nat) : Bool := roundNat (c.1 * 10 ^ c.2) == n
  ((List.range' 1 17).flatMap candidates).find? reads |>.getD (roundDigits 17 n)

theorem roundTo_one (n : Nat) : roundTo 1 n = n := by
  simp [roundTo, Nat.mod_one]

theorem roundTo_near {u : Nat} (hu : 0 < u) (n : Nat) :
    2 * roundTo u n ≤ 2 * n + u ∧ 2 * n ≤ 2 * roundTo u n + u := by
  have hd := Nat.div_add_mod n u
  have hm := Nat.mod_lt n hu
  rw [Nat.mul_comm] at hd
  unfold roundTo
  dsimp only
  split
  case isTrue h => rw [Nat.add_mul, Nat.one_mul]; omega
  case isFalse h => omega

theorem dvd_roundTo (u n : Nat) : u ∣ roundTo u n := by
  unfold roundTo
  dsimp only
  split <;> exact Nat.dvd_mul_left ..

theorem roundNat_eq_self {n : Nat} (h : n < 2 ^ 53) : roundNat n = n := by
  have hl : Nat.log2 n - 52 = 0 := by
    by_cases hn : n = 0
    case pos => simp [hn]
    have := (Nat.log2_lt hn).mpr h
    omega
  rw [roundNat, ulp, hl, Nat.pow_zero, roundTo_one]

theorem round_eq_self {n : Int} (h : n.natAbs < 2 ^ 53) : round n = n := by
  rw [round, roundNat_eq_self h]
  split <;> omega

theorem roundTo_mono {u m n : Nat} (hu : 0 < u) (h : m ≤ n) : roundTo u m ≤ roundTo u n := by
  by_contra hlt
  have hd := Nat.le_of_dvd (by omega) <| Nat.dvd_sub (dvd_roundTo u m) (dvd_roundTo u n)
  have hm := roundTo_near hu m
  have hn := roundTo_near hu n
  obtain rfl : m = n := by omega
  omega

theorem roundNat_mono {m n : Nat} (h : m ≤ n) : roundNat m ≤ roundNat n := by
  by_cases hm : m = 0
  case pos => simp [hm, roundNat, roundTo]
  have hu (k : Nat) : 0 < ulp k := Nat.two_pow_pos _
  have hl : m.log2 ≤ n.log2 := Nat.le_log2 (by omega) |>.mpr <| (Nat.log2_self_le hm).trans h
  cases hl.lt_or_eq
  case inr hl => simpa only [roundNat, ulp, hl] using roundTo_mono (hu n) h
  case inl hl =>
    -- The power of two between them is a multiple of both units.
    have hp {k l : Nat} (h : k.log2 - 52 ≤ l) : roundTo (ulp k) (2 ^ l) = 2 ^ l := by
      rw [← Nat.add_sub_of_le h, Nat.pow_add, ← ulp]
      simp [roundTo, hu, (hu k).ne, Nat.mul_comm]
    calc
      roundNat m ≤ roundTo (ulp m) (2 ^ n.log2) :=
        roundTo_mono (hu m) <| (Nat.lt_log2_self.trans_le <| Nat.pow_le_pow_right (by decide) hl).le
      _ = roundTo (ulp n) (2 ^ n.log2) := by rw [hp (by omega), hp (by omega)]
      _ ≤ roundNat n := roundTo_mono (hu n) (Nat.log2_self_le (by omega))

end Binary64
