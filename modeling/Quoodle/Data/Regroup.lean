import Mathlib

-- Streams of bits that are taken in as digits of `m` bits and given out as digits of `n` bits.
namespace Regroup

def value (m : Nat) (ds : List Nat) : Nat :=
  Nat.ofDigits (2 ^ m) ds.reverse

-- Of the digits `ds`, all but the last `r` bits have been given out as the digits `es`. The buffer
-- ends with the bits that have not.
structure Holds (m n : Nat) (ds es : List Nat) (buffer r : Nat) : Prop where
  length : m * ds.length = n * es.length + r
  value : value m ds = value n es * 2 ^ r + buffer % 2 ^ r

variable {m n d r buffer : Nat} {ds es fs : List Nat}

theorem value_concat (m d : Nat) (ds : List Nat) :
    value m (ds ++ [d]) = value m ds * 2 ^ m + d := by
  simp only [value, List.reverse_append, List.reverse_singleton, List.singleton_append,
    Nat.ofDigits_cons]
  ring

theorem eq_of_value (hm : 0 < m) (hl : es.length = fs.length) (he : ∀ d ∈ es, d < 2 ^ m)
    (hf : ∀ d ∈ fs, d < 2 ^ m) (h : value m es = value m fs) : es = fs := by
  refine List.reverse_injective <| Nat.ofDigits_inj_of_len_eq (Nat.one_lt_two_pow hm.ne') ?_ ?_ ?_ h
  · simpa using hl
  · simpa using he
  · simpa using hf

namespace Holds

theorem init (m n buffer : Nat) : Holds m n [] [] buffer 0 :=
  ⟨rfl, by simp [Regroup.value, Nat.mod_one]⟩

theorem push (h : Holds m n ds es buffer r) (hd : d < 2 ^ m) {buffer' : Nat}
    (hb : buffer' % 2 ^ (r + m) = (buffer * 2 ^ m + d) % 2 ^ (r + m)) :
    Holds m n (ds ++ [d]) es buffer' (r + m) where
  length := by
    have := h.length
    simp only [List.length_append, List.length_singleton, Nat.mul_add]
    omega
  value := by
    have hm : (buffer * 2 ^ m + d) % 2 ^ (r + m) = buffer % 2 ^ r * 2 ^ m + d := by
      rw [Nat.add_comm r m, Nat.pow_add, Nat.mod_mul, Nat.mul_comm buffer, Nat.mul_add_mod,
        Nat.mod_eq_of_lt hd, Nat.mul_add_div (Nat.two_pow_pos m), Nat.div_eq_of_lt hd, Nat.add_zero,
        Nat.add_comm, Nat.mul_comm]
    rw [value_concat, h.value, hb, hm]
    ring

theorem emit (h : Holds m n ds es buffer (r + n)) :
    Holds m n ds (es ++ [buffer / 2 ^ r % 2 ^ n]) buffer r where
  length := by
    have := h.length
    simp only [List.length_append, List.length_singleton, Nat.mul_add]
    omega
  value := by
    rw [value_concat, h.value, Nat.pow_add, Nat.mod_mul]
    ring

-- What is given out is determined by what was taken in, as long as less than a digit is held back.
theorem eq_of_value_eq (h : Holds m n ds es buffer r) (hr : r < n) (he : ∀ d ∈ es, d < 2 ^ n)
    (hf : ∀ d ∈ fs, d < 2 ^ n) {p : Nat} (hp : p < n) (hl : m * ds.length = n * fs.length + p)
    (hv : Regroup.value m ds = Regroup.value n fs * 2 ^ p) : es = fs := by
  have hn : 0 < n := by omega
  have hq := h.length.symm.trans hl
  have hrp : r = p := by
    have := congrArg (· % n) hq
    simpa [Nat.mul_add_mod, Nat.mod_eq_of_lt hr, Nat.mod_eq_of_lt hp] using this
  subst hrp
  refine eq_of_value hn ?_ he hf ?_
  · exact Nat.eq_of_mul_eq_mul_left hn (by omega)
  · have := congrArg (· / 2 ^ r) (h.value.symm.trans hv)
    simpa [Nat.mul_comm _ (2 ^ r), Nat.mul_add_div, Nat.div_eq_of_lt, Nat.mod_lt] using this

end Holds

end Regroup
