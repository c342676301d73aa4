import Mathlib

-- Numbers as they lie in memory.
namespace Packed

-- The bytes of a number, the lowest first.
def littleEndian : Nat → Nat → List UInt8
  | 0, _ => []
  | n + 1, x => .ofNat x :: littleEndian n (x / 256)

def ofLittleEndian : List UInt8 → Nat
  | [] => 0
  | b :: bs => b.toNat + 256 * ofLittleEndian bs

@[simp]
theorem length_littleEndian (n x : Nat) : (littleEndian n x).length = n := by
  induction n generalizing x
  case zero => rfl
  case succ n hi => rw [littleEndian, List.length_cons, hi]

theorem ofLittleEndian_littleEndian (n x : Nat) :
    ofLittleEndian (littleEndian n x) = x % 2 ^ (8 * n) := by
  induction n generalizing x
  case zero => simp [littleEndian, ofLittleEndian, Nat.mod_one]
  case succ n hi =>
    have hp : 2 ^ (8 * (n + 1)) = 256 * 2 ^ (8 * n) := by ring
    rw [littleEndian, ofLittleEndian, hi, UInt8.toNat_ofNat', hp, Nat.mod_mul]

theorem littleEndian_add (m n x : Nat) :
    littleEndian (m + n) x = littleEndian m x ++ littleEndian n (x / 256 ^ m) := by
  induction m generalizing x
  case zero => simp [littleEndian]
  case succ m hi =>
    rw [Nat.add_right_comm, littleEndian, littleEndian, hi, Nat.div_div_eq_div_mul, pow_succ',
      List.cons_append]

theorem littleEndian_mod (n x : Nat) : littleEndian n (x % 256 ^ n) = littleEndian n x := by
  induction n generalizing x
  case zero => rfl
  case succ n hi =>
    have hb : UInt8.ofNat (x % (256 * 256 ^ n)) = .ofNat x := by
      refine UInt8.toNat_inj.mp ?_
      rw [UInt8.toNat_ofNat', UInt8.toNat_ofNat']
      exact Nat.mod_mul_right_mod x 256 (256 ^ n)
    rw [littleEndian, littleEndian, pow_succ', hb, Nat.mod_mul_right_div_self, hi]

end Packed
