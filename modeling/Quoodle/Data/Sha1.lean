import Mathlib

-- SHA-1 as the standard defines it, for messages of bits.
namespace Sha1

-- The bits of a number, with the highest of them first.
def toBits (n x : Nat) : List Bool :=
  (List.range n).map fun i => x.testBit (n - 1 - i)

def ofBits (bits : List Bool) : Nat :=
  bits.foldl (fun x b => x * 2 + b.toNat) 0

def ofBytes (bs : List UInt8) : List Bool :=
  bs.flatMap fun b => toBits 8 b.toNat

def rotl (n x : UInt32) : UInt32 :=
  x <<< n ||| x >>> (32 - n)

def ch (x y z : UInt32) : UInt32 :=
  (x &&& y) ^^^ (~~~x &&& z)

def parity (x y z : UInt32) : UInt32 :=
  x ^^^ y ^^^ z

def maj (x y z : UInt32) : UInt32 :=
  (x &&& y) ^^^ (x &&& z) ^^^ (y &&& z)

def f (t : Nat) : UInt32 → UInt32 → UInt32 → UInt32 :=
  if t < 20 then ch else if t < 40 then parity else if t < 60 then maj else parity

def k (t : Nat) : UInt32 :=
  if t < 20 then 0x5a827999 else if t < 40 then 0x6ed9eba1 else if t < 60 then 0x8f1bbcdc
  else 0xca62c1d6

structure Words where
  a : UInt32
  b : UInt32
  c : UInt32
  d : UInt32
  e : UInt32

def Words.toList (v : Words) : List UInt32 :=
  [v.a, v.b, v.c, v.d, v.e]

def Words.add (v w : Words) : Words :=
  ⟨v.a + w.a, v.b + w.b, v.c + w.c, v.d + w.d, v.e + w.e⟩

def initial : Words :=
  ⟨0x67452301, 0xefcdab89, 0x98badcfe, 0x10325476, 0xc3d2e1f0⟩

-- Between the one and the length are as many zeros as fill the last block of 512 bits.
def padded (m : List Bool) : List Bool :=
  m ++ [true] ++ List.replicate ((447 - m.length : Int) % 512).toNat false ++ toBits 64 m.length

def word (m : List Bool) (i : Nat) : UInt32 :=
  .ofNat (ofBits ((m.drop (32 * i)).take 32))

def schedule (block : Nat → UInt32) (t : Nat) : UInt32 :=
  if t < 16 then block t
  else rotl 1 (schedule block (t - 3) ^^^ schedule block (t - 8) ^^^ schedule block (t - 14) ^^^
    schedule block (t - 16))

def round (w : Nat → UInt32) (v : Words) (t : Nat) : Words :=
  ⟨rotl 5 v.a + f t v.b v.c v.d + v.e + k t + w t, v.a, rotl 30 v.b, v.c, v.d⟩

def compress (block : Nat → UInt32) (v : Words) : Words :=
  v.add ((List.range 80).foldl (round (schedule block)) v)

def hash (m : List Bool) : Words :=
  (List.range ((padded m).length / 512)).foldl
    (fun v i => compress (fun t => word (padded m) (16 * i + t)) v) initial

def digest (m : List Bool) : List UInt8 :=
  (hash m).toList.flatMap fun w => [3, 2, 1, 0].map fun i => .ofNat (w.toNat / 256 ^ i)

section Bits

variable {n : Nat} {bs : List UInt8}

def ofBigEndian (bs : List UInt8) : Nat :=
  bs.foldl (fun x b => x * 256 + b.toNat) 0

@[simp]
theorem length_toBits (n x : Nat) : (toBits n x).length = n := by
  simp [toBits]

theorem toBits_add (m n x : Nat) : toBits (m + n) x = toBits m (x / 2 ^ n) ++ toBits n x := by
  simp only [toBits, List.range_add, List.map_append, List.map_map, ← Nat.shiftRight_eq_div_pow,
    Nat.testBit_shiftRight]
  congr 1 <;> refine List.map_congr_left fun i hi => ?_
  · have := List.mem_range.mp hi
    congr 1
    omega
  · have := List.mem_range.mp hi
    simp only [Function.comp_apply]
    congr 1
    omega

theorem toBits_mod (n x : Nat) : toBits n (x % 2 ^ n) = toBits n x := by
  refine List.map_congr_left fun i hi => ?_
  have := List.mem_range.mp hi
  rw [Nat.testBit_mod_two_pow, decide_eq_true (by omega), Bool.true_and]

theorem ofBits_toBits (n x : Nat) : ofBits (toBits n x) = x % 2 ^ n := by
  induction n generalizing x
  case zero => rw [Nat.pow_zero, Nat.mod_one]; rfl
  case succ n hi =>
    have hb : toBits 1 x = [decide (x % 2 = 1)] := by simp [toBits, Nat.testBit_zero]
    have hm : (decide (x % 2 = 1)).toNat = x % 2 := by
      rcases Nat.mod_two_eq_zero_or_one x with h | h <;> simp [h]
    have ha (bits : List Bool) (b : Bool) : ofBits (bits ++ [b]) = ofBits bits * 2 + b.toNat :=
      List.foldl_concat ..
    rw [toBits_add, hb, ha, hi, hm, Nat.pow_one, Nat.pow_succ', Nat.mod_mul]
    ring

theorem ofBytes_append (bs cs : List UInt8) : ofBytes (bs ++ cs) = ofBytes bs ++ ofBytes cs :=
  List.flatMap_append

theorem ofBytes_eq_toBits (bs : List UInt8) :
    ofBytes bs = toBits (8 * bs.length) (ofBigEndian bs) := by
  induction bs using List.reverseRecOn
  case nil => rfl
  case append_singleton bs b hi =>
    have hb := b.toNat_lt
    have hv : ofBigEndian (bs ++ [b]) = ofBigEndian bs * 256 + b.toNat := List.foldl_concat ..
    have hd : (ofBigEndian bs * 256 + b.toNat) / 2 ^ 8 = ofBigEndian bs := by omega
    have hm : (ofBigEndian bs * 256 + b.toNat) % 2 ^ 8 = b.toNat := by omega
    rw [ofBytes_append, hi, hv, List.length_append, Nat.mul_add, List.length_singleton, toBits_add,
      hd, ← toBits_mod _ (_ + _), hm]
    rfl

@[simp]
theorem length_ofBytes (bs : List UInt8) : (ofBytes bs).length = 8 * bs.length := by
  rw [ofBytes_eq_toBits, length_toBits]

theorem ofBytes_zeros (n : Nat) : ofBytes (List.replicate n 0) = List.replicate (8 * n) false := by
  induction n
  case zero => rfl
  case succ n hi =>
    rw [List.replicate_succ, Nat.mul_succ, Nat.add_comm, List.replicate_add, ← hi]
    rfl

theorem take_drop_ofBytes (i n : Nat) (h : i + n ≤ bs.length) :
    ((ofBytes bs).drop (8 * i)).take (8 * n) = ofBytes ((bs.drop i).take n) := by
  have hd : (ofBytes bs).drop (8 * i) = ofBytes (bs.drop i) := by
    conv => lhs; rw [← List.take_append_drop i bs, ofBytes_append]
    exact List.drop_left' (by rw [length_ofBytes, List.length_take_of_le (by omega)])
  rw [hd]
  conv => lhs; rw [← List.take_append_drop n (bs.drop i), ofBytes_append]
  exact List.take_left' (by rw [length_ofBytes, List.length_take_of_le (by simp; omega)])

theorem word_ofBytes (i : Nat) (h : 4 * i + 4 ≤ bs.length) :
    word (ofBytes bs) i = .ofNat (ofBigEndian ((bs.drop (4 * i)).take 4)) := by
  have hl : ((bs.drop (4 * i)).take 4).length = 4 := by simp; omega
  rw [word, show 32 * i = 8 * (4 * i) by omega, take_drop_ofBytes (4 * i) 4 h, ofBytes_eq_toBits,
    hl, ofBits_toBits]
  apply UInt32.toNat_inj.mp
  simp

end Bits

end Sha1
