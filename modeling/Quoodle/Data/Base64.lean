import Mathlib

-- Base 64 on bytes. The decoder ignores whatever follows the first padding, and has room for a
-- limited number of bytes.
namespace Base64

def index (c : UInt8) : Option Nat :=
  if 'A'.toUInt8 ≤ c ∧ c ≤ 'Z'.toUInt8 then some (c.toNat - 65)
  else if 'a'.toUInt8 ≤ c ∧ c ≤ 'z'.toUInt8 then some (c.toNat - 97 + 26)
  else if '0'.toUInt8 ≤ c ∧ c ≤ '9'.toUInt8 then some (c.toNat - 48 + 52)
  else if c = '+'.toUInt8 then some 62
  else if c = '/'.toUInt8 then some 63
  else none

def symbol (n : Nat) : UInt8 :=
  "ABCDEFGHIJKLMNOPQRSTUVWXYZabcdefghijklmnopqrstuvwxyz0123456789+/".toList.map Char.toUInt8
    |>.getD n 0

def padding : UInt8 :=
  '='.toUInt8

-- Six bits are taken in at a time, to the right of those in `acc`, and eight are given out as soon
-- as there are that many. Bits that have been given out stay in `acc` until they are shifted out.
def decodeFrom (cap : Nat) (acc bits : Nat) (out : List UInt8) : List UInt8 → Option (List UInt8)
  | [] => some out
  | c :: cs =>
    if c = padding then some out
    else
      match index c with
      | none => none
      | some d =>
        let acc := (acc * 64 + d) % 2 ^ 32
        if bits + 6 < 8 then decodeFrom cap acc (bits + 6) out cs
        else if out.length ≥ cap then none
        else
          decodeFrom cap acc (bits + 6 - 8) (out ++ [UInt8.ofNat (acc / 2 ^ (bits + 6 - 8))]) cs

def decode (cap : Nat) (cs : List UInt8) : Option (List UInt8) :=
  decodeFrom cap 0 0 [] cs

def encode : List UInt8 → List UInt8
  | a :: b :: c :: bs =>
    let v := a.toNat * 2 ^ 16 + b.toNat * 2 ^ 8 + c.toNat
    symbol (v / 2 ^ 18 % 64) :: symbol (v / 2 ^ 12 % 64) :: symbol (v / 2 ^ 6 % 64) ::
      symbol (v % 64) :: encode bs
  | [a, b] =>
    let v := a.toNat * 2 ^ 16 + b.toNat * 2 ^ 8
    [symbol (v / 2 ^ 18 % 64), symbol (v / 2 ^ 12 % 64), symbol (v / 2 ^ 6 % 64), padding]
  | [a] =>
    let v := a.toNat * 2 ^ 16
    [symbol (v / 2 ^ 18 % 64), symbol (v / 2 ^ 12 % 64), padding, padding]
  | [] => []

theorem index_symbol {n : Nat} (h : n < 64) : index (symbol n) = some n := by
  revert n
  decide +kernel

theorem symbol_ne_padding {n : Nat} (h : n < 64) : symbol n ≠ padding := by
  revert n
  decide +kernel

theorem length_encode (bs : List UInt8) : (encode bs).length = 4 * ((bs.length + 2) / 3) := by
  fun_induction encode bs <;> simp_all
  omega

theorem zero_not_mem_encode (bs : List UInt8) : 0 ∉ encode bs := by
  have hs (n : Nat) : 0 ≠ symbol (n % 64) := by
    have h : ∀ n < 64, 0 ≠ symbol n := by decide +kernel
    exact h _ (Nat.mod_lt _ (by decide))
  have hp : 0 ≠ padding := by decide
  fun_induction encode bs <;> simp_all

section Step

variable {cap acc bits : Nat} {out cs : List UInt8} {n : Nat}

theorem decodeFrom_hold (hn : n < 64) (hb : bits < 2) :
    decodeFrom cap acc bits out (symbol n :: cs) =
      decodeFrom cap ((acc * 64 + n) % 2 ^ 32) (bits + 6) out cs := by
  rw [decodeFrom, if_neg (symbol_ne_padding hn)]
  simp only [index_symbol hn]
  rw [if_pos (by omega)]

theorem decodeFrom_emit (hn : n < 64) (hb : 2 ≤ bits) (hc : out.length < cap) {a : UInt8}
    (ha : (acc * 64 + n) % 2 ^ 32 / 2 ^ (bits + 6 - 8) % 256 = a.toNat) :
    decodeFrom cap acc bits out (symbol n :: cs) =
      decodeFrom cap ((acc * 64 + n) % 2 ^ 32) (bits + 6 - 8) (out ++ [a]) cs := by
  have he : UInt8.ofNat ((acc * 64 + n) % 2 ^ 32 / 2 ^ (bits + 6 - 8)) = a :=
    UInt8.toNat_inj.mp (by simpa using ha)
  rw [decodeFrom, if_neg (symbol_ne_padding hn)]
  simp only [index_symbol hn]
  rw [if_neg (by omega), if_neg (by omega), he]

theorem decodeFrom_padding : decodeFrom cap acc bits out (padding :: cs) = some out := by
  rw [decodeFrom, if_pos rfl]

end Step

-- At the beginning of each group of four no bits are held back.
theorem decodeFrom_encode {cap : Nat} (acc : Nat) {out bs : List UInt8}
    (h : out.length + bs.length ≤ cap) : decodeFrom cap acc 0 out (encode bs) = some (out ++ bs) := by
  fun_induction encode bs generalizing acc out
  case case1 a b c bs v hi =>
    have ha := a.toNat_lt
    have hb := b.toNat_lt
    have hc := c.toNat_lt
    simp only [List.length_cons] at h
    rw [decodeFrom_hold (by omega) (by omega),
      decodeFrom_emit (a := a) (by omega) (by omega) (by omega) (by omega),
      decodeFrom_emit (a := b) (by omega) (by omega) (by simp; omega) (by omega),
      decodeFrom_emit (a := c) (by omega) (by omega) (by simp; omega) (by omega),
      hi _ (by simp; omega)]
    simp
  case case2 a b v =>
    have ha := a.toNat_lt
    have hb := b.toNat_lt
    simp only [List.length_cons, List.length_nil] at h
    rw [decodeFrom_hold (by omega) (by omega),
      decodeFrom_emit (a := a) (by omega) (by omega) (by omega) (by omega),
      decodeFrom_emit (a := b) (by omega) (by omega) (by simp; omega) (by omega),
      decodeFrom_padding]
    simp
  case case3 a v =>
    have ha := a.toNat_lt
    simp only [List.length_cons, List.length_nil] at h
    rw [decodeFrom_hold (by omega) (by omega),
      decodeFrom_emit (a := a) (by omega) (by omega) (by omega) (by omega), decodeFrom_padding]
  case case4 => simp [decodeFrom]

theorem decode_encode {cap : Nat} {bs : List UInt8} (h : bs.length ≤ cap) :
    decode cap (encode bs) = some bs :=
  decodeFrom_encode 0 (by simpa using h)

end Base64
