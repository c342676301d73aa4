import Mathlib

-- SHA-256 as it is computed from a stream of bytes, and the message authentication code on top.
namespace Sha256

def roundConstants : List UInt32 := [
  0x428a2f98, 0x71374491, 0xb5c0fbcf, 0xe9b5dba5, 0x3956c25b, 0x59f111f1, 0x923f82a4, 0xab1c5ed5,
  0xd807aa98, 0x12835b01, 0x243185be, 0x550c7dc3, 0x72be5d74, 0x80deb1fe, 0x9bdc06a7, 0xc19bf174,
  0xe49b69c1, 0xefbe4786, 0x0fc19dc6, 0x240ca1cc, 0x2de92c6f, 0x4a7484aa, 0x5cb0a9dc, 0x76f988da,
  0x983e5152, 0xa831c66d, 0xb00327c8, 0xbf597fc7, 0xc6e00bf3, 0xd5a79147, 0x06ca6351, 0x14292967,
  0x27b70a85, 0x2e1b2138, 0x4d2c6dfc, 0x53380d13, 0x650a7354, 0x766a0abb, 0x81c2c92e, 0x92722c85,
  0xa2bfe8a1, 0xa81a664b, 0xc24b8b70, 0xc76c51a3, 0xd192e819, 0xd6990624, 0xf40e3585, 0x106aa070,
  0x19a4c116, 0x1e376c08, 0x2748774c, 0x34b0bcb5, 0x391c0cb3, 0x4ed8aa4a, 0x5b9cca4f, 0x682e6ff3,
  0x748f82ee, 0x78a5636f, 0x84c87814, 0x8cc70208, 0x90befffa, 0xa4506ceb, 0xbef9a3f7, 0xc67178f2
]

structure Words where
  a : UInt32
  b : UInt32
  c : UInt32
  d : UInt32
  e : UInt32
  f : UInt32
  g : UInt32
  h : UInt32
  deriving DecidableEq

def Words.toList (w : Words) : List UInt32 :=
  [w.a, w.b, w.c, w.d, w.e, w.f, w.g, w.h]

def Words.add (v w : Words) : Words :=
  ⟨v.a + w.a, v.b + w.b, v.c + w.c, v.d + w.d, v.e + w.e, v.f + w.f, v.g + w.g, v.h + w.h⟩

def initial : Words :=
  ⟨0x6a09e667, 0xbb67ae85, 0x3c6ef372, 0xa54ff53a, 0x510e527f, 0x9b05688c, 0x1f83d9ab, 0x5be0cd19⟩

def rotr (x n : UInt32) : UInt32 :=
  x >>> n ||| x <<< (32 - n)

def readWords : List UInt8 → List UInt32
  | a :: b :: c :: d :: bs =>
    (a.toUInt32 <<< 24 ||| b.toUInt32 <<< 16 ||| c.toUInt32 <<< 8 ||| d.toUInt32) :: readWords bs
  | _ => []

def writeWord (w : UInt32) : List UInt8 :=
  [(w >>> 24).toUInt8, (w >>> 16).toUInt8, (w >>> 8).toUInt8, w.toUInt8]

-- Appends a word to the schedule, which is kept with its last word first.
def extend (ws : List UInt32) : List UInt32 :=
  let w₁₅ := ws.getD 14 0
  let w₂ := ws.getD 1 0
  let s₀ := rotr w₁₅ 7 ^^^ rotr w₁₅ 18 ^^^ w₁₅ >>> 3
  let s₁ := rotr w₂ 17 ^^^ rotr w₂ 19 ^^^ w₂ >>> 10
  (ws.getD 15 0 + s₀ + ws.getD 6 0 + s₁) :: ws

def schedule (block : List UInt8) : List UInt32 :=
  (Nat.repeat extend 48 (readWords block).reverse).reverse

def round (v : Words) (k m : UInt32) : Words :=
  let s₁ := rotr v.e 6 ^^^ rotr v.e 11 ^^^ rotr v.e 25
  let ch := v.e &&& v.f ^^^ ~~~v.e &&& v.g
  let t₁ := v.h + s₁ + ch + k + m
  let s₀ := rotr v.a 2 ^^^ rotr v.a 13 ^^^ rotr v.a 22
  let maj := v.a &&& v.b ^^^ v.a &&& v.c ^^^ v.b &&& v.c
  ⟨t₁ + (s₀ + maj), v.a, v.b, v.c, v.d + t₁, v.e, v.f, v.g⟩

def transform (state : Words) (block : List UInt8) : Words :=
  state.add <| (roundConstants.zip (schedule block)).foldl (fun v km => round v km.1 km.2) state

-- What has been taken in: whole blocks are part of `state`, and `data` is the beginning of the next.
structure Context where
  state : Words
  bitlen : UInt64
  data : List UInt8

def init : Context :=
  ⟨initial, 0, []⟩

def Context.push (ctx : Context) (b : UInt8) : Context :=
  let data := ctx.data ++ [b]
  if data.length = 64 then ⟨transform ctx.state data, ctx.bitlen + 512, []⟩ else { ctx with data }

def Context.update (ctx : Context) (bs : List UInt8) : Context :=
  bs.foldl push ctx

def writeLength (n : UInt64) : List UInt8 :=
  [56, 48, 40, 32, 24, 16, 8, 0].map fun i : UInt64 => (n >>> i).toUInt8

def Context.final (ctx : Context) : List UInt8 :=
  let bitlen := ctx.bitlen + ctx.data.length.toUInt64 * 8
  let data := ctx.data ++ [0x80]
  let state :=
    if ctx.data.length < 56 then
      transform ctx.state (data ++ List.replicate (56 - data.length) 0 ++ writeLength bitlen)
    else
      transform (transform ctx.state (data ++ List.replicate (64 - data.length) 0))
        (List.replicate 56 0 ++ writeLength bitlen)
  state.toList.flatMap writeWord

def hash (bs : List UInt8) : List UInt8 :=
  (init.update bs).final

def pad (key : List UInt8) (b : UInt8) : List UInt8 :=
  (key ++ List.replicate (64 - key.length) 0).map (b ^^^ ·)

def hmac (key msg : List UInt8) : List UInt8 :=
  let key := if key.length > 64 then hash key else key
  let inner := ((init.update (pad key 0x36)).update msg).final
  ((init.update (pad key 0x5c)).update inner).final

theorem Context.length_final (ctx : Context) : ctx.final.length = 32 :=
  rfl

theorem length_hmac (key msg : List UInt8) : (hmac key msg).length = 32 :=
  Context.length_final _

-- The blocks of a message that is there as a whole.
def absorb (state : Words) : Nat → List UInt8 → Words
  | 0,     _ => state
  | n + 1, bs => absorb (transform state (bs.take 64)) n (bs.drop 64)

-- Zeros are added until a length fits into the last block.
def padded (bs : List UInt8) : List UInt8 :=
  bs ++ [0x80] ++ List.replicate ((119 - bs.length % 64) % 64) 0 ++
    writeLength (bs.length.toUInt64 * 8)

def digest (bs : List UInt8) : Words :=
  absorb initial ((padded bs).length / 64) (padded bs)

theorem absorb_append {state : Words} {n : Nat} {bs cs : List UInt8} (h : bs.length = 64 * n)
    (m : Nat) : absorb state (n + m) (bs ++ cs) = absorb (absorb state n bs) m cs := by
  induction n generalizing state bs
  case zero =>
    obtain rfl := List.length_eq_zero_iff.mp h
    rw [Nat.zero_add, List.nil_append, absorb]
  case succ n hi =>
    have hl : 64 ≤ bs.length := by omega
    rw [Nat.add_right_comm, absorb, absorb, List.take_append_of_le_length hl,
      List.drop_append_of_le_length hl, hi (by rw [List.length_drop]; omega)]

theorem absorb_block {state : Words} {bs : List UInt8} (h : bs.length = 64) :
    absorb state 1 bs = transform state bs := by
  rw [absorb, absorb, ← h, List.take_length]

-- What has been taken in after some bytes: `n` blocks, and the beginning of the next one.
structure Context.Took (ctx : Context) (bs : List UInt8) (n : Nat) : Prop where
  state : ctx.state = absorb initial n (bs.take (64 * n))
  bitlen : ctx.bitlen = n.toUInt64 * 512
  data : ctx.data = bs.drop (64 * n)
  length : bs.length = 64 * n + ctx.data.length
  short : ctx.data.length < 64

namespace Context.Took

variable {ctx : Context} {bs : List UInt8} {n : Nat}

theorem init : Sha256.init.Took [] 0 where
  state := rfl
  bitlen := rfl
  data := rfl
  length := rfl
  short := by decide

theorem eq_append (h : ctx.Took bs n) : bs = bs.take (64 * n) ++ ctx.data := by
  rw [h.data, List.take_append_drop]

theorem push (h : ctx.Took bs n) (b : UInt8) : ∃ n', (ctx.push b).Took (bs ++ [b]) n' := by
  have hl := h.length
  have hs := h.short
  have hd : ctx.data ++ [b] = (bs ++ [b]).drop (64 * n) := by
    rw [List.drop_append_of_le_length (by omega), ← h.data]
  by_cases hb : (ctx.data ++ [b]).length = 64
  case pos =>
    simp only [List.length_append, List.length_singleton] at hb
    have he : (bs ++ [b]).take (64 * (n + 1)) = bs.take (64 * n) ++ (ctx.data ++ [b]) := by
      rw [List.take_of_length_le (by simp; omega), ← List.append_assoc, ← h.eq_append]
    have ht : (bs.take (64 * n)).length = 64 * n := List.length_take_of_le (by omega)
    refine ⟨n + 1, ?_, ?_, ?_, ?_, ?_⟩ <;> simp only [Context.push, List.length_append,
      List.length_singleton, hb, if_true]
    · rw [he, absorb_append ht, absorb_block (by simp [hb]), h.state]
    · rw [h.bitlen]
      apply UInt64.toNat_inj.mp
      simp [Nat.toUInt64]
      omega
    · exact (List.drop_of_length_le (by simp; omega)).symm
    · simp; omega
    · simp
  case neg =>
    refine ⟨n, ?_, ?_, ?_, ?_, ?_⟩ <;> simp only [Context.push, if_neg hb]
    · rw [h.state, List.take_append_of_le_length (by omega)]
    · exact h.bitlen
    · exact hd
    · simp; omega
    · simp at hb ⊢; omega

theorem update (h : ctx.Took bs n) (cs : List UInt8) : ∃ n', (ctx.update cs).Took (bs ++ cs) n' := by
  induction cs generalizing ctx bs n
  case nil => exact ⟨n, by rwa [List.append_nil]⟩
  case cons c cs hi =>
    obtain ⟨m, hm⟩ := h.push c
    obtain ⟨k, hk⟩ := hi hm
    exact ⟨k, by rwa [List.append_assoc] at hk⟩

-- The bytes that are added fill the last block, or the last two.
theorem final (h : ctx.Took bs n) : ctx.final = (digest bs).toList.flatMap writeWord := by
  have hl := h.length
  have hs := h.short
  have ht : (bs.take (64 * n)).length = 64 * n := List.length_take_of_le (by omega)
  have hb : ctx.bitlen + ctx.data.length.toUInt64 * 8 = bs.length.toUInt64 * 8 := by
    rw [h.bitlen, hl]
    apply UInt64.toNat_inj.mp
    simp [Nat.toUInt64]
    omega
  have hw (m : UInt64) : (writeLength m).length = 8 := rfl
  have hm : bs.length % 64 = ctx.data.length := by omega
  have hp : padded bs = bs.take (64 * n) ++ (ctx.data ++ [0x80] ++
      List.replicate ((119 - ctx.data.length) % 64) 0 ++ writeLength (bs.length.toUInt64 * 8)) := by
    simp only [padded, hm, ← List.append_assoc, ← h.eq_append]
  rw [Context.final, digest, hb, hp]
  congr 2
  by_cases hd : ctx.data.length < 56
  case pos =>
    have hz : (119 - ctx.data.length) % 64 = 56 - (ctx.data ++ [0x80]).length := by simp; omega
    have hn : (64 * n + (ctx.data.length + 1 + (56 - (ctx.data.length + 1)) + 8)) / 64 = n + 1 := by
      omega
    rw [if_pos hd, hz]
    simp only [List.length_append, ht, hw, List.length_replicate, List.length_singleton, hn]
    rw [absorb_append ht, absorb_block (by simp [hw]; omega), ← h.state]
  case neg =>
    have hz : (119 - ctx.data.length) % 64 = 64 - (ctx.data ++ [0x80]).length + 56 := by simp; omega
    have hn : (64 * n + (ctx.data.length + 1 + (64 - (ctx.data.length + 1) + 56) + 8)) / 64 =
        n + (1 + 1) := by
      omega
    rw [if_neg hd, hz, List.replicate_add]
    simp only [List.length_append, ht, hw, List.length_replicate, List.length_singleton, hn]
    have ha : ctx.data ++ [0x80] ++ (List.replicate (64 - (ctx.data.length + 1)) 0 ++
          List.replicate 56 0) ++ writeLength (bs.length.toUInt64 * 8) =
        ctx.data ++ [0x80] ++ List.replicate (64 - (ctx.data.length + 1)) 0 ++
          (List.replicate 56 0 ++ writeLength (bs.length.toUInt64 * 8)) := by
      simp only [List.append_assoc]
    rw [absorb_append ht, ← h.state, ha, absorb_append (by simp; omega),
      absorb_block (by simp [hw]), absorb_block (by simp; omega)]

end Context.Took

theorem hash_eq_digest (bs : List UInt8) : hash bs = (digest bs).toList.flatMap writeWord := by
  obtain ⟨n, h⟩ := Context.Took.init.update bs
  exact h.final

theorem final_update_update (bs cs : List UInt8) :
    ((init.update bs).update cs).final = hash (bs ++ cs) := by
  rw [hash, Context.update, Context.update, Context.update, List.foldl_append]

example : hash [0x61, 0x62, 0x63] = [
    0xba, 0x78, 0x16, 0xbf, 0x8f, 0x01, 0xcf, 0xea, 0x41, 0x41, 0x40, 0xde, 0x5d, 0xae, 0x22, 0x23,
    0xb0, 0x03, 0x61, 0xa3, 0x96, 0x17, 0x7a, 0x9c, 0xb4, 0x10, 0xff, 0x61, 0xf2, 0x00, 0x15, 0xad
  ] := by
  decide +kernel

end Sha256
