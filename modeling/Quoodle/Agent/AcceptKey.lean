import Quoodle.Data.Base64
import Quoodle.Data.Sha1

namespace Agent.WssClient

open Sha1 (Words ofBytes)

def addZeros (msg : List UInt8) : List UInt8 :=
  if msg.length % 64 ≠ 56 then addZeros (msg ++ [0]) else msg
termination_by (120 - msg.length % 64) % 64
decreasing_by simp; omega

def lengthBytes (bits : UInt64) : List UInt8 :=
  [7, 6, 5, 4, 3, 2, 1, 0].map fun i : UInt64 => (bits >>> (i * 8) &&& 0xFF).toUInt8

def padMessage (data : List UInt8) : List UInt8 :=
  addZeros (data ++ [0x80]) ++ lengthBytes (data.length.toUInt64 * 8)

def loadWord (msg : List UInt8) (offset : Nat) : UInt32 :=
  (msg.getD offset 0).toUInt32 <<< 24 ||| (msg.getD (offset + 1) 0).toUInt32 <<< 16 |||
    (msg.getD (offset + 2) 0).toUInt32 <<< 8 ||| (msg.getD (offset + 3) 0).toUInt32

def storeWord (h : UInt32) : List UInt8 :=
  [(h >>> 24 &&& 0xFF).toUInt8, (h >>> 16 &&& 0xFF).toUInt8, (h >>> 8 &&& 0xFF).toUInt8,
    (h &&& 0xFF).toUInt8]

def extend (w : List UInt32) (i : Nat) : List UInt32 :=
  let val := w.getD (i - 3) 0 ^^^ w.getD (i - 8) 0 ^^^ w.getD (i - 14) 0 ^^^ w.getD (i - 16) 0
  w ++ [val <<< 1 ||| val >>> 31]

def loadChunk (msg : List UInt8) (chunk : Nat) : List UInt32 :=
  (List.range' 16 64).foldl extend ((List.range 16).map fun i => loadWord msg (chunk + i * 4))

def round (w : List UInt32) (v : Words) (i : Nat) : Words :=
  let (f, k) : UInt32 × UInt32 :=
    if i < 20 then (v.b &&& v.c ||| ~~~v.b &&& v.d, 0x5a827999)
    else if i < 40 then (v.b ^^^ v.c ^^^ v.d, 0x6ed9eba1)
    else if i < 60 then (v.b &&& v.c ||| v.b &&& v.d ||| v.c &&& v.d, 0x8f1bbcdc)
    else (v.b ^^^ v.c ^^^ v.d, 0xca62c1d6)
  let temp := (v.a <<< 5 ||| v.a >>> 27) + f + v.e + k + w.getD i 0
  ⟨temp, v.a, v.b <<< 30 ||| v.b >>> 2, v.c, v.d⟩

def addChunk (msg : List UInt8) (h : Words) (chunk : Nat) : Words :=
  let v := (List.range 80).foldl (round (loadChunk msg chunk)) h
  ⟨h.a + v.a, h.b + v.b, h.c + v.c, h.d + v.d, h.e + v.e⟩

-- The chunks begin at each multiple of 64 that is less than the length.
def sha1DigestHex (data : List UInt8) : List UInt8 :=
  let msg := padMessage data
  let h := (List.range ((msg.length + 63) / 64)).foldl (fun h i => addChunk msg h (64 * i))
    ⟨0x67452301, 0xefcdab89, 0x98badcfe, 0x10325476, 0xc3d2e1f0⟩
  [h.a, h.b, h.c, h.d, h.e].flatMap storeWord

-- `sodium_bin2base64` fills a buffer that has room for the text and a zero after it.
structure Sodium where
  bin2base64 : List UInt8 → List UInt8
  bin2base64_eq : ∀ data, bin2base64 data = Base64.encode data ++ [0]

variable (sodium : Sodium)

def base64Encode (data : List UInt8) : List UInt8 :=
  let out := sodium.bin2base64 data
  if out.getLast? = some 0 then out.dropLast else out

def guid : List UInt8 :=
  "258EAFA5-E914-47DA-95CA-C5AB0DC85B11".toList.map Char.toUInt8

def computeAcceptKey (clientKey : List UInt8) : List UInt8 :=
  base64Encode sodium (sha1DigestHex (clientKey ++ guid))

def acceptValue (clientKey : List UInt8) : List UInt8 :=
  Base64.encode (Sha1.digest (ofBytes (clientKey ++ guid)))

theorem addZeros_eq (msg : List UInt8) :
    addZeros msg = msg ++ List.replicate ((120 - msg.length % 64) % 64) 0 := by
  fun_induction addZeros msg
  case case1 msg h hi =>
    have hs : (120 - msg.length % 64) % 64 = (120 - (msg ++ [0]).length % 64) % 64 + 1 := by
      simp
      omega
    rw [hi, hs, List.replicate_succ, List.append_assoc, List.singleton_append]
  case case2 msg h =>
    have hz : (120 - msg.length % 64) % 64 = 0 := by omega
    rw [hz, List.replicate_zero, List.append_nil]

theorem ofBigEndian_lengthBytes (bits : UInt64) :
    Sha1.ofBigEndian (lengthBytes bits) = bits.toNat := by
  have hb (x : UInt64) : (x &&& 0xFF).toUInt8.toNat = x.toNat % 256 := by
    rw [UInt64.toNat_toUInt8, UInt64.toNat_and]
    exact congrArg (· % 256) (Nat.and_two_pow_sub_one_eq_mod x.toNat 8) |>.trans (Nat.mod_mod ..)
  have hs (k : Nat) :
      bits.toNat / 2 ^ (k + 8) * 256 + bits.toNat / 2 ^ k % 256 = bits.toNat / 2 ^ k := by
    rw [Nat.pow_add, ← Nat.div_div_eq_div_mul]
    exact Nat.div_add_mod' _ _
  have hl : bits.toNat / 2 ^ 64 = 0 := Nat.div_eq_of_lt bits.toNat_lt
  have h := hs 56
  rw [hl] at h
  simp only [lengthBytes, List.map_cons, List.map_nil, Sha1.ofBigEndian, List.foldl_cons,
    List.foldl_nil, hb, UInt64.toNat_shiftRight]
  simp only [Nat.shiftRight_eq_div_pow, UInt64.reduceMul, UInt64.reduceToNat, Nat.reduceMod]
  rw [h, hs 48, hs 40, hs 32, hs 24, hs 16, hs 8, hs 0, Nat.pow_zero, Nat.div_one]

theorem ofBytes_padMessage (data : List UInt8) :
    ofBytes (padMessage data) = Sha1.padded (ofBytes data) := by
  have hl : ofBytes (lengthBytes (data.length.toUInt64 * 8)) =
      Sha1.toBits 64 (ofBytes data).length := by
    have hn : (data.length.toUInt64 * 8).toNat = 8 * data.length % 2 ^ 64 := by
      simp [Nat.toUInt64]
      omega
    rw [Sha1.ofBytes_eq_toBits, ofBigEndian_lengthBytes, hn, Sha1.length_ofBytes]
    exact Sha1.toBits_mod 64 _
  have hz : ((447 - (ofBytes data).length : Int) % 512).toNat =
      7 + 8 * ((120 - (data ++ [0x80]).length % 64) % 64) := by
    simp
    omega
  rw [padMessage, addZeros_eq, Sha1.padded, hz, List.replicate_add]
  simp only [Sha1.ofBytes_append, hl, Sha1.ofBytes_zeros, List.append_assoc]
  rfl

theorem toNat_or_bytes (a b c d : UInt8) :
    (a.toUInt32 <<< 24 ||| b.toUInt32 <<< 16 ||| c.toUInt32 <<< 8 ||| d.toUInt32).toNat =
      ((a.toNat * 256 + b.toNat) * 256 + c.toNat) * 256 + d.toNat := by
  have hs (x : Nat) (b : UInt8) (k : Nat) :
      x <<< (8 + k) ||| b.toNat <<< k = (x * 256 + b.toNat) <<< k := by
    rw [Nat.shiftLeft_add, ← Nat.shiftLeft_or_distrib, ← Nat.shiftLeft_add_eq_or_of_lt b.toNat_lt,
      Nat.shiftLeft_eq x]
  have hl (b : UInt8) (k : Nat) (hk : k ≤ 24) : b.toNat <<< k % 2 ^ 32 = b.toNat <<< k := by
    refine Nat.mod_eq_of_lt ?_
    rw [Nat.shiftLeft_eq]
    calc b.toNat * 2 ^ k ≤ b.toNat * 2 ^ 24 := Nat.mul_le_mul_left _ (Nat.pow_le_pow_right (by decide) hk)
      _ < 2 ^ 32 := by have := b.toNat_lt; omega
  have h₁ := hs a.toNat b 16
  have h₂ := hs (a.toNat * 256 + b.toNat) c 8
  have h₃ := hs ((a.toNat * 256 + b.toNat) * 256 + c.toNat) d 0
  simp only [UInt32.toNat_or, UInt32.toNat_shiftLeft, UInt8.toNat_toUInt32]
  rw [show (24 : UInt32).toNat % 32 = 24 from rfl, show (16 : UInt32).toNat % 32 = 16 from rfl,
    show (8 : UInt32).toNat % 32 = 8 from rfl, hl a 24 (by omega), hl b 16 (by omega),
    hl c 8 (by omega)]
  simp only [Nat.reduceAdd, Nat.shiftLeft_zero] at h₁ h₂ h₃
  rw [h₁, h₂, h₃]

theorem loadWord_eq {msg : List UInt8} {i : Nat} (h : 4 * i + 4 ≤ msg.length) :
    loadWord msg (4 * i) = Sha1.word (ofBytes msg) i := by
  obtain ⟨a, b, c, d, rest, hd⟩ : ∃ a b c d rest, msg.drop (4 * i) = a :: b :: c :: d :: rest := by
    rcases hd : msg.drop (4 * i) with _ | ⟨a, _ | ⟨b, _ | ⟨c, _ | ⟨d, rest⟩⟩⟩⟩ <;>
      have hl := congrArg List.length hd <;> simp at hl <;> first | omega | exact ⟨_, _, _, _, _, rfl⟩
  have hg (j : Nat) : msg.getD (4 * i + j) 0 = (msg.drop (4 * i)).getD j 0 := by
    simp [List.getD_eq_getElem?_getD]
  rw [Sha1.word_ofBytes i h, loadWord, hg 1, hg 2, hg 3, ← Nat.add_zero (4 * i), hg 0]
  simp only [Nat.add_zero, hd, List.getD_cons_zero, List.getD_cons_succ]
  refine Eq.trans UInt32.ofNat_toNat.symm ?_
  rw [toNat_or_bytes]
  simp [Sha1.ofBigEndian]

section Chunk

variable {n : Nat} {msg : List UInt8} {w : List UInt32} {block : Nat → UInt32}

theorem getD_extend (hw : w.length = 16 + n) (h : ∀ t < 16 + n, w.getD t 0 = Sha1.schedule block t) :
    ∀ t < 16 + (n + 1), (extend w (16 + n)).getD t 0 = Sha1.schedule block t := by
  intro t ht
  obtain ht | rfl : t < 16 + n ∨ t = 16 + n := by omega
  case inl => rw [extend, List.getD_append _ _ _ _ (by omega), h t ht]
  case inr =>
    rw [extend, List.getD_append_right _ _ _ _ hw.le, Sha1.schedule, if_neg (by omega),
      ← h _ (by omega), ← h _ (by omega), ← h _ (by omega), ← h _ (by omega), hw, Nat.sub_self]
    rfl

theorem getD_foldl_extend (hw : w.length = 16) (h : ∀ t < 16, w.getD t 0 = Sha1.schedule block t)
    (n : Nat) : ((List.range' 16 n).foldl extend w).length = 16 + n ∧
      ∀ t < 16 + n, ((List.range' 16 n).foldl extend w).getD t 0 = Sha1.schedule block t := by
  induction n
  case zero => exact ⟨hw, h⟩
  case succ n hi =>
    rw [List.range'_1_concat, List.foldl_concat]
    exact ⟨by simp [extend, hi.left]; omega, getD_extend hi.left hi.right⟩

theorem getD_loadChunk {i : Nat} (h : 64 * i + 64 ≤ msg.length) {t : Nat} (ht : t < 80) :
    (loadChunk msg (64 * i)).getD t 0 =
      Sha1.schedule (fun t => Sha1.word (ofBytes msg) (16 * i + t)) t := by
  refine getD_foldl_extend (by simp) (fun t ht => ?_) 64 |>.right t ht
  have hw : loadWord msg (4 * (16 * i + t)) = Sha1.word (ofBytes msg) (16 * i + t) :=
    loadWord_eq (by omega)
  rw [Sha1.schedule, if_pos ht, ← hw, List.getD_eq_getElem?_getD, List.getElem?_map,
    List.getElem?_range ht, Option.map_some, Option.getD_some]
  congr 1
  omega

theorem ch_eq (x y z : UInt32) : x &&& y ||| ~~~x &&& z = Sha1.ch x y z := by
  apply UInt32.toBitVec_inj.mp
  ext i
  simp [Sha1.ch]
  cases x.toBitVec[i] <;> simp

theorem maj_eq (x y z : UInt32) : x &&& y ||| x &&& z ||| y &&& z = Sha1.maj x y z := by
  apply UInt32.toBitVec_inj.mp
  ext i
  simp [Sha1.maj]
  cases x.toBitVec[i] <;> cases y.toBitVec[i] <;> simp

theorem round_eq {W : Nat → UInt32} {i : Nat} (h : w.getD i 0 = W i) (v : Words) :
    round w v i = Sha1.round W v i := by
  rw [round, ch_eq, maj_eq, h, Sha1.round, Sha1.f, Sha1.k]
  split_ifs <;> rfl

theorem addChunk_eq {i : Nat} (h : 64 * i + 64 ≤ msg.length) (v : Words) :
    addChunk msg v (64 * i) = Sha1.compress (fun t => Sha1.word (ofBytes msg) (16 * i + t)) v := by
  have hr := List.foldl_ext (round (loadChunk msg (64 * i))) _ v fun v t ht =>
    round_eq (getD_loadChunk h (List.mem_range.mp ht)) v
  rw [addChunk, hr]
  rfl

end Chunk

theorem length_padMessage (data : List UInt8) : (padMessage data).length % 64 = 0 := by
  rw [padMessage, addZeros_eq]
  simp [lengthBytes]
  omega

theorem storeWord_eq (w : UInt32) :
    storeWord w = [3, 2, 1, 0].map fun i => .ofNat (w.toNat / 256 ^ i) := by
  have hb (x : UInt32) : (x &&& 0xFF).toUInt8 = .ofNat x.toNat := by
    apply UInt8.toNat_inj.mp
    simpa using Nat.and_two_pow_sub_one_eq_mod (x.toNat % 256) 8
  simp only [storeWord, hb, List.map_cons, List.map_nil]
  simp [Nat.shiftRight_eq_div_pow]

theorem sha1DigestHex_eq (data : List UInt8) : sha1DigestHex data = Sha1.digest (ofBytes data) := by
  have hl := length_padMessage data
  have hn : ((padMessage data).length + 63) / 64 = (Sha1.padded (ofBytes data)).length / 512 := by
    rw [← ofBytes_padMessage, Sha1.length_ofBytes]
    omega
  have hc := List.foldl_ext (fun h i => addChunk (padMessage data) h (64 * i)) _ Sha1.initial
    (l := List.range (((padMessage data).length + 63) / 64)) fun v i hi =>
      addChunk_eq (by have := List.mem_range.mp hi; omega) v
  rw [sha1DigestHex, Sha1.digest, Sha1.hash, ← hn, ← ofBytes_padMessage, ← hc]
  exact List.flatMap_congr fun w _ => storeWord_eq w

theorem base64Encode_eq (data : List UInt8) : base64Encode sodium data = Base64.encode data := by
  rw [base64Encode, sodium.bin2base64_eq]
  simp

theorem computeAcceptKey_eq :
    (∀ data, sha1DigestHex data = Sha1.digest (ofBytes data) ∧ (sha1DigestHex data).length = 20) ∧
      ∀ clientKey, computeAcceptKey sodium clientKey = acceptValue clientKey := by
  refine ⟨fun data => ⟨sha1DigestHex_eq data, rfl⟩, fun clientKey => ?_⟩
  rw [computeAcceptKey, base64Encode_eq, sha1DigestHex_eq, acceptValue]

def exampleSodium : Sodium :=
  ⟨fun data => Base64.encode data ++ [0], fun _ => rfl⟩

def sampleKey : List UInt8 :=
  "dGhlIHNhbXBsZSBub25jZQ==".toList.map Char.toUInt8

-- The example of RFC 6455.
theorem computeAcceptKey_sample :
    computeAcceptKey exampleSodium sampleKey = acceptValue sampleKey ∧
      acceptValue sampleKey = "s3pPLMBiTxaQ9kYGzzhZRbK+xOo=".toList.map Char.toUInt8 := by
  have h := (computeAcceptKey_eq exampleSodium).right sampleKey
  refine ⟨h, ?_⟩
  rw [← h]
  decide +kernel

end Agent.WssClient
