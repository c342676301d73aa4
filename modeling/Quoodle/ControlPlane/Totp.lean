import Quoodle.Data.ByteStream

-- Codes that change with the time, as users enter them to confirm a command.
namespace ControlPlane.Totp

open ByteStream

def periodSeconds : Nat :=
  30

def digits : Nat :=
  6

-- `hash_hmac` with SHA-1.
structure Hmac where
  digest : List UInt8 → List UInt8 → List UInt8
  length_digest : ∀ message key, (digest message key).length = 20

def alphabet : List Char :=
  "ABCDEFGHIJKLMNOPQRSTUVWXYZ234567".toList

structure Decoder where
  buffer : UInt64
  bitsLeft : Nat
  out : List UInt8

-- The buffer is an integer of 64 bits, from which the upper bits are lost.
def Decoder.push (d : Decoder) (ch : Char) : Decoder :=
  match alphabet.idxOf? ch with
  | none => d
  | some val =>
    let buffer := d.buffer <<< 5 ||| .ofNat val
    let bitsLeft := d.bitsLeft + 5
    if bitsLeft ≥ 8 then ⟨buffer, bitsLeft - 8, d.out ++ [(buffer >>> .ofNat (bitsLeft - 8)).toUInt8]⟩
    else ⟨buffer, bitsLeft, d.out⟩

def base32Decode (b32 : String) : List UInt8 :=
  let b32 := (b32.toList.map Char.toUpper).filter fun ch => ch ∈ alphabet || ch = '='
  ((b32.rdropWhile (· = '=')).foldl Decoder.push ⟨0, 0, []⟩).out

variable (hmac : Hmac)

def padLeft (n : Nat) (text : List Char) : List Char :=
  List.replicate (n - text.length) '0' ++ text

def binCounter (counter : Int) : List UInt8 :=
  bigEndian 4 (counter / 2 ^ 32 % 2 ^ 32).toNat ++ bigEndian 4 (counter % 2 ^ 32).toNat

def generate (secretBase32 : String) (counter : Int) : List Char :=
  let digest := hmac.digest (binCounter counter) (base32Decode secretBase32)
  let offset := ((digest.getLast?.getD 0) &&& 0x0F).toNat
  let part := (digest.drop offset).take 4
  if part.length ≠ 4 then List.replicate digits '0'
  else padLeft digits (Nat.toDigits 10 (ofBigEndian part % 2 ^ 31 % 10 ^ digits))

def isSpace (c : Char) : Bool :=
  c ∈ [' ', '\t', '\n', Char.ofNat 11, Char.ofNat 12, '\r']

-- Models `verify` with a window of one period before and after.
def verify (secretBase32 code : String) (now : Nat) : Bool :=
  let code := code.toList.filter (!isSpace ·)
  (code.length = digits && code.all Char.isDigit) &&
    [-1, 0, 1].any fun i => generate hmac secretBase32 (now / periodSeconds + i) = code

-- Four bytes of the digest, from where its last byte says, without the highest bit.
def truncate (digest : List UInt8) : Nat :=
  ofBigEndian ((digest.drop (digest.getLast?.getD 0 &&& 0x0F).toNat).take 4) % 2 ^ 31

def hotp (key : List UInt8) (counter : Int) : List Char :=
  padLeft digits (Nat.toDigits 10
    (truncate (hmac.digest (bigEndian 8 (counter % 2 ^ 64).toNat) key) % 10 ^ digits))

-- The code is the one for the current period, or for the one before or after it.
def IsCode (secretBase32 code : String) (now : Nat) : Prop :=
  ∃ i ∈ [-1, 0, 1], code.toList.filter (!isSpace ·) =
    hotp hmac (base32Decode secretBase32) (now / periodSeconds + i)

variable {hmac} {secretBase32 code : String} {now : Nat}

theorem binCounter_eq (counter : Int) :
    binCounter counter = bigEndian 8 (counter % 2 ^ 64).toNat := by
  have hu : (counter / 2 ^ 32 % 2 ^ 32).toNat = (counter % 2 ^ 64).toNat / 256 ^ 4 := by omega
  have hl : (counter % 2 ^ 32).toNat = (counter % 2 ^ 64).toNat % 256 ^ 4 := by omega
  rw [binCounter, hu, hl, bigEndian_mod, ← bigEndian_add]

theorem length_part (digest : List UInt8) (h : digest.length = 20) :
    ((digest.drop ((digest.getLast?.getD 0) &&& 0x0F).toNat).take 4).length = 4 := by
  have hb (b : UInt8) : (b &&& 0x0F).toNat ≤ 15 := Nat.and_le_right
  have := hb (digest.getLast?.getD 0)
  rw [List.length_take, List.length_drop]
  omega

theorem generate_eq_hotp (secretBase32 : String) (counter : Int) :
    generate hmac secretBase32 counter = hotp hmac (base32Decode secretBase32) counter := by
  have hl := length_part _ (hmac.length_digest (binCounter counter) (base32Decode secretBase32))
  simp only [generate, hl, ne_eq, not_true_eq_false, if_false]
  rw [hotp, ← binCounter_eq]
  rfl

theorem isCode_of_verify (h : verify hmac secretBase32 code now) :
    IsCode hmac secretBase32 code now := by
  simp only [verify, Bool.and_eq_true, List.any_eq_true, decide_eq_true_eq] at h
  obtain ⟨_, i, hi, he⟩ := h
  exact ⟨i, hi, he ▸ generate_eq_hotp ..⟩

theorem length_hotp (key : List UInt8) (counter : Int) : (hotp hmac key counter).length = digits := by
  have hl := Nat.toDigits_length 10 _ digits (by decide) <| Nat.mod_lt
    (truncate (hmac.digest (bigEndian 8 (counter % 2 ^ 64).toNat) key)) (y := 10 ^ digits) (by decide)
  rw [hotp, padLeft, List.length_append, List.length_replicate]
  exact Nat.sub_add_cancel hl

theorem isDigit_of_mem_hotp {key : List UInt8} {counter : Int} {c : Char}
    (h : c ∈ hotp hmac key counter) : c.isDigit := by
  cases List.mem_append.mp h
  case inl h => rw [List.eq_of_mem_replicate h]; rfl
  case inr h => exact Nat.isDigit_of_mem_toDigits (b := 10) (by decide) (by decide) h

-- No code that is right is refused for its form, and no other one is accepted.
theorem verify_iff_isCode (hmac : Hmac) (secretBase32 code : String) (now : Nat) :
    verify hmac secretBase32 code now ↔ IsCode hmac secretBase32 code now := by
  refine ⟨isCode_of_verify, fun ⟨i, hi, he⟩ => ?_⟩
  simp only [verify, he, length_hotp, decide_true, Bool.true_and, Bool.and_eq_true, List.all_eq_true,
    List.any_eq_true, decide_eq_true_eq]
  exact ⟨fun c => isDigit_of_mem_hotp, i, hi, generate_eq_hotp ..⟩

end ControlPlane.Totp
