import Quoodle.Data.ByteStream

-- The frames in which the agent exchanges messages with the gateway.
namespace Agent.WsFrame

open ByteStream

def maxPayload : Nat :=
  1024 * 1024

def mask (key data : List UInt8) : List UInt8 :=
  data.mapIdx fun i b => b ^^^ key.getD (i % 4) 0

def lengthBytes (len : Nat) : List UInt8 :=
  if len ≤ 125 then [0x80 ||| .ofNat len]
  else if len ≤ 0xFFFF then (0x80 ||| 126) :: bigEndian 2 len
  else (0x80 ||| 127) :: bigEndian 8 len

def header (key : Vector UInt8 4) (len : Nat) (opcode : UInt8) : List UInt8 :=
  (0x80 ||| opcode &&& 0x0F) :: lengthBytes len ++ key.toList

-- Returns the bytes that were written to the connection.
def sendWsFrame (io : List Nat) (key : Vector UInt8 4) (payload : List UInt8) (opcode : UInt8) :
    Option (List UInt8 × List Nat) := do
  let (head, io) ← writeExact io (header key payload.length opcode)
  let (body, io) ← writeExact io (mask key.toList payload)
  some (head ++ body, io)

def readLength (b : UInt8) (io : Pieces) : Option (Nat × Pieces) :=
  if b = 126 then readBigEndian 2 io
  else if b = 127 then readBigEndian 8 io
  else some (b.toNat, io)

def readKey (masked : Bool) (io : Pieces) : Option (List UInt8 × Pieces) :=
  if masked then readExact 4 io else some (List.replicate 4 0, io)

def readWsFrame (io : Pieces) : Option ((List UInt8 × UInt8) × Pieces) := do
  let (head, io) ← readExact 2 io
  let b₀ := head.getD 0 0
  let b₁ := head.getD 1 0
  let masked := b₁ &&& 0x80 ≠ 0
  if b₀ &&& 0x80 = 0 then none else
  let (len, io) ← readLength (b₁ &&& 0x7F) io
  let (key, io) ← readKey masked io
  if len > maxPayload then none else
  let (data, io) ← readExact len io
  some ((if masked then mask key data else data, b₀ &&& 0x0F), io)

theorem low_of_le {len : Nat} (h : len ≤ 125) : (0x80 ||| UInt8.ofNat len) &&& 0x7F = .ofNat len := by
  have hb : ∀ n ≤ 125, (0x80 ||| UInt8.ofNat n) &&& 0x7F = .ofNat n := by decide
  exact hb len h

theorem high_ne_zero (b : UInt8) : (0x80 ||| b) &&& 0x80 ≠ 0 := by
  have hb : ∀ n < 256, (0x80 ||| UInt8.ofNat n) &&& 0x80 ≠ 0 := by decide +kernel
  have h := hb b.toNat b.toNat_lt
  rwa [UInt8.ofNat_toNat] at h

theorem opcode_header (b : UInt8) : (0x80 ||| b &&& 0x0F) &&& 0x0F = b &&& 0x0F := by
  have hb : ∀ n < 256, (0x80 ||| UInt8.ofNat n &&& 0x0F) &&& 0x0F = .ofNat n &&& 0x0F := by
    decide +kernel
  have h := hb b.toNat b.toNat_lt
  rwa [UInt8.ofNat_toNat] at h

theorem opcode_of_lt {b : UInt8} (h : b < 16) : b &&& 0x0F = b := by
  have hb : ∀ n < 16, UInt8.ofNat n &&& 0x0F = .ofNat n := by decide
  have h := hb b.toNat h
  rwa [UInt8.ofNat_toNat] at h

@[simp]
theorem length_mask (key data : List UInt8) : (mask key data).length = data.length := by
  simp [mask]

@[simp]
theorem mask_mask (key data : List UInt8) : mask key (mask key data) = data := by
  refine List.ext_getElem (by simp) fun i _ _ => ?_
  simp [mask]

variable {io : Pieces} {rest : List UInt8} {len : Nat}

theorem lengthBytes_spec (h : len < 2 ^ 64) :
    ∃ b ext, lengthBytes len = (0x80 ||| b) :: ext ∧
      ∀ {io rest}, Delivers io (ext ++ rest) →
        ∃ io', readLength ((0x80 ||| b) &&& 0x7F) io = some (len, io') ∧ Delivers io' rest := by
  unfold lengthBytes
  split
  case isTrue hl =>
    have hn : (UInt8.ofNat len).toNat = len :=
      UInt8.toNat_ofNat_of_lt (lt_of_le_of_lt hl (by decide))
    have hne {b : UInt8} (hb : 125 < b.toNat) : UInt8.ofNat len ≠ b := by
      rintro rfl
      omega
    refine ⟨.ofNat len, [], rfl, fun {io rest} hd => ⟨io, ?_, hd⟩⟩
    rw [low_of_le hl, readLength, if_neg (hne (by decide)), if_neg (hne (by decide)), hn]
  split
  case isTrue hl =>
    refine ⟨126, bigEndian 2 len, rfl, fun {io rest} hd => ?_⟩
    exact hd.readBigEndian (by omega)
  refine ⟨127, bigEndian 8 len, rfl, fun {io rest} hd => ?_⟩
  exact hd.readBigEndian h

theorem eq_of_sendWsFrame {writes writes' : List Nat} {key : Vector UInt8 4}
    {payload sent : List UInt8} {opcode : UInt8}
    (h : sendWsFrame writes key payload opcode = some (sent, writes')) :
    sent = header key payload.length opcode ++ mask key.toList payload := by
  simp only [sendWsFrame, Option.bind_eq_bind, Option.bind_eq_some_iff, Prod.exists,
    Option.some.injEq, Prod.mk.injEq] at h
  obtain ⟨head, _, hh, body, _, hb, rfl, _⟩ := h
  rw [eq_of_writeExact hh, eq_of_writeExact hb]

-- A frame is read back however the writes and the reads divide it, and nothing behind it is taken.
theorem readWsFrame_sendWsFrame {writes writes' : List Nat} {key : Vector UInt8 4}
    {payload sent : List UInt8} {opcode : UInt8} (hp : payload.length ≤ maxPayload)
    (hs : sendWsFrame writes key payload opcode = some (sent, writes'))
    (hd : Delivers io (sent ++ rest)) :
    (∃ io', readWsFrame io = some ((payload, opcode &&& 0x0F), io') ∧ Delivers io' rest) ∧
      (opcode < 16 → opcode &&& 0x0F = opcode) := by
  have hl : payload.length < 2 ^ 64 := lt_of_le_of_lt hp (by decide)
  obtain ⟨b, ext, he, hr⟩ := lengthBytes_spec hl
  rw [eq_of_sendWsFrame hs, header, he] at hd
  have hd₀ : Delivers io ([0x80 ||| opcode &&& 0x0F, 0x80 ||| b] ++
      (ext ++ (key.toList ++ (mask key.toList payload ++ rest)))) := by
    simpa using hd
  obtain ⟨io₁, h₁, hd₁⟩ := hd₀.readExact
  obtain ⟨io₂, h₂, hd₂⟩ := hr hd₁
  obtain ⟨io₃, h₃, hd₃⟩ := hd₂.readExact
  obtain ⟨io₄, h₄, hd₄⟩ := hd₃.readExact
  refine ⟨⟨io₄, ?_, hd₄⟩, ?_⟩
  · simp only [List.length_cons, List.length_nil, zero_add, Nat.reduceAdd] at h₁
    rw [Vector.length_toList] at h₃
    rw [length_mask] at h₄
    simp [readWsFrame, h₁, h₂, readKey, h₃, h₄, high_ne_zero, opcode_header, Nat.not_lt.mpr hp]
  · exact opcode_of_lt

theorem readWsFrame_sendWsFrame_ping :
    ∃ io', readWsFrame [[0x89, 0x83, 1], [2, 3, 4, 0x70, 0x6b, 0x6d, 0x81]] =
      some (([0x71, 0x69, 0x6e], 9), io') ∧ Delivers io' [0x81] := by
  have hs : sendWsFrame [1, 2, 9, 1, 5] #v[1, 2, 3, 4] [0x71, 0x69, 0x6e] 9 =
      some ([0x89, 0x83, 1, 2, 3, 4, 0x70, 0x6b, 0x6d], []) := by decide
  have hd : Delivers [[0x89, 0x83, 1], [2, 3, 4, 0x70, 0x6b, 0x6d, 0x81]]
      ([0x89, 0x83, 1, 2, 3, 4, 0x70, 0x6b, 0x6d] ++ [0x81]) := ⟨rfl, by simp⟩
  have ⟨h, ho⟩ := readWsFrame_sendWsFrame (by decide) hs hd
  exact ho (by decide) ▸ h

end Agent.WsFrame
