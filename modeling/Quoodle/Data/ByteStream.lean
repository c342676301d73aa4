import Quoodle.Data.Packed

-- Streams of bytes that arrive in pieces.
namespace ByteStream

open Packed

section Numbers

variable {n x : Nat}

def bigEndian (n x : Nat) : List UInt8 :=
  (littleEndian n x).reverse

def ofBigEndian (bs : List UInt8) : Nat :=
  ofLittleEndian bs.reverse

@[simp]
theorem length_bigEndian (n x : Nat) : (bigEndian n x).length = n := by
  simp [bigEndian]

theorem ofBigEndian_bigEndian (h : x < 2 ^ (8 * n)) : ofBigEndian (bigEndian n x) = x := by
  rw [ofBigEndian, bigEndian, List.reverse_reverse, ofLittleEndian_littleEndian, Nat.mod_eq_of_lt h]

theorem bigEndian_add (m n x : Nat) :
    bigEndian (m + n) x = bigEndian n (x / 256 ^ m) ++ bigEndian m x := by
  rw [bigEndian, littleEndian_add, List.reverse_append, bigEndian, bigEndian]

theorem bigEndian_mod (n x : Nat) : bigEndian n (x % 256 ^ n) = bigEndian n x := by
  rw [bigEndian, littleEndian_mod, bigEndian]

end Numbers

-- The pieces that the next reads deliver. An empty piece is the end of the stream.
abbrev Pieces := List (List UInt8)

-- A read of at most `n` bytes. What does not fit is delivered by the next one.
def read (n : Nat) : Pieces → Option (List UInt8 × Pieces)
  | [] => none
  | p :: s => if p.length ≤ n then some (p, s) else some (p.take n, p.drop n :: s)

def readExact (n : Nat) (s : Pieces) : Option (List UInt8 × Pieces) :=
  if n = 0 then some ([], s)
  else
    match read n s with
    | none => none
    | some ([], _) => none
    | some (b :: bs, s) =>
      (readExact (n - (bs.length + 1)) s).map fun (rest, s) => (b :: bs ++ rest, s)
termination_by n

def readBigEndian (n : Nat) (s : Pieces) : Option (Nat × Pieces) :=
  (readExact n s).map fun (bs, s) => (ofBigEndian bs, s)

-- Writes until all bytes are taken. The numbers say how many of them each write takes; none is an
-- error.
def writeExact : List Nat → List UInt8 → Option (List UInt8 × List Nat)
  | takes, [] => some ([], takes)
  | [], _ :: _ => none
  | 0 :: _, _ :: _ => none
  | (n + 1) :: takes, b :: bs =>
    (writeExact takes (bs.drop n)).map fun (sent, takes) => (b :: bs.take n ++ sent, takes)

structure Delivers (s : Pieces) (bs : List UInt8) : Prop where
  flatten : s.flatten = bs
  nonempty : [] ∉ s

variable {s : Pieces} {bs rest : List UInt8} {n : Nat}

theorem Delivers.read (h : Delivers s bs) (hb : bs ≠ []) (hn : 0 < n) :
    ∃ b p rest s', read n s = some (b :: p, s') ∧ p.length + 1 ≤ n ∧ bs = b :: p ++ rest ∧
      Delivers s' rest := by
  have ⟨hf, he⟩ := h
  rcases s with _ | ⟨_ | ⟨b, p⟩, s⟩
  case nil => exact absurd hf.symm hb
  case cons.nil => exact absurd List.mem_cons_self he
  case cons.cons =>
    have hs : [] ∉ s := fun h => he (List.mem_cons_of_mem _ h)
    rw [ByteStream.read]
    split
    case isTrue hl => exact ⟨b, p, s.flatten, s, rfl, hl, hf.symm, rfl, hs⟩
    case isFalse hl =>
      obtain ⟨m, rfl⟩ := Nat.exists_eq_add_of_lt hn
      simp only [List.length_cons, not_le, zero_add] at hl
      have hd : p.drop m ≠ [] := by simpa using by omega
      refine ⟨b, p.take m, (p.drop m :: s).flatten, p.drop m :: s, by simp, by simp, ?_, rfl, ?_⟩
      · simp [← hf, ← List.append_assoc]
      · simpa [hs] using hd

-- However the bytes are divided into pieces, a reader gets the ones it has asked for and leaves the
-- others.
theorem Delivers.readExact (h : Delivers s (bs ++ rest)) :
    ∃ s', readExact bs.length s = some (bs, s') ∧ Delivers s' rest := by
  induction hl : bs.length using Nat.strong_induction_on generalizing bs s
  case h n hi =>
    unfold ByteStream.readExact
    split
    case isTrue hz =>
      obtain rfl := List.length_eq_zero_iff.mp (hl.trans hz)
      exact ⟨s, rfl, h⟩
    case isFalse hz =>
      have hb : bs ++ rest ≠ [] := by
        rintro he
        obtain rfl := (List.append_eq_nil_iff.mp he).left
        exact hz hl.symm
      obtain ⟨b, p, after, s', hr, hp, he, hd⟩ := h.read hb (Nat.pos_of_ne_zero hz)
      have hlen : (b :: p).length ≤ bs.length := hl ▸ hp
      have hbs : bs = b :: p ++ bs.drop (p.length + 1) := by
        have ht := congrArg (List.take (b :: p).length) he
        rw [List.take_append_of_le_length hlen, List.take_left] at ht
        conv => lhs; rw [← List.take_append_drop (b :: p).length bs, ht]
        rfl
      have ha : after = bs.drop (p.length + 1) ++ rest := by
        rw [hbs, List.append_assoc] at he
        exact (List.append_cancel_left he).symm
      obtain ⟨s'', hr', hd'⟩ := hi (n - (p.length + 1)) (by omega) (ha ▸ hd) (by simp [hl])
      refine ⟨s'', ?_, hd'⟩
      simp only [hr, hr', Option.map_some]
      exact congrArg (fun x => some (x, s'')) hbs.symm

theorem Delivers.readBigEndian {x : Nat} (h : Delivers s (bigEndian n x ++ rest))
    (hx : x < 2 ^ (8 * n)) : ∃ s', readBigEndian n s = some (x, s') ∧ Delivers s' rest := by
  obtain ⟨s', hr, hd⟩ := h.readExact
  rw [length_bigEndian] at hr
  refine ⟨s', ?_, hd⟩
  simp only [ByteStream.readBigEndian, hr, Option.map_some, ofBigEndian_bigEndian hx]

theorem eq_of_writeExact {takes takes' : List Nat} {sent : List UInt8}
    (h : writeExact takes bs = some (sent, takes')) : sent = bs := by
  induction takes, bs using writeExact.induct generalizing sent
  case case1 => simp_all [writeExact]
  case case2 | case3 => simp [writeExact] at h
  case case4 n takes b bs hi =>
    simp only [writeExact, Option.map_eq_some_iff, Prod.exists, Prod.mk.injEq] at h
    obtain ⟨sent', _, hw, rfl, rfl⟩ := h
    simp [hi hw]

end ByteStream
