import Quoodle.Data.Utf8

-- Bytes that may be a text.
section Decode

variable {bs : List UInt8} {cs : List Char} {c : Char}

def decodeChar (bs : List UInt8) : Option Char :=
  (bs.take 4).toByteArray.utf8DecodeChar? 0

def decodeChars : Nat → List UInt8 → Option (List Char)
  | _, [] => some []
  | 0, _ :: _ => none
  | n + 1, b :: bs => do
    let c ← decodeChar (b :: bs)
    let cs ← decodeChars n ((b :: bs).drop c.utf8Size)
    return c :: cs

def decodeUtf8 (bs : List UInt8) : Option (List Char) :=
  decodeChars bs.length bs

theorem toByteArray_injective : Function.Injective List.toByteArray := by
  intro a b h
  have hd := congrArg ByteArray.data h
  simpa using hd

theorem decodeChar_utf8EncodeChar (c : Char) (bs : List UInt8) :
    decodeChar (String.utf8EncodeChar c ++ bs) = some c := by
  have hl : (String.utf8EncodeChar c).length ≤ 4 := by
    rw [String.length_utf8EncodeChar]
    exact c.utf8Size_le_four
  rw [decodeChar, List.take_append, List.take_of_length_le hl, List.toByteArray_append]
  exact ByteArray.utf8DecodeChar?_utf8EncodeChar_append

theorem eq_of_decodeChar (h : decodeChar bs = some c) :
    bs = String.utf8EncodeChar c ++ bs.drop c.utf8Size := by
  obtain ⟨l, hl⟩ := ByteArray.exists_of_utf8DecodeChar?_eq_some h
  have ht : bs.take 4 = String.utf8EncodeChar c ++ l.data.toList := by
    apply toByteArray_injective
    rw [hl, List.toByteArray_append]
    congr 1
    exact ByteArray.ext (by simp)
  have hb : bs = String.utf8EncodeChar c ++ (l.data.toList ++ bs.drop 4) := by
    rw [← List.append_assoc, ← ht, List.take_append_drop]
  have hs : (String.utf8EncodeChar c).length = c.utf8Size := String.length_utf8EncodeChar c
  conv_rhs => rw [hb, ← hs, List.drop_left]
  exact hb

theorem utf8_of_decodeChars {n : Nat} (h : decodeChars n bs = some cs) : bs = utf8 cs := by
  induction n generalizing bs cs
  case zero =>
    cases bs
    case nil => cases h; rfl
    case cons => cases h
  case succ n hi =>
    cases bs
    case nil => cases h; rfl
    case cons b bs =>
      simp only [decodeChars, Option.bind_eq_bind, Option.bind_eq_some_iff] at h
      obtain ⟨c, hc, ds, hd, he⟩ := h
      cases he
      rw [utf8_cons, ← hi hd]
      exact eq_of_decodeChar hc

theorem decodeChars_utf8 {n : Nat} (h : (utf8 cs).length ≤ n) : decodeChars n (utf8 cs) = some cs := by
  induction cs generalizing n
  case nil => cases n <;> rfl
  case cons c cs hi =>
    rw [utf8_cons] at h ⊢
    have hs : (String.utf8EncodeChar c).length = c.utf8Size := String.length_utf8EncodeChar c
    have hp := c.utf8Size_pos
    rw [List.length_append, hs] at h
    obtain ⟨n, rfl⟩ := Nat.exists_eq_add_one.mpr (by omega : 0 < n)
    obtain ⟨b, bs, hb⟩ := List.exists_cons_of_ne_nil (@String.utf8EncodeChar_ne_nil c)
    have hc := decodeChar_utf8EncodeChar c (utf8 cs)
    have hd : (String.utf8EncodeChar c ++ utf8 cs).drop c.utf8Size = utf8 cs := by
      rw [← hs, List.drop_left]
    rw [hb, List.cons_append] at hc hd ⊢
    simp only [decodeChars, hc, hd, hi (n := n) (by omega), Option.bind_eq_bind, Option.bind_some]
    rfl

theorem decodeUtf8_eq_some_iff : decodeUtf8 bs = some cs ↔ bs = utf8 cs := by
  refine ⟨utf8_of_decodeChars, ?_⟩
  rintro rfl
  exact decodeChars_utf8 le_rfl

theorem decodeUtf8_utf8 (cs : List Char) : decodeUtf8 (utf8 cs) = some cs :=
  decodeUtf8_eq_some_iff.mpr rfl

end Decode
