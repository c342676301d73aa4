import Quoodle.ControlPlane.Totp
import Quoodle.Data.Regroup

namespace ControlPlane.Totp

open Regroup

structure Encoder where
  buffer : UInt64
  bitsLeft : Nat
  out : List Char

def letter (idx : Nat) : Char :=
  alphabet.getD idx ' '

-- Gives out five bits as long as there are that many.
def Encoder.drain (buffer : UInt64) : Nat → List Char → Encoder
  | bitsLeft + 5, out =>
    drain buffer bitsLeft (out ++ [letter (buffer >>> .ofNat bitsLeft &&& 0x1f).toNat])
  | bitsLeft, out => ⟨buffer, bitsLeft, out⟩

def Encoder.push (e : Encoder) (b : UInt8) : Encoder :=
  drain (e.buffer <<< 8 ||| b.toUInt64) (e.bitsLeft + 8) e.out

def base32Encode (raw : List UInt8) : String :=
  let e := raw.foldl Encoder.push ⟨0, 0, []⟩
  .ofList <|
    if e.bitsLeft > 0 then e.out ++ [letter (e.buffer <<< .ofNat (5 - e.bitsLeft) &&& 0x1f).toNat]
    else e.out

-- A text as a user may enter it: with spaces, with small letters and with padding at the end.
inductive Respelled : List Char → List Char → Prop
  | nil : Respelled [] []
  | same (c : Char) {cs ds : List Char} : Respelled cs ds → Respelled (c :: cs) (c :: ds)
  | lower (c : Char) {cs ds : List Char} : Respelled cs ds → Respelled (c :: cs) (c.toLower :: ds)
  | space {cs ds : List Char} : Respelled cs ds → Respelled cs (' ' :: ds)
  | padding {ds : List Char} : Respelled [] ds → Respelled [] ('=' :: ds)

section Buffer

variable {m d r : Nat}

theorem toNat_ofNat (hm : m < 64) : (UInt64.ofNat m).toNat % 64 = m := by
  rw [UInt64.toNat_ofNat', Nat.mod_mod_of_dvd _ (by decide), Nat.mod_eq_of_lt hm]

-- The bits that are shifted out are not among the last 64.
theorem toNat_push (buffer : UInt64) (hm : m < 64) (hd : d < 2 ^ m) (hr : r + m ≤ 64) :
    (buffer <<< .ofNat m ||| .ofNat d).toNat % 2 ^ (r + m) =
      (buffer.toNat * 2 ^ m + d) % 2 ^ (r + m) := by
  have hd' : d < 2 ^ 64 := hd.trans_le (Nat.pow_le_pow_right (by decide) hm.le)
  have hp : (2 ^ (r + m)) ∣ 2 ^ 64 := Nat.pow_dvd_pow 2 hr
  rw [UInt64.toNat_or, UInt64.toNat_shiftLeft, toNat_ofNat hm, UInt64.toNat_ofNat_of_lt' hd',
    Nat.or_mod_two_pow, Nat.mod_mod_of_dvd _ hp, ← Nat.or_mod_two_pow,
    ← Nat.shiftLeft_add_eq_or_of_lt hd, Nat.shiftLeft_eq]

theorem toNat_shiftRight (buffer : UInt64) (hr : r < 64) :
    (buffer >>> .ofNat r).toNat = buffer.toNat / 2 ^ r := by
  rw [UInt64.toNat_shiftRight, toNat_ofNat hr, Nat.shiftRight_eq_div_pow]

theorem toNat_and (x : UInt64) : (x &&& 0x1f).toNat = x.toNat % 2 ^ 5 :=
  Nat.and_two_pow_sub_one_eq_mod x.toNat 5

end Buffer

theorem idxOf?_letter {d : Nat} (h : d < 2 ^ 5) : alphabet.idxOf? (letter d) = some d := by
  revert d
  decide

theorem letter_mem {d : Nat} (h : d < 2 ^ 5) : letter d ∈ alphabet := by
  revert d
  decide

structure Encoder.Took (e : Encoder) (raw : List UInt8) (es : List Nat) : Prop where
  holds : Holds 8 5 (raw.map UInt8.toNat) es e.buffer.toNat e.bitsLeft
  small : ∀ d ∈ es, d < 2 ^ 5
  out : e.out = es.map letter

namespace Encoder.Took

variable {e : Encoder} {raw : List UInt8} {es : List Nat}

theorem drain {buffer : UInt64} {n : Nat} {out : List Char} (hn : n < 64)
    (h : Took ⟨buffer, n, out⟩ raw es) :
    ∃ es', (Encoder.drain buffer n out).Took raw es' ∧ (Encoder.drain buffer n out).bitsLeft < 5 := by
  fun_induction Encoder.drain buffer n out generalizing es
  case case1 n out hi =>
    refine @hi (es ++ [buffer.toNat / 2 ^ n % 2 ^ 5]) (by omega) ⟨h.holds.emit, ?_, ?_⟩
    · intro d hd
      rcases List.mem_append.mp hd with hd | hd
      · exact h.small d hd
      · rw [List.mem_singleton.mp hd]
        exact Nat.mod_lt _ (by decide)
    · rw [toNat_and, toNat_shiftRight buffer (by omega), List.map_append, ← h.out]
      rfl
  case case2 n out hs => exact ⟨es, h, Nat.lt_of_not_le fun hl => hs (n - 5) (Nat.sub_add_cancel hl).symm⟩

theorem push (h : e.Took raw es) (hb : e.bitsLeft < 5) (b : UInt8) :
    ∃ es', (e.push b).Took (raw ++ [b]) es' ∧ (e.push b).bitsLeft < 5 := by
  refine drain (Nat.add_lt_add_right hb 8 |>.trans (by decide)) ⟨?_, h.small, h.out⟩
  have hu : UInt64.ofNat b.toNat = b.toUInt64 :=
    UInt64.toNat_inj.mp (by simp)
  rw [List.map_append]
  refine h.holds.push b.toNat_lt ?_
  exact hu ▸ toNat_push (m := 8) (r := e.bitsLeft) e.buffer (by decide) b.toNat_lt (by omega)

theorem foldl (raw : List UInt8) : ∃ es, (raw.foldl Encoder.push ⟨0, 0, []⟩).Took raw es ∧
    (raw.foldl Encoder.push ⟨0, 0, []⟩).bitsLeft < 5 := by
  induction raw using List.reverseRecOn
  case nil => exact ⟨[], ⟨.init .., by simp, rfl⟩, by decide⟩
  case append_singleton raw b hi =>
    obtain ⟨es, h, hb⟩ := hi
    rw [List.foldl_append]
    exact h.push hb b

end Encoder.Took

-- The encoded text writes the bytes with less than five zeros after them.
theorem exists_base32Encode (raw : List UInt8) : ∃ es p, p < 5 ∧
    (base32Encode raw).toList = es.map letter ∧ (∀ d ∈ es, d < 2 ^ 5) ∧
    5 * es.length = 8 * (raw.map UInt8.toNat).length + p ∧
    value 5 es = value 8 (raw.map UInt8.toNat) * 2 ^ p := by
  obtain ⟨es, h, hb⟩ := Encoder.Took.foldl raw
  simp only [base32Encode, String.toList_ofList]
  generalize raw.foldl Encoder.push ⟨0, 0, []⟩ = e at h hb
  have hl := h.holds.length
  have hv := h.holds.value
  split
  case isFalse hz =>
    have hz : e.bitsLeft = 0 := by omega
    rw [hz] at hl hv
    exact ⟨es, 0, by decide, h.out, h.small, by omega, by simpa [Nat.mod_one] using hv.symm⟩
  case isTrue hz =>
    obtain ⟨p, hp⟩ : ∃ p, e.bitsLeft + p = 5 := ⟨5 - e.bitsLeft, by omega⟩
    have hs : 5 - e.bitsLeft = p := by omega
    have hd : (e.buffer <<< .ofNat p &&& 0x1f).toNat = e.buffer.toNat % 2 ^ e.bitsLeft * 2 ^ p := by
      rw [toNat_and, UInt64.toNat_shiftLeft, toNat_ofNat (by omega),
        Nat.mod_mod_of_dvd _ (by decide), Nat.shiftLeft_eq, ← hp, Nat.pow_add,
        Nat.mul_mod_mul_right]
    refine ⟨es ++ [e.buffer.toNat % 2 ^ e.bitsLeft * 2 ^ p], p, by omega, ?_, ?_, ?_, ?_⟩
    · rw [hs, hd, h.out, List.map_append]
      rfl
    · intro d hd
      rcases List.mem_append.mp hd with hd | hd
      · exact h.small d hd
      · rw [List.mem_singleton.mp hd, ← hp, Nat.pow_add]
        exact Nat.mul_lt_mul_of_pos_right (Nat.mod_lt _ (Nat.two_pow_pos _)) (Nat.two_pow_pos _)
    · simp only [List.length_append, List.length_singleton]
      omega
    · rw [value_concat, hv, ← hp, Nat.pow_add]
      ring

structure Decoder.Took (d : Decoder) (es : List Nat) : Prop where
  holds : Holds 5 8 es (d.out.map UInt8.toNat) d.buffer.toNat d.bitsLeft
  bitsLeft : d.bitsLeft < 8

theorem Decoder.Took.push {d : Decoder} {es : List Nat} (h : d.Took es) {i : Nat} (hi : i < 2 ^ 5) :
    (d.push (letter i)).Took (es ++ [i]) := by
  have hb := h.bitsLeft
  have hp := h.holds.push hi (toNat_push d.buffer (by decide) hi (by omega))
  simp only [Decoder.push, idxOf?_letter hi]
  split
  case isFalse hn => exact ⟨hp, Nat.lt_of_not_le hn⟩
  case isTrue hn =>
    obtain ⟨r, hr⟩ := Nat.exists_eq_add_of_le' hn
    have he := (hr ▸ hp).emit
    refine ⟨?_, by simp only; omega⟩
    simp only [hr, Nat.add_sub_cancel, List.map_append]
    rw [← toNat_shiftRight _ (by omega)] at he
    exact he

theorem Decoder.Took.foldl (es : List Nat) (h : ∀ d ∈ es, d < 2 ^ 5) :
    ((es.map letter).foldl Decoder.push ⟨0, 0, []⟩).Took es := by
  induction es using List.reverseRecOn
  case nil => exact ⟨.init .., by decide⟩
  case append_singleton es i hi =>
    rw [List.map_append, List.foldl_append]
    exact (hi fun d hd => h d (by simp [hd])).push (h i (by simp))

section Respelled

variable {cs ds : List Char}

theorem Respelled.refl (cs : List Char) : Respelled cs cs := by
  induction cs
  case nil => exact .nil
  case cons c cs hi => exact .same c hi

theorem Respelled.filter (h : Respelled cs ds) (hc : ∀ c ∈ cs, c ∈ alphabet) :
    ∃ k, ((ds.map Char.toUpper).filter fun ch => ch ∈ alphabet || ch = '=') =
      cs ++ List.replicate k '=' := by
  have hu : alphabet.all fun c => c.toUpper = c ∧ c.toLower.toUpper = c := by decide
  simp only [List.all_eq_true, decide_eq_true_eq] at hu
  induction h
  case nil => exact ⟨0, rfl⟩
  case same c _ _ _ hi | lower c _ _ _ hi =>
    obtain ⟨k, hk⟩ := hi fun c hm => hc c (List.mem_cons_of_mem _ hm)
    have hm := hc c List.mem_cons_self
    exact ⟨k, by simp [hu c hm, hm, hk]⟩
  case space hi =>
    obtain ⟨k, hk⟩ := hi hc
    exact ⟨k, hk⟩
  case padding hi =>
    obtain ⟨k, hk⟩ := hi hc
    exact ⟨k + 1, congrArg ('=' :: ·) hk⟩

theorem rdropWhile_padding (hc : ∀ c ∈ cs, c ∈ alphabet) (k : Nat) :
    (cs ++ List.replicate k '=').rdropWhile (· = '=') = cs := by
  have he : ∀ c ∈ cs.reverse, ¬c = '=' := by
    rintro c hm rfl
    exact absurd (hc '=' (List.mem_reverse.mp hm)) (by decide)
  rw [List.rdropWhile, List.reverse_append, List.reverse_replicate,
    List.dropWhile_append_of_pos (by simp), List.dropWhile_eq_self_iff.mpr ?_, List.reverse_reverse]
  intro hl
  simpa using he _ (List.getElem_mem hl)

end Respelled

theorem base32Decode_of_respelled {raw : List UInt8} {text : String}
    (h : Respelled (base32Encode raw).toList text.toList) : base32Decode text = raw := by
  obtain ⟨es, p, hp, he, hs, hl, hv⟩ := exists_base32Encode raw
  have hc : ∀ c ∈ es.map letter, c ∈ alphabet := by
    rintro c hc
    obtain ⟨d, hd, rfl⟩ := List.mem_map.mp hc
    exact letter_mem (hs d hd)
  rw [he] at h
  obtain ⟨k, hk⟩ := h.filter hc
  have ht := Decoder.Took.foldl es hs
  simp only [base32Decode, hk, rdropWhile_padding hc]
  have hsmall (bs : List UInt8) : ∀ d ∈ bs.map UInt8.toNat, d < 2 ^ 8 := by
    rintro d hd
    obtain ⟨b, _, rfl⟩ := List.mem_map.mp hd
    exact b.toNat_lt
  refine List.map_injective_iff.mpr (fun _ _ => UInt8.toNat_inj.mp) ?_
  exact ht.holds.eq_of_value_eq ht.bitsLeft (hsmall _) (hsmall _) (by omega) hl hv

theorem base32Decode_base32Encode (raw : List UInt8) :
    base32Decode (base32Encode raw) = raw ∧
      ∀ text, Respelled (base32Encode raw).toList text.toList →
        base32Decode text = base32Decode (base32Encode raw) := by
  have h := base32Decode_of_respelled (Respelled.refl (base32Encode raw).toList)
  exact ⟨h, fun text ht => (base32Decode_of_respelled ht).trans h.symm⟩

theorem base32Decode_small_letters :
    Respelled (base32Encode [0x66, 0x6f]).toList "Mz Xq====".toList ∧
      base32Decode "Mz Xq====" = base32Decode (base32Encode [0x66, 0x6f]) :=
  have h : Respelled (base32Encode [0x66, 0x6f]).toList "Mz Xq====".toList :=
    .same 'M' <| .lower 'Z' <| .space <| .same 'X' <| .lower 'Q' <|
      .padding <| .padding <| .padding <| .padding .nil
  ⟨h, (base32Decode_base32Encode [0x66, 0x6f]).right _ h⟩

end ControlPlane.Totp
