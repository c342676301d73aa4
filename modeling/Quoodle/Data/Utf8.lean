import Mathlib

-- The UTF-8 encoding of a text. Comparing encodings byte by byte (as `memcmp` and `strcmp` do)
-- agrees with comparing texts by code points.
def utf8 (cs : List Char) : List UInt8 :=
  cs.flatMap String.utf8EncodeChar

@[simp]
theorem utf8_nil : utf8 [] = [] :=
  rfl

@[simp]
theorem utf8_cons (c : Char) (cs : List Char) :
    utf8 (c :: cs) = String.utf8EncodeChar c ++ utf8 cs :=
  rfl

theorem utf8EncodeChar_append_lt {c d : Char} (h : c < d) (s t : List UInt8) :
    String.utf8EncodeChar c ++ s < String.utf8EncodeChar d ++ t := by
  have hcd : c.val.toNat < d.val.toNat := h
  have hc := c.valid
  have hd := d.valid
  simp only [UInt32.isValidChar, Nat.isValidChar] at hc hd
  generalize hm : c.val.toNat = m at hcd hc
  generalize hn : d.val.toNat = n at hcd hd
  simp only [String.utf8EncodeChar, hm, hn]
  split_ifs <;> simp only [List.cons_append, List.nil_append, List.cons_lt_cons_iff,
    UInt8.lt_iff_toNat_lt, ← UInt8.toNat_inj, UInt8.toNat_ofNat'] <;>
    simp (disch := omega) only [Nat.mod_eq_of_lt, Nat.reducePow] <;> omega

theorem utf8_lt_of_lt {s t : List Char} (h : s < t) : utf8 s < utf8 t := by
  induction s generalizing t
  case nil =>
    cases t
    case nil => exact absurd h (List.lt_irrefl _)
    case cons d t =>
      have := List.exists_cons_of_ne_nil (@String.utf8EncodeChar_ne_nil d)
      obtain ⟨b, bs, hb⟩ := this
      simp [hb]
  case cons c s hi =>
    cases t
    case nil => exact absurd h (List.not_lt_nil _)
    case cons d t =>
      cases List.cons_lt_cons_iff.mp h
      case inl hc => exact utf8EncodeChar_append_lt hc _ _
      case inr hc =>
        obtain ⟨rfl, ht⟩ := hc
        simp only [utf8_cons]
        exact List.append_left_lt (hi ht)

theorem utf8_lt_iff {s t : List Char} : utf8 s < utf8 t ↔ s < t := by
  refine ⟨fun h => ?_, utf8_lt_of_lt⟩
  rcases lt_trichotomy s t with h' | rfl | h'
  · exact h'
  · exact absurd h (List.lt_irrefl _)
  · exact absurd h (List.lt_asymm (utf8_lt_of_lt h'))

theorem utf8_le_iff {s t : List Char} : utf8 s ≤ utf8 t ↔ s ≤ t := by
  rw [← List.not_lt, utf8_lt_iff, not_lt]

theorem utf8_injective : Function.Injective utf8 := by
  intro s t h
  by_contra hne
  rcases lt_or_gt_of_ne hne with h' | h'
  · exact absurd (h ▸ utf8_lt_of_lt h') (List.lt_irrefl _)
  · exact absurd (h ▸ utf8_lt_of_lt h') (List.lt_irrefl _)
