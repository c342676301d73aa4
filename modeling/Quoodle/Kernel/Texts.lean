import Quoodle.Kernel.Driver

-- Texts in the buffers of the driver: decimal numbers and terminated strings.
namespace Kernel

theorem forall_byte {P : UInt8 → Prop} (h : ∀ n < 256, P (UInt8.ofNat n)) (c : UInt8) : P c := by
  have hc := h c.toNat c.toNat_lt
  rwa [UInt8.ofNat_toNat] at hc

def isDigit (b : UInt8) : Bool :=
  '0'.toUInt8 ≤ b && b ≤ '9'.toUInt8

theorem toNat_toUInt8_of_isDigit {c : Char} (h : c.isDigit = true) :
    c.toUInt8.toNat = c.toNat ∧ 48 ≤ c.toNat ∧ c.toNat ≤ 57 := by
  simp only [Char.isDigit, Bool.and_eq_true, decide_eq_true_eq] at h
  have h₁ : 48 ≤ c.toNat := UInt32.le_iff_toNat_le.mp h.left
  have h₂ : c.toNat ≤ 57 := UInt32.le_iff_toNat_le.mp h.right
  refine ⟨?_, h₁, h₂⟩
  change c.toNat % 256 = c.toNat
  omega

variable {cs s : List UInt8} {n : Nat}

theorem isDigit_of_mem_toDigits {c : Char} (h : c ∈ Nat.toDigits 10 n) : c.isDigit = true :=
  Nat.isDigit_of_mem_toDigits (b := 10) (by decide) (by decide) h

theorem isDigit_of_mem_decimal : ∀ b ∈ decimal n, isDigit b = true := by
  intro b hb
  obtain ⟨c, hc, rfl⟩ := List.mem_map.mp hb
  obtain ⟨he, h₁, h₂⟩ := toNat_toUInt8_of_isDigit (isDigit_of_mem_toDigits hc)
  simp only [isDigit, Bool.and_eq_true, decide_eq_true_eq, UInt8.le_iff_toNat_le, he]
  exact ⟨h₁, h₂⟩

theorem decimal_ne_nil (n : Nat) : decimal n ≠ [] :=
  fun h => Nat.toDigits_ne_nil (List.map_eq_nil_iff.mp h)

theorem decimal_injective : Function.Injective decimal := by
  intro m n h
  have hr (n : Nat) : (decimal n).map (fun b => Char.ofNat b.toNat) = Nat.toDigits 10 n := by
    rw [decimal, List.map_map]
    refine (List.map_congr_left fun c hc => ?_).trans (List.map_id _)
    obtain ⟨he, _⟩ := toNat_toUInt8_of_isDigit (isDigit_of_mem_toDigits hc)
    rw [Function.comp_apply, he, Char.ofNat_toNat, id]
  rw [← Nat.ofDigitChars_ten_toDigits (n := m), ← hr, h, hr, Nat.ofDigitChars_ten_toDigits]

theorem decimal_cancel {m n : Nat} {s t : List UInt8} (hs : s.head?.any isDigit = false)
    (ht : t.head?.any isDigit = false) (h : decimal m ++ s = decimal n ++ t) : m = n ∧ s = t := by
  have hn {s : List UInt8} (hs : s.head?.any isDigit = false) : s.takeWhile isDigit = [] := by
    cases s
    case nil => rfl
    case cons c s => exact List.takeWhile_cons_of_neg (by simpa using hs)
  have hd := congrArg (List.takeWhile isDigit) h
  rw [List.takeWhile_append_of_pos isDigit_of_mem_decimal,
    List.takeWhile_append_of_pos isDigit_of_mem_decimal, hn hs, hn ht, List.append_nil,
    List.append_nil] at hd
  obtain rfl := decimal_injective hd
  exact ⟨rfl, List.append_cancel_left h⟩

theorem terminated_take (h : (terminated cs).length ≤ n) :
    terminated (cs.take n) = terminated cs := by
  induction cs generalizing n
  case nil => simp [terminated]
  case cons c cs hi =>
    cases n
    case zero =>
      cases hc : decide (c ≠ 0)
      case false | true => simp_all [terminated]
    case succ n =>
      by_cases hc : c = 0
      case pos => simp [terminated, hc]
      simp only [terminated, List.take_succ_cons, List.takeWhile_cons, hc, ne_eq, not_false_eq_true,
        decide_true, if_true, List.length_cons, Nat.add_le_add_iff_right] at h hi ⊢
      rw [hi h]

theorem length_terminated_le (h : cs[n]? = some 0) : (terminated cs).length ≤ n := by
  induction cs generalizing n
  case nil => simp [terminated]
  case cons c cs hi =>
    cases n
    case zero => simp_all [terminated]
    case succ n =>
      by_cases hc : c = 0
      case pos => simp [terminated, hc]
      have hl := hi (List.getElem?_cons_succ ▸ h)
      simpa [terminated, hc] using hl

theorem terminated_eq_self (h : 0 ∉ cs) : terminated cs = cs :=
  List.takeWhile_eq_self_iff.mpr fun c hc => by simpa using ne_of_mem_of_not_mem hc h

theorem terminated_append_of_not_mem (h : 0 ∉ s) (t : List UInt8) :
    terminated (s ++ t) = s ++ terminated t :=
  List.takeWhile_append_of_pos fun c hc => by simpa using ne_of_mem_of_not_mem hc h

theorem terminated_append_of_mem (h : 0 ∈ s) (t : List UInt8) :
    terminated (s ++ t) = terminated s := by
  induction s
  case nil => cases h
  case cons c s hi =>
    by_cases hc : c = 0
    case pos => simp [terminated, hc]
    have hs : 0 ∈ s := (List.mem_cons.mp h).resolve_left (Ne.symm hc)
    simpa [terminated, hc] using hi hs

theorem zero_not_mem_terminated (cs : List UInt8) : 0 ∉ terminated cs :=
  fun h => by simpa using List.mem_takeWhile_imp h

theorem length_decimal_le {n k : Nat} (hk : 0 < k) (h : n < 10 ^ k) : (decimal n).length ≤ k := by
  rw [decimal, List.length_map]
  exact (Nat.length_toDigits_le_iff (by decide) hk).mpr h

theorem length_terminated_le_length (cs : List UInt8) : (terminated cs).length ≤ cs.length :=
  (List.takeWhile_sublist _).length_le

theorem length_counted_le (n : Nat) (cs : List UInt8) :
    (counted n cs).length ≤ (decimal n).length + 1 + cs.length := by
  have ht := (length_terminated_le_length (cs.take n)).trans (List.length_take_le' ..)
  have hc : (ascii ":").length = 1 := rfl
  simp only [counted, List.length_append, hc]
  omega

def field (cs : List UInt8) : List UInt8 :=
  counted (terminated cs).length cs

theorem field_eq (cs : List UInt8) :
    field cs = decimal (terminated cs).length ++ ascii ":" ++ terminated cs := by
  rw [field, counted, terminated_take le_rfl]

theorem length_field_le (v : List.Vector UInt8 n) (h : n < 1000) :
    (field v.toList).length ≤ 4 + n := by
  have ht := length_terminated_le_length v.toList
  rw [v.toList_length] at ht
  have hd : (decimal (terminated v.toList).length).length ≤ 3 :=
    length_decimal_le (by decide) (by omega)
  have hc : (ascii ":").length = 1 := rfl
  simp only [field_eq, List.length_append, hc]
  omega

theorem toList_pad (n : Nat) (cs : List UInt8) :
    (pad n cs).toList = (cs ++ List.replicate n 0).take n := by
  rw [pad, List.Vector.toList_ofFn]
  apply List.ext_getElem
  · simp
  · intro i h₁ h₂
    have hi : i < n := by simpa using h₁
    rw [List.getElem_ofFn, List.getElem_take, List.getElem_append]
    split
    case isTrue h => simp [h]
    case isFalse h => simp [List.getElem?_eq_none (not_lt.mp h)]

end Kernel
