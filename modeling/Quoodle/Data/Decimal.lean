import Quoodle.Data.Binary64

-- Integers as `printf` writes them with the conversion `%g`, and as `strtod` reads them.
namespace Decimal

def roundSig (p n : Nat) : Nat :=
  Binary64.roundTo (10 ^ ((Nat.toDigits 10 n).length - p)) n

def exponent (e : Nat) : List Char :=
  if e < 10 then '0' :: Nat.toDigits 10 e else Nat.toDigits 10 e

-- Numbers with more than `p` digits are written with an exponent, without zeros at the end.
def write (p : Nat) : List Char → List Char
  | [] => []
  | d :: ds =>
    if ds.length < p then d :: ds
    else
      let frac := ds.rdropWhile (· == '0')
      d :: (if frac = [] then [] else '.' :: frac) ++ 'e' :: '+' :: exponent ds.length

def format (p n : Nat) : List Char :=
  write p (Nat.toDigits 10 (roundSig p n))

def readExponent (digits frac : List Char) : List Char → Option Nat
  | [] => if digits ≠ [] ∧ frac = [] then some (Nat.ofDigitChars 10 digits 0) else none
  | 'e' :: '+' :: es =>
    let e := Nat.ofDigitChars 10 es 0
    if digits ≠ [] ∧ es ≠ [] ∧ es.all Char.isDigit ∧ frac.length ≤ e then
      some (Nat.ofDigitChars 10 (digits ++ frac) 0 * 10 ^ (e - frac.length))
    else none
  | _ => none

def read (cs : List Char) : Option Nat :=
  let digits := cs.takeWhile Char.isDigit
  match cs.dropWhile Char.isDigit with
  | '.' :: cs => readExponent digits (cs.takeWhile Char.isDigit) (cs.dropWhile Char.isDigit)
  | cs => readExponent digits [] cs

variable {ds : List Char} {n p : Nat}

theorem roundSig_eq_self (hp : 0 < p) (h : n < 10 ^ p) : roundSig p n = n := by
  have hl := (Nat.length_toDigits_le_iff (by decide) hp).mpr h
  rw [roundSig, Nat.sub_eq_zero_of_le hl, Nat.pow_zero, Binary64.roundTo_one]

theorem roundSig_eq_roundTo_ten (hp : 0 < p) (h : 10 ^ p ≤ n) (h' : n < 10 ^ (p + 1)) :
    roundSig p n = Binary64.roundTo 10 n := by
  have hl := (Nat.length_toDigits_le_iff (by decide) hp).not.mpr h.not_gt
  have hl' := (Nat.length_toDigits_le_iff (b := 10) (by decide) p.succ_pos).mpr h'
  rw [roundSig, show (Nat.toDigits 10 n).length - p = 1 by omega, Nat.pow_one]

theorem takeWhile_isDigit (cs : List Char) (h : ∀ c ∈ ds, c.isDigit = true)
    (hc : ∀ c ∈ cs.head?, c.isDigit = false) :
    (ds ++ cs).takeWhile Char.isDigit = ds ∧ (ds ++ cs).dropWhile Char.isDigit = cs := by
  rw [List.takeWhile_append_of_pos h, List.dropWhile_append_of_pos h]
  cases cs
  case nil => simp
  case cons c cs => simp [hc c rfl]

theorem isDigit_of_mem_toDigits : ∀ c ∈ Nat.toDigits 10 n, c.isDigit = true :=
  fun _ => Nat.isDigit_of_mem_toDigits (b := 10) (by decide) (by decide)

theorem isDigit_of_mem_exponent {e : Nat} : ∀ c ∈ exponent e, c.isDigit = true := by
  unfold exponent
  split
  · simpa using isDigit_of_mem_toDigits
  · exact isDigit_of_mem_toDigits

theorem ofDigitChars_exponent (e : Nat) : Nat.ofDigitChars 10 (exponent e) 0 = e := by
  unfold exponent
  split <;> simp [Nat.ofDigitChars_cons]

theorem exponent_ne_nil (e : Nat) : exponent e ≠ [] := by
  unfold exponent
  split
  · simp
  · exact Nat.toDigits_ne_nil

theorem ofDigitChars_rdropWhile (ds : List Char) (i : Nat) :
    Nat.ofDigitChars 10 (ds.rdropWhile (· == '0')) i *
      10 ^ (ds.length - (ds.rdropWhile (· == '0')).length) = Nat.ofDigitChars 10 ds i := by
  induction ds using List.reverseRecOn
  case nil => simp
  case append_singleton ds c hi =>
    by_cases hc : c = '0'
    case pos =>
      have hl := (List.rdropWhile_prefix (· == '0') (l := ds)).length_le
      have he : (ds ++ [c]).length - (ds.rdropWhile (· == '0')).length =
          ds.length - (ds.rdropWhile (· == '0')).length + 1 := by
        simp only [List.length_append, List.length_singleton]
        omega
      rw [List.rdropWhile_concat_pos (· == '0') ds c (by simp [hc]), he, Nat.pow_succ, ← Nat.mul_assoc, hi,
        Nat.ofDigitChars_append, hc, Nat.ofDigitChars_cons]
      simp [Nat.mul_comm]
    case neg =>
      rw [List.rdropWhile_concat_neg (· == '0') ds c (by simp [hc])]
      simp

theorem readExponent_exponent {d : Char} {ds frac : List Char} (h : frac.length ≤ ds.length) :
    readExponent [d] frac ('e' :: '+' :: exponent ds.length) =
      some (Nat.ofDigitChars 10 (d :: frac) 0 * 10 ^ (ds.length - frac.length)) := by
  have ha : (exponent ds.length).all Char.isDigit = true :=
    List.all_eq_true.mpr isDigit_of_mem_exponent
  simp [readExponent, exponent_ne_nil, ofDigitChars_exponent, ha, h]

theorem read_digits (h : ∀ c ∈ ds, c.isDigit = true) (hn : ds ≠ []) :
    read ds = some (Nat.ofDigitChars 10 ds 0) := by
  have ⟨ht, hd⟩ := takeWhile_isDigit [] h (by simp)
  rw [List.append_nil] at ht hd
  simp [read, ht, hd, readExponent, hn]

theorem read_write (h : ∀ c ∈ ds, c.isDigit = true) (hn : ds ≠ []) :
    read (write p ds) = some (Nat.ofDigitChars 10 ds 0) := by
  cases ds
  case nil => exact absurd rfl hn
  case cons d ds =>
    rw [write]
    split
    case isTrue => exact read_digits h hn
    have hp := List.rdropWhile_prefix (· == '0') (l := ds)
    have hr := readExponent_exponent (d := d) hp.length_le
    have hv := ofDigitChars_rdropWhile ds (Nat.ofDigitChars 10 [d] 0)
    rw [← Nat.ofDigitChars_append, ← Nat.ofDigitChars_append, List.singleton_append,
      List.singleton_append] at hv
    rw [hv] at hr
    simp only [List.mem_cons, forall_eq_or_imp] at h
    dsimp only
    split
    case isTrue hf =>
      have ⟨ht, hd⟩ := takeWhile_isDigit ('e' :: '+' :: exponent ds.length)
        (List.forall_mem_singleton.mpr h.left) (by simp)
      rw [hf] at hr
      simp only [List.cons_append, List.nil_append] at ht hd ⊢
      simp only [read, ht, hd]
      exact hr
    case isFalse hf =>
      have hs : ∀ c ∈ ds.rdropWhile (· == '0'), c.isDigit = true :=
        fun c hc => h.right c (hp.mem hc)
      have ⟨ht, hd⟩ := takeWhile_isDigit
        ('.' :: (ds.rdropWhile (· == '0') ++ 'e' :: '+' :: exponent ds.length))
        (List.forall_mem_singleton.mpr h.left) (by simp)
      have ⟨ht', hd'⟩ := takeWhile_isDigit ('e' :: '+' :: exponent ds.length) hs (by simp)
      simp only [List.cons_append, List.nil_append] at ht hd ⊢
      simp only [read, ht, hd, ht', hd', hr]

theorem write_eq_cons (h : ∀ c ∈ ds, c.isDigit = true) (hn : ds ≠ []) :
    ∃ c cs, write p ds = c :: cs ∧ c.isDigit = true ∧
      ∀ d ∈ cs, d.isDigit = true ∨ d = '.' ∨ d = 'e' ∨ d = '+' := by
  cases ds
  case nil => exact absurd rfl hn
  case cons d ds =>
    simp only [List.mem_cons, forall_eq_or_imp] at h
    rw [write]
    split
    case isTrue => exact ⟨d, ds, rfl, h.left, fun c hc => .inl (h.right c hc)⟩
    refine ⟨d, _, List.cons_append, h.left, fun c hc => ?_⟩
    simp only [List.mem_append, List.mem_cons] at hc
    rcases hc with hc | rfl | rfl | hc
    · split at hc
      · contradiction
      · cases List.mem_cons.mp hc
        case inl hd => exact .inr (.inl hd)
        case inr hf => exact .inl (h.right c ((List.rdropWhile_prefix _ _).mem hf))
    · exact .inr (.inr (.inl rfl))
    · exact .inr (.inr (.inr rfl))
    · exact .inl (isDigit_of_mem_exponent c hc)

theorem read_format (p n : Nat) : read (format p n) = some (roundSig p n) := by
  rw [format, read_write isDigit_of_mem_toDigits Nat.toDigits_ne_nil, Nat.ofDigitChars_ten_toDigits]

theorem format_eq_cons (p n : Nat) :
    ∃ c cs, format p n = c :: cs ∧ c.isDigit = true ∧
      ∀ d ∈ cs, d.isDigit = true ∨ d = '.' ∨ d = 'e' ∨ d = '+' :=
  write_eq_cons isDigit_of_mem_toDigits Nat.toDigits_ne_nil

end Decimal
