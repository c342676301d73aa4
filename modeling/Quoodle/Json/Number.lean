import Quoodle.Json.Text

namespace Json

def intText (n : Int) : List Char :=
  if n < 0 then '-' :: Nat.toDigits 10 n.natAbs else Nat.toDigits 10 n.natAbs

def IsDigits (cs : List Char) : Prop :=
  cs ≠ [] ∧ (∀ c ∈ cs, c.isDigit = true) ∧ (cs.head? = some '0' → cs.length = 1)

instance : DecidablePred IsDigits :=
  fun cs =>
    letI : Decidable (∀ c ∈ cs, c.isDigit = true) := List.decidableBAll _ cs
    inferInstanceAs (Decidable (cs ≠ [] ∧ _ ∧ _))

-- The value of an integer literal. Literals with a fraction or an exponent are not integers.
def readInt : List Char → Option Int
  | '-' :: cs => if IsDigits cs then some (-(Nat.ofDigitChars 10 cs 0 : Nat)) else none
  | cs => if IsDigits cs then some (Nat.ofDigitChars 10 cs 0 : Nat) else none

theorem isDigits_toDigits (n : Nat) : IsDigits (Nat.toDigits 10 n) := by
  refine ⟨Nat.toDigits_ne_nil, fun c hc => ?_, ?_⟩
  · exact Nat.isDigit_of_mem_toDigits (b := 10) (by decide) (by decide) hc
  induction n using Nat.strongRecOn
  case ind n hi =>
    intro hz
    by_cases hn : n < 10
    case pos => rw [Nat.toDigits_of_lt_base hn]; rfl
    have hd : Nat.toDigits 10 n = Nat.toDigits 10 (n / 10) ++ [(n % 10).digitChar] :=
      Nat.toDigits_of_base_le (by decide) (by omega)
    have hne : Nat.toDigits 10 (n / 10) ≠ [] := Nat.toDigits_ne_nil
    rw [hd, List.head?_append_of_ne_nil _ hne] at hz
    have hl := hi (n / 10) (by omega) hz
    obtain ⟨c, hc⟩ := List.length_eq_one_iff.mp hl
    rw [hc, List.head?_singleton, Option.some.injEq] at hz
    have := Nat.ofDigitChars_ten_toDigits (n := n / 10)
    simp [hc, hz, Nat.ofDigitChars] at this
    omega

theorem toDigits_ne_minus (n : Nat) (cs : List Char) : Nat.toDigits 10 n ≠ '-' :: cs := by
  intro h
  have := (isDigits_toDigits n).right.left '-' (by simp [h])
  contradiction

theorem readInt_intText (n : Int) : readInt (intText n) = some n := by
  have hd := isDigits_toDigits n.natAbs
  have ho := Nat.ofDigitChars_ten_toDigits (n := n.natAbs)
  unfold intText
  split
  case isTrue h =>
    simp only [readInt, if_pos hd, ho, Option.some.injEq]
    omega
  case isFalse h =>
    rw [readInt]
    · simp only [if_pos hd, ho, Option.some.injEq]
      omega
    · exact toDigits_ne_minus _

theorem intText_injective : Function.Injective intText := by
  intro m n h
  simpa [readInt_intText] using congrArg readInt h

theorem isNumber_of_isDigits {cs : List Char} (h : IsDigits cs) : IsNumber cs := by
  cases cs
  case nil => exact absurd rfl h.left
  case cons c cs =>
    have hd := h.right.left
    simp only [List.mem_cons, forall_eq_or_imp] at hd
    exact ⟨by simp [hd.left], fun d hm => by simp [isNumberChar, hd.right d hm]⟩

theorem isNumber_intText (n : Int) : IsNumber (intText n) := by
  have hd := isDigits_toDigits n.natAbs
  unfold intText
  split
  · exact ⟨rfl, fun c hc => by simp [isNumberChar, hd.right.left c hc]⟩
  · exact isNumber_of_isDigits hd

def NumberFormat.decimal : NumberFormat Int where
  text := intText
  isNumber := isNumber_intText

end Json
