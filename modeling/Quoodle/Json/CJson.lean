import Quoodle.Data.Decimal
import Quoodle.Json.Order
import Quoodle.Json.Style

-- Values of the C library `cJSON`, as far as the values of all numbers are integers. Numbers are
-- doubles, and strings end at the first NUL character.
namespace Json.CJson

variable {ν α : Type}

def cString (s : String) : String :=
  .ofList (s.toList.takeWhile (· ≠ '\x00'))

def NoNul (s : String) : Prop :=
  ∀ c ∈ s.toList, c ≠ '\x00'

instance : DecidablePred NoNul :=
  fun s => List.decidableBAll (· ≠ '\x00') s.toList

theorem cString_eq_self_iff (s : String) : cString s = s ↔ NoNul s := by
  rw [cString, ← String.toList_inj, String.toList_ofList, List.takeWhile_eq_self_iff]
  simp [NoNul]

theorem noNul_cString (s : String) : NoNul (cString s) := by
  intro c hc
  rw [cString, String.toList_ofList] at hc
  simpa using List.mem_takeWhile_imp hc

theorem cString_comp_cString : cString ∘ cString = cString :=
  funext fun s => (cString_eq_self_iff _).mpr (noNul_cString s)

def signed (f : Nat → Nat) (d : Int) : Int :=
  if d < 0 then -(f d.natAbs : Int) else f d.natAbs

def readDouble : List Char → Option Int
  | '-' :: cs => (Decimal.read cs).map fun n : Nat => Binary64.round (-n)
  | cs => (Decimal.read cs).map fun n : Nat => Binary64.round n

-- `printf` with conversion `%1.pg`.
def formatG (p : Nat) (d : Int) : List Char :=
  if d < 0 then '-' :: Decimal.format p d.natAbs else Decimal.format p d.natAbs

def valueInt (d : Int) : Int :=
  if 2 ^ 31 - 1 ≤ d then 2 ^ 31 - 1 else if d ≤ -2 ^ 31 then -2 ^ 31 else d

-- Equality up to the relative error `DBL_EPSILON`.
def compareDouble (a b : Int) : Bool :=
  (Binary64.round (a - b)).natAbs * 2 ^ 52 ≤ max a.natAbs b.natAbs

def printNumber (d : Int) : List Char :=
  if d = valueInt d then intText (valueInt d)
  else
    match readDouble (formatG 15 d) with
    | some test => if compareDouble test d then formatG 15 d else formatG 17 d
    | none => formatG 17 d

def printed (d : Int) : Int :=
  if d = valueInt d then d
  else
    let test := signed (Decimal.roundSig 15) d
    if compareDouble (Binary64.round test) d then test else signed (Decimal.roundSig 17) d

theorem signed_eq_self {f : Nat → Nat} {d : Int} (h : f d.natAbs = d.natAbs) : signed f d = d := by
  rw [signed, h]
  split <;> omega

-- Fifteen digits are not enough for numbers of more than fifteen digits, unless the last one is
-- zero. In this range the comparison with the original number finds that out.
theorem roundSig_eq_self_of_compareDouble {d : Int} (h : d.natAbs ≤ 2 ^ 52)
    (hc : compareDouble (Binary64.round (signed (Decimal.roundSig 15) d)) d = true) :
    Decimal.roundSig 15 d.natAbs = d.natAbs := by
  by_cases hs : d.natAbs < 10 ^ 15
  case pos => exact Decimal.roundSig_eq_self (by decide) hs
  have he := Decimal.roundSig_eq_roundTo_ten (p := 15) (n := d.natAbs) (by decide) (by omega)
    (by omega)
  have ⟨hu, hl⟩ := Binary64.roundTo_near (u := 10) (by decide) d.natAbs
  have hd := Binary64.dvd_roundTo 10 d.natAbs
  rw [← he] at hu hl hd
  unfold compareDouble signed at hc
  rw [decide_eq_true_eq] at hc
  generalize Decimal.roundSig 15 d.natAbs = a at hc hu hl hd
  by_cases hn : d < 0
  case pos =>
    rw [if_pos hn, Binary64.round_eq_self (n := -(a : Int)) (by omega),
      Binary64.round_eq_self (by omega)] at hc
    omega
  case neg =>
    rw [if_neg hn, Binary64.round_eq_self (n := (a : Int)) (by omega),
      Binary64.round_eq_self (by omega)] at hc
    omega

theorem printed_eq_self {d : Int} (h : d.natAbs ≤ 2 ^ 52) : printed d = d := by
  unfold printed
  split
  case isTrue => rfl
  dsimp only
  split
  case isTrue hc => exact signed_eq_self <| roundSig_eq_self_of_compareDouble h hc
  case isFalse => exact signed_eq_self <| Decimal.roundSig_eq_self (by decide) (by omega)

theorem isNumber_formatG (p : Nat) (d : Int) : IsNumber (formatG p d) := by
  have ⟨c, cs, hf, hc, hcs⟩ := Decimal.format_eq_cons p d.natAbs
  have hn : ∀ e ∈ cs, isNumberChar e := fun e he => by
    rcases hcs e he with h | rfl | rfl | rfl <;> simp_all [isNumberChar]
  rw [formatG, hf]
  split
  · refine ⟨rfl, fun e he => ?_⟩
    cases List.mem_cons.mp he
    case inl h => simp [isNumberChar, h, hc]
    case inr h => exact hn e h
  · exact ⟨by simp [hc], hn⟩

theorem readDouble_of_isDigit {c : Char} {cs : List Char} (h : c.isDigit = true) :
    readDouble (c :: cs) = (Decimal.read (c :: cs)).map fun n : Nat => Binary64.round n := by
  rw [readDouble]
  intro ds hd
  simp only [List.cons.injEq] at hd
  rw [hd.left] at h
  contradiction

theorem readDouble_formatG (p : Nat) (d : Int) :
    readDouble (formatG p d) = some (Binary64.round (signed (Decimal.roundSig p) d)) := by
  rw [formatG, signed]
  split
  · rw [readDouble, Decimal.read_format, Option.map_some]
  · have ⟨c, cs, hf, hc, _⟩ := Decimal.format_eq_cons p d.natAbs
    have hr := Decimal.read_format p d.natAbs
    rw [hf] at hr ⊢
    rw [readDouble_of_isDigit hc, hr, Option.map_some]

theorem readDouble_intText (n : Int) : readDouble (intText n) = some (Binary64.round n) := by
  have hd := @Decimal.isDigit_of_mem_toDigits n.natAbs
  have hr := Decimal.read_digits hd Nat.toDigits_ne_nil
  rw [Nat.ofDigitChars_ten_toDigits] at hr
  rw [intText]
  split
  case isTrue h =>
    rw [readDouble, hr, Option.map_some, show -(n.natAbs : Int) = n by omega]
  case isFalse h =>
    obtain ⟨c, cs, hc⟩ := List.exists_cons_of_ne_nil (Nat.toDigits_ne_nil (n := n.natAbs) (b := 10))
    rw [hc] at hd hr ⊢
    rw [readDouble_of_isDigit (hd c List.mem_cons_self), hr, Option.map_some,
      show (n.natAbs : Int) = n by omega]

theorem readDouble_printNumber (d : Int) :
    readDouble (printNumber d) = some (Binary64.round (printed d)) := by
  rw [printNumber, printed, readDouble_formatG]
  split
  case isTrue h => rw [readDouble_intText, ← h]
  dsimp only
  split <;> rw [readDouble_formatG]

def format : NumberFormat Int where
  text := printNumber
  isNumber d := by
    unfold printNumber
    split
    · exact isNumber_intText _
    · split
      · split <;> exact isNumber_formatG _ _
      · exact isNumber_formatG _ _

def dialect : Dialect where
  space c := c.toNat ≤ 0x20
  control := true
  blank := rfl
  invisible := by simp

def nestingLimit : Nat :=
  1000

def parseWith (read : List Char → Option ν) (text : List Char) : Option (Json ν) := do
  let (v, _) ← dialect.readValue (text.length + 1) text
  if v.depth ≤ nestingLimit then (v.mapNum? read).map (mapText cString) else none

def parse (text : List Char) : Option (Json Int) :=
  parseWith readDouble text

def printUnformatted (v : Json Int) : List Char :=
  print .minimal format v

theorem parse_print (st : Style) {fmt : NumberFormat ν} {f : ν → Int} {v : Json ν}
    (h : v.Nums fun n => readDouble (fmt.text n) = some (f n)) :
    parse (print st fmt v) =
      if v.depth ≤ nestingLimit then some (mapText cString (mapNum f v)) else none := by
  have hr := Dialect.readValue_print dialect st fmt v ((print st fmt v).length + 1) []
    (Nat.le_succ _) .nil
  rw [List.append_nil] at hr
  simp only [parse, parseWith, hr, Option.bind_eq_bind, Option.bind_some, depth_mapNum,
    mapNum?_mapNum_of_nums h, Option.map_some]

-- Keys are compared without regard to the case of ASCII letters.
def keyEq (k l : String) : Bool :=
  k.toList.map Char.toLower == l.toList.map Char.toLower

def hasItem (name : String) (ms : List (String × α)) : Bool :=
  ms.any fun m => keyEq name m.1

def getItem (name : String) (ms : List (String × α)) : Option α :=
  (ms.find? fun m => keyEq name m.1).map Prod.snd

def getString (name : String) (ms : List (String × Json ν)) : Option String :=
  match getItem name ms with
  | some (.str s) => some s
  | _ => none

-- Changes the item that `cJSON_GetObjectItem` finds.
def modifyItem (name : String) (f : α → α) : List (String × α) → List (String × α)
  | [] => []
  | m :: ms => if keyEq name m.1 then (m.1, f m.2) :: ms else m :: modifyItem name f ms

end Json.CJson
