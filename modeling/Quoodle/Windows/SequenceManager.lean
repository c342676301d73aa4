import Quoodle.Data.DurableCounter
import Quoodle.Json.Number

-- The sequence numbers of the messages of the agent, the last of which is kept in a file.
namespace Windows.SequenceManager

-- What is in the file, and in the temporary file that replaces it.
structure Files where
  file : Option (List Char)
  tmp : Option (List Char)

-- What happens to the calls of the operating system. A stream that cannot be opened, or that cannot
-- write everything, is not noticed.
structure Faults where
  -- `create_directories` throws.
  noDirectory : Bool
  -- The number of characters that get into the files, if they can be opened.
  tmpWritten : Option Nat
  renamed : Bool
  overwritten : Option Nat
  readable : Bool

def write (text : List Char) (written : Option Nat) (old : Option (List Char)) :
    Option (List Char) :=
  match written with
  | some k => some (text.take k)
  | none => old

def persistToDisk (o : Faults) (value : Nat) (f : Files) : Files :=
  let text := Nat.toDigits 10 value
  if o.noDirectory then f
  else
    match write text o.tmpWritten f.tmp, o.renamed with
    | some t, true => ⟨some t, none⟩
    | t, _ => ⟨write text o.overwritten f.file, t⟩

def isSpace (c : Char) : Bool :=
  c = ' ' || '\t' ≤ c && c ≤ '\r'

-- Models the extraction of a `std::uint64_t` from a stream. A negative number is taken modulo 2^64.
def extract (line : List Char) : Nat :=
  let cs := line.dropWhile isSpace
  let value (cs : List Char) := Nat.ofDigitChars 10 (cs.takeWhile Char.isDigit) 0
  match cs with
  | '-' :: cs => if value cs < 2 ^ 64 then (2 ^ 64 - value cs) % 2 ^ 64 else 2 ^ 64 - 1
  | '+' :: cs => min (value cs) (2 ^ 64 - 1)
  | cs => min (value cs) (2 ^ 64 - 1)

def loadFromDisk (o : Faults) (f : Files) : Nat :=
  if o.readable then
    match f.file with
    | some text =>
      let line := text.takeWhile (· ≠ '\n')
      if line = [] then 0 else extract line
    | none => 0
  else 0

def next (last : Nat) : Nat :=
  (last + 1) % 2 ^ 64

theorem extract_toDigits {n : Nat} (h : n < 2 ^ 64) : extract (Nat.toDigits 10 n) = n := by
  have hd : ∀ c ∈ Nat.toDigits 10 n, c.isDigit = true := (Json.isDigits_toDigits n).right.left
  obtain ⟨c, cs, hc⟩ := List.exists_cons_of_ne_nil (Json.isDigits_toDigits n).left
  have hw : (Nat.toDigits 10 n).dropWhile isSpace = Nat.toDigits 10 n := by
    rw [hc]
    refine List.dropWhile_cons_of_neg fun hw => ?_
    have hm : c.isDigit = true := hd c (by simp [hc])
    simp only [isSpace, Char.isDigit, Bool.or_eq_true, Bool.and_eq_true, decide_eq_true_eq] at hw hm
    obtain rfl | ⟨_, hw⟩ := hw
    · exact absurd hm.left (by decide)
    · exact absurd (hm.left.trans hw) (by decide)
  have hv : Nat.ofDigitChars 10 ((Nat.toDigits 10 n).takeWhile Char.isDigit) 0 = n := by
    rw [List.takeWhile_eq_self_iff.mpr hd, Nat.ofDigitChars_ten_toDigits]
  simp only [extract, hw]
  split
  case h_1 hm => exact absurd hm (Json.toDigits_ne_minus n _)
  case h_2 cs hm =>
    have hp := hd '+' (by simp [hm])
    cases hp
  rw [hv]
  omega

theorem loadFromDisk_toDigits {o : Faults} {f : Files} {n : Nat} (ho : o.readable = true)
    (hf : f.file = some (Nat.toDigits 10 n)) (h : n < 2 ^ 64) : loadFromDisk o f = n := by
  have hd : ∀ c ∈ Nat.toDigits 10 n, c.isDigit = true := (Json.isDigits_toDigits n).right.left
  have hl : (Nat.toDigits 10 n).takeWhile (· ≠ '\n') = Nat.toDigits 10 n :=
    List.takeWhile_eq_self_iff.mpr fun c hc => by
      have hm := hd c hc
      refine decide_eq_true fun he => ?_
      cases he
      cases hm
  simp only [loadFromDisk, ho, hf, hl, ↓reduceIte, if_neg (Json.isDigits_toDigits n).left]
  exact extract_toDigits h

-- The file has the digits of a number. Before the first one, there is no file.
def Holds (f : Files) (n : Int) : Prop :=
  ∃ m : Nat, n = m ∧ m < 2 ^ 64 ∧ (f.file = some (Nat.toDigits 10 m) ∨ m = 0 ∧ f.file = none)

def storage : DurableCounter.Storage Files Faults where
  next n := next n.toNat
  bound := 2 ^ 64
  next_of_lt h hn := by
    simp only [next]
    omega
  persist o n f := persistToDisk o n.toNat f
  load o f := loadFromDisk o f
  Holds := Holds
  Readable o := o.readable
  load_of_holds := by
    rintro o f n ho ⟨m, rfl, hm, hf | ⟨rfl, hf⟩⟩
    · rw [loadFromDisk_toDigits ho hf hm]
    · simp [loadFromDisk, hf]

end Windows.SequenceManager
