import Quoodle.Json.Convert

namespace Json

-- The characters that may follow a backslash, apart from `u`.
def unescape : Char → Option Char
  | '"'  => some '"'
  | '\\' => some '\\'
  | '/' => some '/'
  | 'b' => some '\x08'
  | 'f' => some '\x0c'
  | 'n' => some '\n'
  | 'r' => some '\r'
  | 't' => some '\t'
  | _ => none

def hexValue (c : Char) : Option Nat :=
  if '0' ≤ c ∧ c ≤ '9' then some (c.toNat - '0'.toNat)
  else if 'a' ≤ c ∧ c ≤ 'f' then some (c.toNat - 'a'.toNat + 10)
  else if 'A' ≤ c ∧ c ≤ 'F' then some (c.toNat - 'A'.toNat + 10)
  else none

def hex4 (n : Nat) : List Char :=
  [(n / 4096 % 16).digitChar, (n / 256 % 16).digitChar, (n / 16 % 16).digitChar,
    (n % 16).digitChar]

def readHex4 : List Char → Option (Nat × List Char)
  | a :: b :: c :: d :: cs => do
    let a ← hexValue a
    let b ← hexValue b
    let c ← hexValue c
    let d ← hexValue d
    some (a * 4096 + b * 256 + c * 16 + d, cs)
  | _ => none

theorem hexValue_digitChar {n : Nat} (h : n < 16) : hexValue n.digitChar = some n := by
  interval_cases n <;> rfl

theorem readHex4_hex4 {n : Nat} (h : n < 65536) (cs : List Char) :
    readHex4 (hex4 n ++ cs) = some (n, cs) := by
  have hd (m : Nat) : hexValue (m % 16).digitChar = some (m % 16) :=
    hexValue_digitChar <| Nat.mod_lt _ (by decide)
  simp only [hex4, List.cons_append, List.nil_append, readHex4, hd, Option.bind_eq_bind,
    Option.bind_some, Option.some.injEq, Prod.mk.injEq, and_true]
  omega

-- Characters beyond the basic multilingual plane are written as a pair of surrogates.
def unicodeEscape (c : Char) : List Char :=
  if c.toNat < 0x10000 then '\\' :: 'u' :: hex4 c.toNat
  else
    '\\' :: 'u' :: hex4 (0xd800 + (c.toNat - 0x10000) / 0x400) ++
      '\\' :: 'u' :: hex4 (0xdc00 + (c.toNat - 0x10000) % 0x400)

def readLowSurrogate (high : Nat) : List Char → Option (Char × List Char)
  | '\\' :: 'u' :: cs => do
    let (low, cs) ← readHex4 cs
    if 0xdc00 ≤ low ∧ low < 0xe000 then
      some (Char.ofNat (0x10000 + (high - 0xd800) * 0x400 + (low - 0xdc00)), cs)
    else none
  | _ => none

def readUnicode (cs : List Char) : Option (Char × List Char) := do
  let (code, cs) ← readHex4 cs
  if 0xd800 ≤ code ∧ code < 0xdc00 then readLowSurrogate code cs
  else if 0xdc00 ≤ code ∧ code < 0xe000 then none
  else some (Char.ofNat code, cs)

-- Reads one character of a string literal. Some readers let raw control characters pass.
def readChar (control : Bool) : List Char → Option (Char × List Char)
  | [] => none
  | '"' :: _          => none
  | '\\' :: 'u' :: cs => readUnicode cs
  | '\\' :: c :: cs => (unescape c).map (·, cs)
  | '\\' :: [] => none
  | c :: cs => if control || 0x20 ≤ c.toNat then some (c, cs) else none

theorem toNat_not_surrogate (c : Char) : c.toNat < 0xd800 ∨ 0xe000 ≤ c.toNat := by
  have h := c.valid
  simp only [UInt32.isValidChar, Nat.isValidChar] at h
  simp only [Char.toNat]
  omega

theorem toNat_lt (c : Char) : c.toNat < 0x110000 := by
  have h := c.valid
  simp only [UInt32.isValidChar, Nat.isValidChar] at h
  simp only [Char.toNat]
  omega

theorem readLowSurrogate_hex4 {k : Nat} (h : k < 0x100000) (cs : List Char) :
    readLowSurrogate (0xd800 + k / 0x400) ('\\' :: 'u' :: hex4 (0xdc00 + k % 0x400) ++ cs) =
      some (Char.ofNat (0x10000 + k), cs) := by
  have hl : 0xdc00 + k % 0x400 < 65536 := by omega
  simp only [List.cons_append, readLowSurrogate, readHex4_hex4 hl, Option.bind_eq_bind,
    Option.bind_some]
  have he : 0x10000 + (0xd800 + k / 0x400 - 0xd800) * 0x400 + (0xdc00 + k % 0x400 - 0xdc00) =
      0x10000 + k := by omega
  rw [if_pos (by omega), he]

theorem readChar_unicodeEscape (control : Bool) (c : Char) (cs : List Char) :
    readChar control (unicodeEscape c ++ cs) = some (c, cs) := by
  have hs := toNat_not_surrogate c
  have hm := toNat_lt c
  unfold unicodeEscape
  split
  case isTrue h =>
    simp only [List.cons_append, readChar, readUnicode, readHex4_hex4 h, Option.bind_eq_bind,
      Option.bind_some]
    rw [if_neg (by omega), if_neg (by omega), Char.ofNat_toNat]
  case isFalse h =>
    obtain ⟨k, hk⟩ := Nat.exists_eq_add_of_le (Nat.le_of_not_lt h)
    have hh : 0xd800 + k / 0x400 < 65536 := by omega
    rw [hk, Nat.add_sub_cancel_left, List.append_assoc]
    simp only [List.cons_append, readChar, readUnicode,
      readHex4_hex4 hh, Option.bind_eq_bind, Option.bind_some]
    rw [if_pos (by omega), ← List.cons_append, ← List.cons_append,
      readLowSurrogate_hex4 (by omega), ← hk, Char.ofNat_toNat]

-- How a printer writes the characters of a string literal (`short` as a backslash and one letter,
-- `long` by code unit, all others raw) and how many spaces it puts after `,` and `:`.
structure Style where
  short : Char → Option Char
  long : Char → Bool
  gap : Nat
  short_read {c d} : short c = some d → unescape d = some c
  raw_read {c} : short c = none → long c = false → c ≠ '"' ∧ c ≠ '\\' ∧ 0x20 ≤ c.toNat

namespace Style

def escape (st : Style) (c : Char) : List Char :=
  match st.short c with
  | some d => ['\\', d]
  | none => if st.long c then unicodeEscape c else [c]

variable (st : Style)

theorem readChar_escape (control : Bool) (c : Char) (cs : List Char) :
    readChar control (st.escape c ++ cs) = some (c, cs) := by
  unfold escape
  split
  case _ d hd =>
    have hu : d ≠ 'u' := by rintro rfl; simpa [unescape] using st.short_read hd
    simp [readChar, st.short_read hd]
  case _ hn =>
    cases hl : st.long c
    case true => simp only [if_true]; exact readChar_unicodeEscape control c cs
    case false =>
      have ⟨h₁, h₂, h₃⟩ := st.raw_read hn hl
      rw [if_neg (by simp), List.singleton_append, readChar.eq_def]
      split <;> simp_all

theorem escape_ne_quote (c : Char) (cs ds : List Char) : st.escape c ++ cs ≠ '"' :: ds := by
  intro h
  have := st.readChar_escape true c cs
  simp [h, readChar] at this

theorem escape_ne_nil (c : Char) : st.escape c ≠ [] := by
  intro h
  have := st.readChar_escape true c []
  simp [h, readChar] at this

end Style

end Json
