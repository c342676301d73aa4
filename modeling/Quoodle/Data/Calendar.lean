import Mathlib

-- Dates and times in UTC, and formats that print and scan them.
namespace Calendar

structure DateTime where
  year : Int
  month : Int
  day : Int
  hour : Int
  minute : Int
  second : Int

inductive Field where
  | year | month | day | hour | minute | second

namespace Field

def get (d : DateTime) : Field → Int
  | year => d.year
  | month => d.month
  | day => d.day
  | hour => d.hour
  | minute => d.minute
  | second => d.second

def set (d : DateTime) (n : Int) : Field → DateTime
  | year => { d with year := n }
  | month => { d with month := n }
  | day => { d with day := n }
  | hour => { d with hour := n }
  | minute => { d with minute := n }
  | second => { d with second := n }

def width : Field → Nat
  | year => 4
  | month | day | hour | minute | second => 2

-- The numbers that may be scanned. A minute may have leap seconds.
def lower : Field → Int
  | month | day => 1
  | year | hour | minute | second => 0

def upper : Field → Int
  | year => 9999
  | month => 12
  | day => 31
  | hour => 23
  | minute => 59
  | second => 61

end Field

inductive Directive where
  | number (f : Field)
  | literal (c : Char)

namespace DateTime

-- Years are counted from March, in eras of 400 years, so that a leap day is the last day of a year.
-- The argument is in seconds since the beginning of 1970.
def ofSeconds (t : Int) : DateTime :=
  let days := t / 86400 + 719468
  let era := days / 146097
  let dayOfEra := days % 146097
  let yearOfEra := (dayOfEra - dayOfEra / 1460 + dayOfEra / 36524 - dayOfEra / 146096) / 365
  let dayOfYear := dayOfEra - (365 * yearOfEra + yearOfEra / 4 - yearOfEra / 100)
  let month := (5 * dayOfYear + 2) / 153
  { year := yearOfEra + 400 * era + if month < 10 then 0 else 1
    month := if month < 10 then month + 3 else month - 9
    day := dayOfYear - (153 * month + 2) / 5 + 1
    hour := t / 3600 % 24
    minute := t / 60 % 60
    second := t % 60 }

-- Days that are not in a month are counted from its beginning.
def toSeconds (d : DateTime) : Int :=
  let year := if d.month ≤ 2 then d.year - 1 else d.year
  let yearOfEra := year % 400
  let dayOfYear := (153 * ((d.month + 9) % 12) + 2) / 5 + d.day - 1
  let dayOfEra := 365 * yearOfEra + yearOfEra / 4 - yearOfEra / 100 + dayOfYear
  let days := 146097 * (year / 400) + dayOfEra - 719468
  86400 * days + 3600 * d.hour + 60 * d.minute + d.second

end DateTime

-- The common part of the formats of ISO 8601 without fractions of seconds.
def isoDateTime : List Directive := [
  .number .year, .literal '-', .number .month, .literal '-', .number .day, .literal 'T',
  .number .hour, .literal ':', .number .minute, .literal ':', .number .second
]

def printNumber (width : Nat) (n : Int) : List Char :=
  let digits := Nat.toDigits 10 n.natAbs
  (if n < 0 then ['-'] else []) ++ List.replicate (width - digits.length) '0' ++ digits

def print (fmt : List Directive) (d : DateTime) : List Char :=
  fmt.flatMap fun
    | .number f => printNumber f.width (f.get d)
    | .literal c => [c]

def digitValue (c : Char) : Int :=
  c.toNat - '0'.toNat

-- Reads further digits, as long as the number does not exceed the bound.
def scanDigits (upper : Int) : Nat → Int → List Char → Int × List Char
  | n + 1, v, c :: cs =>
    if v * 10 ≤ upper ∧ c.isDigit then scanDigits upper n (v * 10 + digitValue c) cs
    else (v, c :: cs)
  | _, v, cs => (v, cs)

def scanNumber (f : Field) (cs : List Char) : Option (Int × List Char) :=
  match cs.dropWhile (· = ' ') with
  | [] => none
  | c :: cs =>
    let (v, cs) := scanDigits f.upper (f.width - 1) (digitValue c) cs
    if c.isDigit ∧ f.lower ≤ v ∧ v ≤ f.upper then some (v, cs) else none

-- Models `strptime`, as far as the literals of a format are not blank.
def scan : List Directive → DateTime → List Char → Option (DateTime × List Char)
  | [], d, cs => some (d, cs)
  | .number f :: fmt, d, cs => do
    let (v, cs) ← scanNumber f cs
    scan fmt (f.set d v) cs
  | .literal c :: fmt, d, c' :: cs => if c' = c then scan fmt d cs else none
  | .literal _ :: _, _, [] => none

variable {fmt : List Directive} {c : Char}

theorem isDigit_of_mem_printNumber {width : Nat} {n : Int}
    (h : c ∈ printNumber width n) : c.isDigit ∨ c = '-' := by
  simp only [printNumber, List.mem_append] at h
  obtain (h | h) | h := h
  · split at h <;> simp_all
  · rw [List.eq_of_mem_replicate h]
    exact .inl rfl
  · exact .inl (Nat.isDigit_of_mem_toDigits (b := 10) (by decide) (by decide) h)

theorem mem_print {d : DateTime} (h : c ∈ print fmt d) :
    c.isDigit ∨ c = '-' ∨ .literal c ∈ fmt := by
  obtain ⟨x, hx, hc⟩ := List.mem_flatMap.mp h
  cases x
  case number f => exact (isDigit_of_mem_printNumber hc).imp_right .inl
  case literal c' =>
    cases List.mem_singleton.mp hc
    exact .inr (.inr hx)

theorem scanDigits_suffix (upper : Int) (n : Nat) (v : Int) (cs : List Char) :
    (scanDigits upper n v cs).2 <:+ cs := by
  fun_induction scanDigits upper n v cs
  case case1 c cs _ hi => exact hi.trans (List.suffix_cons c cs)
  case case2 | case3 => exact List.suffix_rfl

theorem scanNumber_suffix {f : Field} {cs cs' : List Char} {v : Int}
    (h : scanNumber f cs = some (v, cs')) : cs' <:+ cs := by
  unfold scanNumber at h
  split at h
  case h_1 => cases h
  case h_2 c rest hd =>
    obtain ⟨_, he⟩ := Option.ite_none_right_eq_some.mp h
    cases he
    have hc : c :: rest <:+ cs := hd ▸ List.dropWhile_suffix _
    exact ((scanDigits_suffix ..).trans (List.suffix_cons c rest)).trans hc

theorem mem_of_scan {d : DateTime} {cs : List Char}
    {r : DateTime × List Char} (h : scan fmt d cs = some r) (hc : .literal c ∈ fmt) : c ∈ cs := by
  induction fmt generalizing d cs
  case nil => cases hc
  case cons x fmt hi =>
    cases x
    case number f =>
      obtain ⟨⟨v, rest⟩, hv, h⟩ := Option.bind_eq_some_iff.mp h
      have hc : .literal c ∈ fmt := by simpa using hc
      exact (scanNumber_suffix hv).subset (hi h hc)
    case literal c' =>
      cases cs
      case nil => cases h
      case cons x cs =>
        obtain ⟨hx, hs⟩ := Option.ite_none_right_eq_some.mp h
        obtain hc | hc := List.mem_cons.mp hc
        · cases hc
          exact hx ▸ List.mem_cons_self
        · exact List.mem_cons_of_mem x (hi hs hc)

end Calendar
