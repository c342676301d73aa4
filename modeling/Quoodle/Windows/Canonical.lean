import Quoodle.Data.Calendar
import Quoodle.Json.Nlohmann
import Quoodle.Json.Spelling

-- How the agent for Windows writes canonical JSON. The kernel service has copies of `escape_json` and
-- `canonical_object`.
namespace Windows

open Json (intText)
open Json.Nlohmann

def escapeChar (c : Char) : List Char :=
  match c with
  | '"'    => ['\\', '"']
  | '\\' => ['\\', '\\']
  | '\x08' => ['\\', 'b']
  | '\x0c' => ['\\', 'f']
  | '\n' => ['\\', 'n']
  | '\r' => ['\\', 'r']
  | '\t' => ['\\', 't']
  | c => if c.toNat < 0x20 then '\\' :: 'u' :: (Json.hex4 c.toNat).map Char.toUpper else [c]

def escapeJson (input : List Char) : List Char :=
  input.flatMap escapeChar

-- The string literal that is put together around `escape_json`.
def quote (s : List Char) : List Char :=
  '"' :: escapeJson s ++ ['"']

def isoTimestamp (now : Int) : List Char :=
  Calendar.print (Calendar.isoDateTime ++ [.literal 'Z']) (.ofSeconds now)

def canonicalObject (orderedFields : List (String × List Char)) : List Char :=
  Json.rawObject orderedFields

-- Integers are converted to signed ones even if they are unsigned, as `is_number_integer` holds of
-- both. How doubles are written is left to `double`.
def canonicalScalar (double : FloatText → List Char) : Json.Scalar Number → List Char
  | .null => ['n', 'u', 'l', 'l']
  | .bool true => ['t', 'r', 'u', 'e']
  | .bool false => ['f', 'a', 'l', 's', 'e']
  | .num (.integer n) => intText (n.val.bmod (2 ^ 64))
  | .num (.float t) => double t
  | .str s => quote s.toList

def buildCanonicalValue (double : FloatText → List Char) : Json Number → List Char :=
  Json.fold (canonicalScalar double)
    (fun ts => '[' :: [','].intercalate ts ++ [']'])
    (fun ms => canonicalObject (Json.sortBy Json.byteLe ms))

-- Models `erase`, which knows about the members of the value itself only.
def eraseMember {ν : Type} (v : Json ν) (key : String) : Json ν :=
  match v with
  | .obj ms => .obj (ms.filter (·.1 ≠ key))
  | v => v

def dump (v : Json Number) : List Char :=
  Json.print .minimal Number.format v

section Value

variable (double : FloatText → List Char)

theorem buildCanonicalValue_leaf (a : Json.Scalar Number) :
    buildCanonicalValue double (.leaf a) = canonicalScalar double a := by
  simp [buildCanonicalValue]

theorem buildCanonicalValue_arr (vs : List (Json Number)) :
    buildCanonicalValue double (.arr vs) =
      '[' :: [','].intercalate (vs.map (buildCanonicalValue double)) ++ [']'] := by
  simp only [buildCanonicalValue, Json.fold_arr]

theorem buildCanonicalValue_obj {ms : List (String × Json Number)}
    (h : (Json.keys ms).Pairwise Json.byteLt) :
    buildCanonicalValue double (.obj ms) =
      canonicalObject (Json.onValues (buildCanonicalValue double) ms) := by
  have hs : (Json.keys (Json.onValues (buildCanonicalValue double) ms)).Pairwise (· ≤ ·) := by
    rw [Json.keys_onValues]
    exact h.imp fun {k l} hl => ((Json.byteLt_iff k l).mp hl).le
  simp only [buildCanonicalValue, Json.fold_obj] at hs ⊢
  rw [Json.sortBy_eq_sortKeys Json.byteLe_iff, Json.sortKeys_of_sorted hs]

end Value

section Escape

theorem hexValue_toUpper {n : Nat} (h : n < 16) : Json.hexValue n.digitChar.toUpper = some n := by
  interval_cases n <;> rfl

theorem readHex4_toUpper {n : Nat} (h : n < 65536) (cs : List Char) :
    Json.readHex4 ((Json.hex4 n).map Char.toUpper ++ cs) = some (n, cs) := by
  have hd (m : Nat) : Json.hexValue (m % 16).digitChar.toUpper = some (m % 16) :=
    hexValue_toUpper <| Nat.mod_lt _ (by decide)
  simp only [Json.hex4, List.map_cons, List.map_nil, List.cons_append, List.nil_append,
    Json.readHex4, hd, Option.bind_eq_bind, Option.bind_some, Option.some.injEq, Prod.mk.injEq,
    and_true]
  omega

theorem escapeChar_ne_quote (c : Char) (cs ds : List Char) : escapeChar c ++ cs ≠ '"' :: ds := by
  unfold escapeChar
  split
  case h_8 hq _ _ _ _ _ _ =>
    split
    case isTrue => simp
    case isFalse => exact fun h => hq (List.cons.inj h).left
  all_goals simp

theorem readChar_escapeChar (control : Bool) (c : Char) (cs : List Char) :
    Json.readChar control (escapeChar c ++ cs) = some (c, cs) := by
  unfold escapeChar
  split
  case h_8 hq hb _ _ _ _ _ =>
    split
    case isTrue h =>
      have hr := readHex4_toUpper (n := c.toNat) (by omega) cs
      simp only [List.cons_append, Json.readChar, Json.readUnicode, hr, Option.bind_eq_bind,
        Option.bind_some]
      rw [if_neg (by omega), if_neg (by omega), Char.ofNat_toNat]
    case isFalse h =>
      rw [List.singleton_append, Json.readChar.eq_def]
      split <;> simp_all
  all_goals rfl

def escaper (control : Bool) : Json.Escaper control where
  escape := escapeChar
  legible _ := true
  ne_quote := escapeChar_ne_quote
  read c cs := by simpa using readChar_escapeChar control c cs

-- The control characters that are written with a letter among the hexadecimal digits of their code.
def Lettered (c : Char) : Prop :=
  c.toNat = 0x0b ∨ c.toNat = 0x0e ∨ c.toNat = 0x0f ∨ 0x1a ≤ c.toNat ∧ c.toNat ≤ 0x1f

instance : DecidablePred Lettered :=
  fun c => inferInstanceAs
    (Decidable (c.toNat = 0x0b ∨ c.toNat = 0x0e ∨ c.toNat = 0x0f ∨ 0x1a ≤ c.toNat ∧ c.toNat ≤ 0x1f))

variable {b s t : List Char} {c : Char}

-- Other writers of JSON use small letters for them.
theorem escapeChar_eq_minimal_iff : escapeChar c = Json.Style.minimal.escape c ↔ ¬Lettered c := by
  by_cases hc : c.toNat < 0x20
  case pos =>
    rw [← Char.ofNat_toNat c]
    generalize c.toNat = n at hc
    interval_cases n <;> decide
  case neg =>
    have hl : ¬Lettered c := by unfold Lettered; omega
    have he : Json.Style.minimal.escape c = escapeChar c := by
      by_cases hp : c ≠ '"' ∧ c ≠ '\\'
      case pos =>
        rw [Json.minimal_escape_of_plain ⟨hp.left, hp.right, by omega⟩]
        unfold escapeChar
        split <;> simp_all
      case neg =>
        rw [not_and_or, not_not, not_not] at hp
        rcases hp with rfl | rfl <;> rfl
    simp [he, hl]

theorem escapeChar_of_plain (h : c ≠ '"' ∧ c ≠ '\\' ∧ 0x20 ≤ c.toNat) : escapeChar c = [c] := by
  rw [escapeChar_eq_minimal_iff.mpr, Json.minimal_escape_of_plain h]
  unfold Lettered
  omega

theorem two_le_length_escapeChar (h : ¬(c ≠ '"' ∧ c ≠ '\\' ∧ 0x20 ≤ c.toNat)) :
    2 ≤ (escapeChar c).length := by
  unfold escapeChar
  split
  case h_8 hq hb _ _ _ _ _ =>
    have hc : c.toNat < 0x20 := by
      by_contra hc
      exact h ⟨hq, hb, by omega⟩
    simp [hc]
  all_goals simp

theorem length_le_length_escapeJson (s : List Char) : s.length ≤ (escapeJson s).length := by
  induction s
  case nil => simp
  case cons c s hi =>
    have hc : 0 < (escapeChar c).length :=
      List.length_pos_of_ne_nil ((escaper true).escape_ne_nil c)
    simp only [escapeJson, List.flatMap_cons, List.length_cons, List.length_append] at hi ⊢
    omega

theorem escapeJson_eq_self_iff : escapeJson s = s ↔ Json.Plain s := by
  induction s
  case nil => simp [escapeJson, Json.Plain]
  case cons c s hi =>
    have hl := length_le_length_escapeJson s
    rw [Json.Plain.cons_iff, ← hi]
    by_cases hc : c ≠ '"' ∧ c ≠ '\\' ∧ 0x20 ≤ c.toNat
    case pos => simp [escapeJson, escapeChar_of_plain hc, hc]
    have hc' := two_le_length_escapeChar hc
    refine iff_of_false (fun h => ?_) (fun h => hc h.left)
    have he := congrArg List.length h
    simp only [escapeJson, List.flatMap_cons, List.length_cons, List.length_append] at hl he
    omega

theorem quote_of_plain (h : Json.Plain s) : quote s = '"' :: s ++ ['"'] := by
  rw [quote, escapeJson_eq_self_iff.mpr h]

theorem plain_isoTimestamp (now : Int) : Json.Plain (isoTimestamp now) := by
  intro c hc
  rcases Calendar.mem_print hc with hd | rfl | hl
  · rw [Char.isDigit_iff_toNat] at hd
    refine ⟨?_, ?_, ?_⟩
    · rintro rfl
      simp at hd
    · rintro rfl
      simp at hd
    · simp at hd
      omega
  · decide
  · simp [Calendar.isoDateTime] at hl
    rcases hl with rfl | rfl | rfl | rfl <;> decide

theorem eq_quote_of_mem_escapeChar (h : '"' ∈ escapeChar c) : c = '"' := by
  by_contra hc
  unfold escapeChar at h
  split at h
  case h_8 =>
    split at h
    case isTrue hl =>
      generalize c.toNat = n at h hl
      interval_cases n <;> exact absurd h (by decide)
    case isFalse => exact hc (List.mem_singleton.mp h).symm
  all_goals simp_all

theorem mem_of_mem_escapeJson (h : '"' ∈ escapeJson s) : '"' ∈ s := by
  obtain ⟨c, hc, hm⟩ := List.mem_flatMap.mp h
  exact eq_quote_of_mem_escapeChar hm ▸ hc

theorem eq_of_escapeChar_eq (h : escapeChar c = b ++ '"' :: t) : b = ['\\'] := by
  have hc : c = '"' := eq_quote_of_mem_escapeChar (by simp [h])
  subst hc
  have he : escapeChar '"' = ['\\', '"'] := rfl
  rw [he] at h
  cases b
  case nil => simp at h
  case cons d b =>
    cases b
    case nil => rw [(List.cons.inj h).left]
    case cons e b => simp at h

theorem exists_of_escapeJson_eq (h : escapeJson s = b ++ '"' :: t) : ∃ b', b = b' ++ ['\\'] := by
  induction s generalizing b
  case nil => simp [escapeJson] at h
  case cons c s hi =>
    change escapeChar c ++ escapeJson s = b ++ '"' :: t at h
    cases List.append_eq_append_iff.mp h
    case inl h =>
      obtain ⟨a, ha, hs⟩ := h
      have ⟨b', hb⟩ := hi hs
      exact ⟨escapeChar c ++ b', by rw [ha, hb, List.append_assoc]⟩
    case inr h =>
      obtain ⟨a, ha, hs⟩ := h
      cases a
      case nil =>
        have ⟨b', hb⟩ := hi (b := []) hs.symm
        simp at hb
      case cons d a =>
        rw [List.cons_append, List.cons.injEq] at hs
        obtain ⟨rfl, _⟩ := hs
        exact ⟨[], eq_of_escapeChar_eq ha⟩

theorem eq_nil_of_escapeJson_eq {y y' s s' a : List Char}
    (hy : y' ++ [':'] ++ ['"'] = y ++ a) (hs : escapeJson s = a ++ escapeJson s') : a = [] := by
  by_contra ha
  obtain ⟨b, d, rfl⟩ := (List.eq_nil_or_concat' a).resolve_left ha
  rw [← List.append_assoc] at hy
  have ⟨hb, hd⟩ := List.append_inj' hy rfl
  have hd : d = '"' := (List.cons.inj hd).left.symm
  rw [hd, List.append_assoc, List.singleton_append] at hs
  have ⟨b', hb'⟩ := exists_of_escapeJson_eq hs
  rw [hb', ← List.append_assoc] at hb
  exact absurd (List.append_inj' hb rfl).right (by decide)

theorem quote_cancel_right {x x' s s' t : List Char}
    (h : x ++ ':' :: quote s ++ t = x' ++ ':' :: quote s' ++ t) : s = s' ∧ x = x' := by
  have hq (y u : List Char) : y ++ ':' :: quote u = y ++ [':'] ++ ['"'] ++ escapeJson u ++ ['"'] := by
    simp [quote]
  have he := List.append_cancel_right h
  rw [hq, hq] at he
  have he := List.append_cancel_right he
  have hn (hs : escapeJson s = escapeJson s') : s = s' ∧ x = x' := by
    refine ⟨?_, ?_⟩
    case refine_1 =>
      have hr : quote s ++ [] = quote s' ++ [] := by rw [quote, quote, hs]
      have hl (c : Char) : (escaper true).legible c = true := rfl
      exact (Json.Escaper.quote_cancel hl hl hr).left
    case refine_2 =>
      rw [hs] at he
      simpa using he
  cases List.append_eq_append_iff.mp he
  case inl h =>
    obtain ⟨a, ha, hs⟩ := h
    obtain rfl := eq_nil_of_escapeJson_eq ha hs
    exact hn hs
  case inr h =>
    obtain ⟨a, ha, hs⟩ := h
    obtain rfl := eq_nil_of_escapeJson_eq ha hs
    exact hn hs.symm

end Escape

end Windows
