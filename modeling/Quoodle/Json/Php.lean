import Quoodle.Data.Binary64
import Quoodle.Json.Order
import Quoodle.Json.Style

-- PHP values and the functions `json_encode` and `json_decode` on them.
namespace Php

open Json (keys values onValues assignAll)
open Json (Distinct Scalar Style intText isNumberChar print)

variable {ν α β : Type}

-- An array is an ordered hash table. A key is an integer or a string, but a string that is the
-- decimal notation of an integer is turned into that integer, so that a key is determined by its
-- text. Of the objects only those without properties are considered.
inductive Value (ν : Type) where
  | scalar (a : Scalar ν)
  | array (ms : List (String × Value ν))
  | object

namespace Value

mutual

def fold (scalar : Scalar ν → α) (array : List (String × α) → α) (object : α) : Value ν → α
  | .scalar a => scalar a
  | .array ms => array (foldMembers scalar array object ms)
  | .object => object

def foldMembers (scalar : Scalar ν → α) (array : List (String × α) → α) (object : α) :
    List (String × Value ν) → List (String × α)
  | [] => []
  | (k, v) :: ms => (k, fold scalar array object v) :: foldMembers scalar array object ms

end

section Fold

variable (scalar : Scalar ν → α) (array : List (String × α) → α) (object : α)

@[simp]
theorem fold_scalar (a : Scalar ν) : fold scalar array object (.scalar a) = scalar a := by
  simp [fold]

@[simp]
theorem fold_array (ms : List (String × Value ν)) :
    fold scalar array object (.array ms) = array (onValues (fold scalar array object) ms) := by
  have h : foldMembers scalar array object ms = onValues (fold scalar array object) ms := by
    induction ms <;> simp_all [foldMembers]
  simp [fold, h]

@[simp]
theorem fold_object : fold scalar array object .object = object := by
  simp [fold]

end Fold

@[elab_as_elim, induction_eliminator]
theorem induction {motive : Value ν → Prop} (scalar : ∀ a, motive (.scalar a))
    (array : ∀ ms, (∀ m ∈ ms, motive m.2) → motive (.array ms)) (object : motive .object)
    (v : Value ν) : motive v := by
  refine @Value.rec ν motive (fun ms => ∀ m ∈ ms, motive m.2) (fun m => motive m.2)
    scalar array object ?_ ?_ ?_ v
  · simp
  · intro m ms hm hms
    simp only [List.mem_cons, forall_eq_or_imp]
    exact ⟨hm, hms⟩
  · intro _ _ h
    exact h

-- No array has the same key twice.
def Distinct : Value ν → Prop :=
  fold (fun _ => True) (fun ms => (keys ms).Nodup ∧ ∀ m ∈ ms, m.2) True

@[simp]
theorem distinct_scalar (a : Scalar ν) : Distinct (scalar a) := by
  simp [Distinct]

@[simp]
theorem distinct_array {ms : List (String × Value ν)} :
    Distinct (array ms) ↔ (keys ms).Nodup ∧ ∀ m ∈ ms, Distinct m.2 := by
  simp only [Distinct, fold_array, Json.keys_onValues, Json.forall_mem_onValues]

-- The number of arrays and objects nested in each other.
def depth : Value ν → Nat :=
  fold (fun _ => 0) (fun ms => (values ms).foldr max 0 + 1) 1

@[simp]
theorem depth_scalar (a : Scalar ν) : depth (scalar a) = 0 := by
  simp [depth]

@[simp]
theorem depth_array (ms : List (String × Value ν)) :
    depth (array ms) = ((values ms).map depth).foldr max 0 + 1 := by
  simp [depth]

end Value

def indexKeys (n : Nat) : List String :=
  (List.range n).map toString

def IsIndex (ks : List String) : Prop :=
  ks = indexKeys ks.length

instance : DecidablePred IsIndex :=
  fun ks => inferInstanceAs (Decidable (ks = _))

def arrayIsList (ms : List (String × α)) : Prop :=
  IsIndex (keys ms)

instance : DecidablePred (@arrayIsList α) :=
  fun ms => inferInstanceAs (Decidable (IsIndex (keys ms)))

def list (vs : List α) : List (String × α) :=
  (indexKeys vs.length).zip vs

section Arrays

theorem nodup_indexKeys (n : Nat) : (indexKeys n).Nodup := by
  refine List.nodup_range.map fun i j h => ?_
  have hd (k : Nat) : Nat.ofDigitChars 10 (toString k).toList 0 = k := by
    rw [Nat.toString_eq_ofList_toDigits, String.toList_ofList, Nat.ofDigitChars_ten_toDigits]
  rw [← hd i, h, hd j]

theorem keys_list (vs : List α) : keys (list vs) = indexKeys vs.length := by
  simp [keys, list, indexKeys, List.map_fst_zip]

theorem values_list (vs : List α) : values (list vs) = vs := by
  simp [values, list, indexKeys, List.map_snd_zip]

theorem arrayIsList_list (vs : List α) : arrayIsList (list vs) := by
  rw [arrayIsList, keys_list, IsIndex]
  simp [indexKeys]

theorem arrayIsList_onValues {f : α → β} {ms : List (String × α)} :
    arrayIsList (onValues f ms) ↔ arrayIsList ms := by
  rw [arrayIsList, arrayIsList, Json.keys_onValues]

end Arrays

-- What `json_encode` writes for a value, apart from the text: an array is written as a list if its
-- keys are `0`, `1`, ... in this order.
def toJson : Value ν → Json ν :=
  Value.fold .leaf (fun ms => if arrayIsList ms then .arr (values ms) else .obj ms) (.obj [])

def ofJson : Json ν → Value ν :=
  Json.fold .scalar (fun vs => .array (list vs)) (fun ms => .array (assignAll ms))

section Convert

@[simp]
theorem toJson_scalar (a : Scalar ν) : toJson (.scalar a) = .leaf a := by
  simp [toJson]

@[simp]
theorem toJson_object : toJson (.object : Value ν) = .obj [] := by
  simp [toJson]

theorem toJson_array_of_list {ms : List (String × Value ν)} (h : arrayIsList ms) :
    toJson (.array ms) = .arr ((values ms).map toJson) := by
  have h' := arrayIsList_onValues (f := toJson) |>.mpr h
  simp only [toJson, Value.fold_array] at h' ⊢
  rw [if_pos h', Json.values_onValues]

theorem toJson_array_of_not_list {ms : List (String × Value ν)} (h : ¬arrayIsList ms) :
    toJson (.array ms) = .obj (onValues toJson ms) := by
  have h' := mt (arrayIsList_onValues (f := toJson)).mp h
  simp only [toJson, Value.fold_array] at h' ⊢
  rw [if_neg h']

@[simp]
theorem ofJson_leaf (a : Scalar ν) : ofJson (.leaf a) = .scalar a := by
  simp [ofJson]

@[simp]
theorem ofJson_arr (vs : List (Json ν)) : ofJson (.arr vs) = .array (list (vs.map ofJson)) := by
  simp [ofJson]

theorem ofJson_obj {ms : List (String × Json ν)} (h : (keys ms).Nodup) :
    ofJson (.obj ms) = .array (onValues ofJson ms) := by
  simp only [ofJson, Json.fold_obj]
  rw [Json.assignAll_of_nodup (by simpa using h)]

theorem distinct_ofJson {v : Json ν} (h : v.Distinct) : (ofJson v).Distinct := by
  induction v
  case leaf => simp [Value.Distinct]
  case arr vs hi =>
    rw [Distinct.arr_iff] at h
    rw [ofJson_arr, Value.distinct_array, keys_list]
    refine ⟨nodup_indexKeys _, fun m hm => ?_⟩
    have hv : m.2 ∈ values (list (vs.map ofJson)) := List.mem_map_of_mem hm
    rw [values_list] at hv
    obtain ⟨v, hv, he⟩ := List.mem_map.mp hv
    exact he ▸ hi v hv (h v hv)
  case obj ms hi =>
    rw [Distinct.obj_iff] at h
    rw [ofJson_obj h.left, Value.distinct_array, Json.keys_onValues]
    exact ⟨h.left, Json.forall_mem_onValues.mpr fun m hm => hi m hm (h.right m hm)⟩

theorem depth_ofJson {v : Json ν} (h : v.Distinct) : (ofJson v).depth = v.depth := by
  induction v
  case leaf => simp [Json.depth]
  case arr vs hi =>
    rw [Distinct.arr_iff] at h
    simp only [ofJson_arr, Value.depth_array, values_list, List.map_map, Json.depth_arr]
    rw [List.map_congr_left (f := Value.depth ∘ ofJson) fun v hv => hi v hv (h v hv)]
  case obj ms hi =>
    rw [Distinct.obj_iff] at h
    rw [ofJson_obj h.left, Value.depth_array, Json.depth_obj]
    simp only [Json.values_onValues, List.map_map]
    rw [Json.map_values_congr (f := Value.depth ∘ ofJson) fun m hm => hi m hm (h.right m hm)]

end Convert

-- How numbers are written, and which of them can be written at all.
structure Numbers (ν : Type) extends Json.NumberFormat ν where
  finite : ν → Bool

def maxDepth : Nat :=
  512

-- Fails on infinite numbers and if arrays are nested too deeply.
def jsonEncode (st : Style) (nums : Numbers ν) (v : Value ν) : Option (List Char) :=
  if v.depth ≤ maxDepth ∧ (toJson v).Nums (nums.finite ·) then
    some (print st nums.toNumberFormat (toJson v))
  else none

inductive Number where
  | int (n : Int)
  | float (x : Int)
  | inf (neg : Bool)

namespace Number

-- An integer literal that does not fit into 64 bits becomes a float.
def ofInt (n : Int) : Number :=
  if -2 ^ 63 ≤ n ∧ n < 2 ^ 63 then int n
  else
    let x := Binary64.round n
    if x.natAbs < Binary64.limit then float x else inf (n < 0)

-- Floats of this size are written with an exponent.
def floatText (n : Nat) : List Char :=
  let (m, j) := Binary64.shortest n
  let ds := Nat.toDigits 10 m
  ds.take 1 ++ '.' :: (if ds.length = 1 then ['0'] else ds.drop 1) ++
    'e' :: '+' :: Nat.toDigits 10 (j + ds.length - 1)

-- The encoder writes a zero for an infinite number before it reports the error.
def text : Number → List Char
  | int n => intText n
  | float x => if x < 0 then '-' :: floatText x.natAbs else floatText x.natAbs
  | inf _ => ['0']

theorem floatText_eq_cons (n : Nat) :
    ∃ c cs, floatText n = c :: cs ∧ c.isDigit = true ∧ (∀ d ∈ cs, isNumberChar d) ∧ 'e' ∈ cs := by
  unfold floatText
  obtain ⟨m, j⟩ := Binary64.shortest n
  have hm := (Json.isDigits_toDigits m).right.left
  have he := (Json.isDigits_toDigits (j + (Nat.toDigits 10 m).length - 1)).right.left
  have hn : ∀ c : Char, c.isDigit = true → isNumberChar c := by simp_all [isNumberChar]
  obtain ⟨c, cs, hc⟩ := List.exists_cons_of_ne_nil (Json.isDigits_toDigits m).left
  simp only [hc, List.mem_cons, forall_eq_or_imp] at hm he ⊢
  simp only [List.take_succ_cons, List.take_zero, List.cons_append, List.nil_append]
  refine ⟨c, _, rfl, hm.left, fun d hd => ?_, by simp⟩
  simp only [List.mem_append, List.mem_cons] at hd
  rcases hd with rfl | h | rfl | rfl | h
  · rfl
  · split at h
    · cases List.mem_singleton.mp h
      rfl
    · exact hn d (hm.right d h)
  · rfl
  · rfl
  · exact hn d (he d h)

theorem isNumber_text (x : Number) : Json.IsNumber x.text := by
  cases x
  case int n => exact Json.isNumber_intText n
  case inf => exact ⟨rfl, by simp⟩
  case float x =>
    have ⟨c, cs, hc, hd, hn, _⟩ := floatText_eq_cons x.natAbs
    rw [text, hc]
    split
    · refine ⟨rfl, fun d hm => ?_⟩
      cases List.mem_cons.mp hm
      case inl h => simp [isNumberChar, h, hd]
      case inr h => exact hn d h
    · exact ⟨by simp [hd], hn⟩

-- A float is never written like an integer.
theorem text_float_ne_intText (x n : Int) : (float x).text ≠ intText n := by
  intro h
  have ⟨c, cs, hc, _, _, he⟩ := floatText_eq_cons x.natAbs
  have hm : 'e' ∈ intText n := by
    rw [← h, text, hc]
    split <;> simp [he]
  have hd := (Json.isDigits_toDigits n.natAbs).right.left 'e'
  unfold intText at hm
  split at hm <;> simp_all

end Number

namespace Numbers

def floats : Numbers Number where
  text := Number.text
  isNumber := Number.isNumber_text
  finite := fun | .inf _ => false | _ => true

theorem floats_ofInt_iff (n : Int) :
    (floats.finite (.ofInt n) = true ∧ floats.text (.ofInt n) = intText n) ↔
      -2 ^ 63 ≤ n ∧ n < 2 ^ 63 := by
  unfold Number.ofInt
  by_cases h : -2 ^ 63 ≤ n ∧ n < 2 ^ 63
  case pos =>
    rw [if_pos h]
    exact iff_of_true ⟨rfl, rfl⟩ h
  case neg =>
    rw [if_neg h]
    refine iff_of_false (fun ⟨hf, ht⟩ => ?_) h
    dsimp only at hf ht
    split at hf
    case isTrue hl => exact Number.text_float_ne_intText _ _ (if_pos hl ▸ ht)
    case isFalse => exact Bool.false_ne_true hf

end Numbers

structure Integer where
  val : Int
  lower : -2 ^ 63 ≤ val
  upper : val < 2 ^ 63

def Numbers.integers : Numbers Integer where
  text n := intText n.val
  isNumber n := Json.isNumber_intText n.val
  finite _ := true

-- `JSON_UNESCAPED_SLASHES` and `JSON_UNESCAPED_UNICODE`. Two line separators are escaped anyway.
def unescaped : Style :=
  .standard false (fun c => c == '\u2028' || c == '\u2029') 0

def escaped : Style :=
  .standard true (fun c => 0x80 ≤ c.toNat) 0

def NoLineSeparator (s : String) : Prop :=
  ∀ c ∈ s.toList, c ≠ '\u2028' ∧ c ≠ '\u2029'

instance : DecidablePred NoLineSeparator :=
  fun s => List.decidableBAll (fun c => c ≠ '\u2028' ∧ c ≠ '\u2029') s.toList

theorem minimal_agree_unescaped_iff (s : String) :
    Style.minimal.Agree unescaped s ↔ NoLineSeparator s := by
  refine forall₂_congr fun c _ => ?_
  constructor
  case mp =>
    intro h
    refine ⟨?_, ?_⟩ <;> rintro rfl <;> revert h <;> decide
  case mpr =>
    intro h
    exact (Style.standard_escape_of_not_wide 0 (by simp [h])).symm

def jsonDecode (raw : List Char) : Option (Value Number) := do
  let v ← Json.Dialect.rfc.read raw
  let v ← v.mapNum? fun t => (Json.readInt t).map .ofInt
  if v.depth ≤ maxDepth then some (ofJson v) else none

theorem jsonDecode_print (st : Style) (v : Json Int) :
    jsonDecode (print st .decimal v) =
      if v.depth ≤ maxDepth then some (ofJson (v.mapNum .ofInt)) else none := by
  have hm := Json.mapNum?_mapNum (f := fun t => (Json.readInt t).map Number.ofInt)
    (g := intText) (h := Number.ofInt) (fun n => by simp [Json.readInt_intText]) v
  simp only [jsonDecode, Json.Dialect.read_print, Json.NumberFormat.decimal, hm,
    Option.bind_eq_bind, Option.bind_some, Json.depth_mapNum]

end Php
