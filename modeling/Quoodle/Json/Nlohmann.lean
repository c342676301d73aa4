import Quoodle.Json.Order
import Quoodle.Json.Style

-- Values of the C++ library `nlohmann::json`. Objects are kept in a `std::map`, whose keys are
-- compared byte by byte.
namespace Json.Nlohmann

variable {ν : Type} {v : Json ν} {fmt : NumberFormat ν}

-- A value as the library stores it.
def ofJson : Json ν → Json ν :=
  fold leaf arr fun ms => obj (mapOf byteLt ms)

def dump (fmt : NumberFormat ν) (v : Json ν) : List UInt8 :=
  utf8 (print .minimal fmt v)

-- Integers are held in 64 bits, signed if they are negative and unsigned otherwise.
structure Integer where
  val : Int
  lower : -2 ^ 63 ≤ val
  upper : val < 2 ^ 64

def Integer.format : NumberFormat Integer where
  text n := intText n.val
  isNumber n := isNumber_intText n.val

theorem ofJson_eq_normalize (h : Distinct v) : ofJson v = normalize v := by
  induction v
  case leaf => simp [ofJson]
  case arr vs hi =>
    rw [Distinct.arr_iff] at h
    simp only [ofJson, fold_arr, normalize_arr] at hi ⊢
    rw [List.map_congr_left fun v hv => hi v hv (h v hv)]
  case obj ms hi =>
    rw [Distinct.obj_iff] at h
    simp only [ofJson, fold_obj, normalize_obj] at hi ⊢
    rw [onValues_congr fun m hm => hi m hm (h.right m hm),
      mapOf_eq_sortKeys byteLt_iff (by simpa using h.left)]

-- The keys of every object are in the order of the map.
def Stored : Json ν → Prop :=
  Objects (List.Pairwise byteLt)

instance : DecidablePred (@Stored ν) :=
  inferInstanceAs (DecidablePred (Objects _))

theorem stored_ofJson (v : Json ν) : Stored (ofJson v) := by
  induction v
  case leaf => simp [ofJson, Stored]
  case arr vs hi =>
    simp only [ofJson, fold_arr] at hi ⊢
    exact Objects.arr_iff.mpr (List.forall_mem_map.mpr hi)
  case obj ms hi =>
    simp only [ofJson, fold_obj] at hi ⊢
    refine Objects.obj_iff.mpr ⟨?_, fun m hm => ?_⟩
    case refine_1 => exact (mapOf_sorted byteLt_iff _).imp fun {k l} h => (byteLt_iff k l).mpr h
    case refine_2 =>
      obtain ⟨n, hn, rfl⟩ := List.mem_map.mp (mem_of_mem_mapOf hm)
      exact hi n hn

theorem Stored.distinct (h : Stored v) : Distinct v :=
  Everywhere.imp (fun _ => id)
    (fun _ hk => hk.imp fun {k l} hl => ((byteLt_iff k l).mp hl).ne) h

theorem Stored.normalize_eq (h : Stored v) : normalize v = v := by
  induction v
  case leaf => simp
  case arr vs hi => simpa using List.map_congr_left fun v hv => hi v hv (Objects.arr_iff.mp h v hv)
  case obj ms hi =>
    have ⟨hk, hv⟩ := Objects.obj_iff.mp h
    rw [normalize_obj, onValues_eq_self fun m hm => hi m hm (hv m hm),
      sortKeys_of_sorted (hk.imp fun {k l} hl => ((byteLt_iff k l).mp hl).le)]

theorem Stored.ofJson_eq (h : Stored v) : ofJson v = v := by
  rw [ofJson_eq_normalize h.distinct, h.normalize_eq]

theorem insertBy_of_mem {α : Type} {k : String} (v : α) {ms : List (String × α)}
    (hs : (keys ms).Pairwise byteLt) (hk : k ∈ keys ms) :
    insertBy byteLt k v ms = ms.map fun m => if m.1 = k then (k, v) else m := by
  induction ms
  case nil => contradiction
  case cons m ms hi =>
    simp only [keys_cons, List.pairwise_cons, byteLt_iff] at hs
    unfold insertBy
    cases List.mem_cons.mp hk
    case inl he =>
      have hr : (ms.map fun n => if n.1 = k then (k, v) else n) = ms := by
        refine (List.map_congr_left fun n hn => if_neg ?_).trans (List.map_id _)
        exact he ▸ (hs.left n.1 (List.mem_map_of_mem hn)).ne'
      have hl : ¬byteLt k m.1 := by rw [byteLt_iff, he]; exact lt_irrefl _
      have hl' : ¬byteLt m.1 k := by rw [byteLt_iff, he]; exact lt_irrefl _
      rw [if_neg hl, if_neg hl', List.map_cons, hr, if_pos he.symm]
    case inr hm =>
      have hl := hs.left k hm
      rw [if_neg (byteLt_iff k m.1 |>.not.mpr hl.le.not_gt), if_pos ((byteLt_iff m.1 k).mpr hl),
        hi hs.right hm, List.map_cons, if_neg hl.ne]

def readInteger (t : List Char) : Option Integer := do
  let n ← readInt t
  if h : -2 ^ 63 ≤ n ∧ n < 2 ^ 64 then some ⟨n, h.left, h.right⟩ else none

theorem readInteger_intText (n : Integer) : readInteger (intText n.val) = some n := by
  simp only [readInteger, readInt_intText, Option.bind_eq_bind, Option.bind_some]
  rw [dif_pos ⟨n.lower, n.upper⟩]

-- A double is represented by the text that is dumped for it, so that only texts written by the
-- library itself are read back faithfully.
structure FloatText where
  text : List Char
  isNumber : IsNumber text
  notInteger : readInteger text = none

inductive Number where
  | integer (n : Integer)
  | float (t : FloatText)

namespace Number

def text : Number → List Char
  | integer n => intText n.val
  | float t => t.text

def format : NumberFormat Number where
  text := text
  isNumber
    | integer n => isNumber_intText n.val
    | float t => t.isNumber

def isFloat : Number → Bool
  | integer _ => false
  | float _ => true

def toInt : Number → Int
  | integer n => n.val
  | float _ => 0

def read (t : List Char) : Option Number :=
  match hn : readInteger t with
  | some n => some (integer n)
  | none => if hi : IsNumber t then some (float ⟨t, hi, hn⟩) else none

theorem read_text (x : Number) : read x.text = some x := by
  cases x
  case integer n =>
    rw [read]
    split
    case h_1 m hm => rw [text, readInteger_intText, Option.some.injEq] at hm; rw [hm]
    case h_2 hm => simp [text, readInteger_intText] at hm
  case float t =>
    rw [read]
    split
    case h_1 m hm => simp [text, t.notInteger] at hm
    case h_2 => exact dif_pos t.isNumber

end Number

def parseWith (read : List Char → Option Number) (text : List Char) : Option (Json Number) := do
  let v ← Dialect.rfc.read text
  let v ← v.mapNum? read
  some (ofJson v)

def parse (text : List Char) : Option (Json Number) :=
  parseWith Number.read text

theorem parseWith_print {read : List Char → Option Number} {f : ν → Number}
    (h : Nums (fun n => read (fmt.text n) = some (f n)) v) :
    parseWith read (print .minimal fmt v) = some (ofJson (v.mapNum f)) := by
  simp only [parseWith, Dialect.read_print, Option.bind_eq_bind, Option.bind_some]
  rw [mapNum?_mapNum_of_nums h, Option.bind_some]

theorem parse_print {v : Json Number} (h : Stored v) :
    parse (print .minimal Number.format v) = some v := by
  rw [parse, parseWith_print (f := id) (.of_forall Number.read_text v), mapNum_id, h.ofJson_eq]

theorem parseWith_print_eq_some {read : List Char → Option Number}
    {w : Json Number} (h : parseWith read (print .minimal fmt v) = some w) :
    ∃ f : ν → Number, w = ofJson (v.mapNum f) := by
  let g (t : List Char) := (read t).getD (.integer ⟨0, by decide, by decide⟩)
  simp only [parseWith, Dialect.read_print, Option.bind_eq_bind, Option.bind_some,
    Option.bind_eq_some_iff] at h
  obtain ⟨u, hu, he⟩ := h
  have hg (t : List Char) (n : Number) (hn : read t = some n) : n = g t := by simp [g, hn]
  refine ⟨g ∘ fmt.text, ?_⟩
  rw [← Option.some.inj he, eq_mapNum_of_mapNum? hg hu, mapNum_mapNum]

-- The member of an object that `contains` finds.
def member (v : Json ν) (k : String) : Option (Json ν) :=
  match v with
  | .obj ms => ms.lookup k
  | _ => none

section Member

variable {v : Json ν} {k : String}

theorem lookup_sortKeys {α : Type} {ms : List (String × α)} (h : (keys ms).Nodup) (k : String) :
    (sortKeys ms).lookup k = ms.lookup k := by
  have hs : (keys (sortKeys ms)).Nodup := (keys_sortKeys_perm ms).nodup_iff.mpr h
  ext1 v
  constructor
  · exact fun hv => lookup_eq_some_of_mem h (mem_sortKeys.mp (mem_of_lookup_eq_some hv))
  · exact fun hv => lookup_eq_some_of_mem hs (mem_sortKeys.mpr (mem_of_lookup_eq_some hv))

theorem member_mapNum {μ : Type} (f : ν → μ) : member (v.mapNum f) k = (member v k).map (mapNum f) := by
  cases v
  case obj ms => rw [mapNum_obj, member, lookup_onValues, member]
  all_goals simp [member]

theorem member_ofJson (h : Distinct v) : member (ofJson v) k = (member v k).map ofJson := by
  rw [ofJson_eq_normalize h]
  cases v
  case obj ms =>
    have hd := Distinct.obj_iff.mp h
    rw [normalize_obj, member, lookup_sortKeys (by simpa using hd.left), lookup_onValues, member]
    refine Option.map_congr fun w hw => (ofJson_eq_normalize ?_).symm
    exact hd.right _ (mem_of_lookup_eq_some hw)
  all_goals simp [member]

theorem distinct_of_member {w : Json ν} (h : Distinct v) (hw : member v k = some w) : Distinct w := by
  cases v
  case obj ms => exact (Distinct.obj_iff.mp h).right _ (mem_of_lookup_eq_some hw)
  all_goals cases hw

end Member

end Json.Nlohmann
