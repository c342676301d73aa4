import Quoodle.Gateway.Canonical

namespace Gateway

-- A `float` is represented by its `repr`, which is what `json.dumps` writes for it.
structure FloatRepr where
  text : List Char
  isNumber : Json.IsNumber text
  notInt : Json.readInt text = none
  deriving DecidableEq

inductive Number where
  | int (n : Int)
  | float (x : FloatRepr)
  deriving DecidableEq

namespace Number

def text : Number → List Char
  | int n => Json.intText n
  | float x => x.text

def format : Json.NumberFormat Number where
  text := text
  isNumber
    | int n => Json.isNumber_intText n
    | float x => x.isNumber

end Number

-- What the gateway reads from JSON texts and writes to them: `None`, booleans, numbers, strings, and
-- lists and dictionaries of such values. A dictionary has every key once.
@[ext]
structure Value where
  json : Json Number
  distinct : json.Distinct
  deriving DecidableEq

namespace Value

def none : Value :=
  ⟨.null, Json.Distinct.leaf⟩

def bool (b : Bool) : Value :=
  ⟨.bool b, Json.Distinct.leaf⟩

def int (n : Int) : Value :=
  ⟨.num (.int n), Json.Distinct.leaf⟩

def str (s : String) : Value :=
  ⟨.str s, Json.Distinct.leaf⟩

def optionalStr : Option String → Value
  | some s => str s
  | .none => none

def list (vs : List Value) : Value :=
  ⟨.arr (vs.map json), Json.Distinct.arr_iff.mpr <| List.forall_mem_map.mpr fun v _ => v.distinct⟩

theorem distinct_assign {k : String} {v : Json Number} {ms : List (String × Json Number)}
    (hv : v.Distinct) (h : (Json.obj ms).Distinct) : (Json.obj (Json.assign k v ms)).Distinct := by
  rw [Json.Distinct.obj_iff] at h ⊢
  refine ⟨Json.nodup_keys_assign h.left, fun m hm => ?_⟩
  cases Json.mem_of_mem_assign hm
  case inl he => exact he ▸ hv
  case inr hm => exact h.right m hm

theorem distinct_assignAll (ms : List (String × Value)) :
    (Json.obj (Json.assignAll (Json.onValues json ms))).Distinct := by
  rw [Json.Distinct.obj_iff]
  refine ⟨Json.nodup_keys_assignAll _, fun m hm => ?_⟩
  have ⟨n, _, he⟩ := List.mem_map.mp (Json.mem_of_mem_assignAll hm)
  exact he ▸ n.2.distinct

def dict (ms : List (String × Value)) : Value :=
  ⟨.obj (Json.assignAll (Json.onValues json ms)), distinct_assignAll ms⟩

-- Models `d[k] = x`, which fails if `d` is not a dictionary.
def setItem (d : Value) (k : String) (x : Value) : Option Value :=
  match d with
  | ⟨.obj ms, h⟩ => some ⟨.obj (Json.assign k x.json ms), distinct_assign x.distinct h⟩
  | _ => .none

-- Models `d[k]`, which fails if `d` is not a dictionary or has no such key.
def getItem (d : Value) (k : String) : Option Value :=
  match d with
  | ⟨.obj ms, h⟩ =>
    match hl : ms.lookup k with
    | some v => some ⟨v, (Json.Distinct.obj_iff.mp h).right _ (Json.mem_of_lookup_eq_some hl)⟩
    | .none => .none
  | _ => .none

def isDict : Value → Bool
  | ⟨.obj _, _⟩ => true
  | _ => false

-- Models `d.get(k, default)`, which fails if `d` is not a dictionary.
def get (d : Value) (k : String) (default : Value) : Option Value :=
  if d.isDict then some ((d.getItem k).getD default) else .none

-- Models `d.items()`, which fails if `d` is not a dictionary.
def items (d : Value) : Option (List (String × Value)) :=
  match d with
  | ⟨.obj ms, h⟩ =>
    some <| ms.attach.map fun m => (m.val.1, ⟨m.val.2, (Json.Distinct.obj_iff.mp h).right _ m.property⟩)
  | _ => .none

theorem getItem_eq_some_iff {d v : Value} {k : String} :
    d.getItem k = some v ↔ ∃ ms, d.json = .obj ms ∧ ms.lookup k = some v.json := by
  obtain ⟨d, hd⟩ := d
  cases d
  case obj ms =>
    simp only [getItem, Json.obj.injEq, exists_eq_left']
    split
    case h_1 w hw => simp [hw, Value.ext_iff]
    case h_2 hw => simp [hw]
  all_goals simp [getItem]

theorem getItem_dict {ms : List (String × Value)} (h : (Json.keys ms).Nodup) (k : String) :
    (dict ms).getItem k = ms.lookup k := by
  have ha : Json.assignAll (Json.onValues json ms) = Json.onValues json ms :=
    Json.assignAll_of_nodup (by simpa using h)
  ext1 v
  simp only [getItem_eq_some_iff, dict, ha, Json.obj.injEq, exists_eq_left', Json.lookup_onValues,
    Option.map_eq_some_iff]
  exact ⟨fun ⟨w, hw, he⟩ => Value.ext he ▸ hw, fun hv => ⟨v, hv, rfl⟩⟩

end Value

end Gateway
