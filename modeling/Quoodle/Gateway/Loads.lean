import Quoodle.Gateway.Value
import Quoodle.Json.Spelling

-- What the gateway reads from the texts that it receives, and what it writes for it when it verifies a
-- signature.
namespace Gateway

open Json (rawObject onValues keys)

-- How literals with a fraction or an exponent are read is left to `readFloat`.
def Number.read (readFloat : List Char → Option FloatRepr) (t : List Char) : Option Number :=
  match Json.readInt t with
  | some n => some (.int n)
  | none => (readFloat t).map .float

-- A dictionary has the last of the values that are given for a key.
def dictOf : Json Number → Json Number :=
  Json.fold .leaf .arr fun ms => .obj (Json.assignAll ms)

section DictOf

@[simp]
theorem dictOf_leaf (a : Json.Scalar Number) : dictOf (.leaf a) = .leaf a := by
  simp [dictOf]

@[simp]
theorem dictOf_arr (vs : List (Json Number)) : dictOf (.arr vs) = .arr (vs.map dictOf) := by
  simp [dictOf]

@[simp]
theorem dictOf_obj (ms : List (String × Json Number)) :
    dictOf (.obj ms) = .obj (Json.assignAll (onValues dictOf ms)) := by
  simp [dictOf]

theorem distinct_dictOf (v : Json Number) : (dictOf v).Distinct := by
  induction v
  case leaf a => simp
  case arr vs hi => simpa using hi
  case obj ms hi =>
    rw [dictOf_obj, Json.Distinct.obj_iff]
    refine ⟨Json.nodup_keys_assignAll _, fun m hm => ?_⟩
    obtain ⟨n, hn, rfl⟩ := List.mem_map.mp (Json.mem_of_mem_assignAll hm)
    exact hi n hn

theorem dictOf_of_distinct {v : Json Number} (h : v.Distinct) : dictOf v = v := by
  induction v
  case leaf a => simp
  case arr vs hi =>
    rw [Json.Distinct.arr_iff] at h
    simpa using List.map_congr_left fun v hv => hi v hv (h v hv)
  case obj ms hi =>
    rw [Json.Distinct.obj_iff] at h
    rw [dictOf_obj, Json.onValues_eq_self fun m hm => hi m hm (h.right m hm),
      Json.assignAll_of_nodup h.left]

end DictOf

-- Models `json.loads`, except that it also reads `NaN` and infinities.
def Value.loads (readFloat : List Char → Option FloatRepr) (text : List Char) : Option Value := do
  let v ← Json.Dialect.rfc.read text
  let v ← v.mapNum? (Number.read readFloat)
  return ⟨dictOf v, distinct_dictOf v⟩

variable {readFloat : List Char → Option FloatRepr}

end Gateway
