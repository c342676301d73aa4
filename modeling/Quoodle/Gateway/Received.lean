import Quoodle.Gateway.Messages
import Quoodle.Json.Nlohmann

-- What the agents find in the messages of the gateway.
namespace Gateway

open Json.Nlohmann (ofJson member distinct_of_member member_ofJson member_mapNum)

variable {f : Number → Json.Nlohmann.Number} {d v : Value} {k : String}

def received (f : Number → Json.Nlohmann.Number) (v : Value) : Json Json.Nlohmann.Number :=
  ofJson (v.json.mapNum f)

theorem member_json (d : Value) (k : String) : member d.json k = (d.getItem k).map Value.json := by
  ext1 w
  simp only [Option.map_eq_some_iff, Value.getItem_eq_some_iff]
  constructor
  · intro h
    refine ⟨⟨w, distinct_of_member d.distinct h⟩, ?_, rfl⟩
    unfold member at h
    split at h
    case h_1 ms hd => exact ⟨ms, hd, h⟩
    case h_2 => cases h
  · rintro ⟨v, ⟨ms, hd, hl⟩, rfl⟩
    rw [hd, member, hl]

theorem member_received (d : Value) (k : String) :
    member (received f d) k = (d.getItem k).map (received f) := by
  rw [received, member_ofJson d.distinct.mapNum, member_mapNum, member_json, Option.map_map,
    Option.map_map]
  rfl

theorem received_str (s : String) : received f (.str s) = .str s := by
  simp [received, Value.str, ofJson, Json.Scalar.mapNum]

theorem received_int (n : Int) : received f (.int n) = .num (f (.int n)) := by
  simp [received, Value.int, ofJson, Json.Scalar.mapNum]

theorem received_of_isDict (h : d.isDict) : ∃ ms, received f d = .obj ms := by
  obtain ⟨d, hd⟩ := d
  cases d
  case obj ms =>
    simp only [received, Json.mapNum_obj, ofJson, Json.fold_obj, Json.obj.injEq]
    exact ⟨_, rfl⟩
  all_goals cases h

end Gateway
