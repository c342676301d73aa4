import Quoodle.Agent.Canonical
import Quoodle.Gateway.Loads
import Quoodle.Gateway.Received

-- What the gateway finds in the messages of the agents.
namespace Agent

open Json.Nlohmann
open Gateway (Value FloatRepr)

section Sent

variable {readFloat : List Char → Option FloatRepr} {g : Number → Gateway.Number} {w u : Json Number}
variable {k : String}

def sent (g : Number → Gateway.Number) (w : Json Number) : Value :=
  ⟨Gateway.dictOf ((ofJson w).mapNum g), Gateway.distinct_dictOf _⟩

def loadedNumber (readFloat : List Char → Option FloatRepr) (n : Number) : Gateway.Number :=
  (Gateway.Number.read readFloat n.text).getD (.int 0)

def Loads (readFloat : List Char → Option FloatRepr) (n : Number) : Prop :=
  (Gateway.Number.read readFloat n.text).isSome

theorem loads_print (h : (ofJson w).Nums (Loads readFloat)) :
    Value.loads readFloat (Json.print .minimal Number.format (ofJson w)) =
      some (sent (loadedNumber readFloat) w) := by
  have hn : (ofJson w).Nums fun n =>
      Gateway.Number.read readFloat (Number.format.text n) = some (loadedNumber readFloat n) := by
    refine h.imp fun n hn => ?_
    obtain ⟨m, hm⟩ := Option.isSome_iff_exists.mp hn
    have hl : loadedNumber readFloat n = m := by rw [loadedNumber, hm, Option.getD_some]
    rw [hl]
    exact hm
  simp only [Value.loads, Json.Dialect.read_print, Option.bind_eq_bind, Option.bind_some]
  rw [Json.mapNum?_mapNum_of_nums hn]
  rfl

theorem json_sent : (sent g w).json = (ofJson w).mapNum g :=
  Gateway.dictOf_of_distinct (stored_ofJson w).distinct.mapNum

theorem getItem_sent (h : w.Distinct) : (sent g w).getItem k = (member w k).map (sent g) := by
  have hm := Gateway.member_json (sent g w) k
  rw [json_sent, member_mapNum, member_ofJson h, Option.map_map] at hm
  have hj : ((member w k).map (sent g)).map Value.json = ((sent g w).getItem k).map Value.json := by
    rw [← hm, Option.map_map]
    exact congrArg (Option.map · _) (funext fun _ => json_sent)
  exact (Option.map_injective (fun _ _ => Value.ext) hj).symm

theorem sent_str (s : String) : sent g (.str s) = .str s :=
  Value.ext (by simp [json_sent, Value.str, ofJson, Json.Scalar.mapNum])

theorem sent_num (n : Number) : (sent g (.num n)).json = .num (g n) := by
  simp [json_sent, ofJson, Json.Scalar.mapNum]

theorem isDict_sent (ms : List (String × Json Number)) : (sent g (.obj ms)).isDict := by
  unfold sent
  simp only [ofJson, Json.fold_obj, Json.mapNum_obj, Gateway.dictOf_obj]
  rfl

theorem signedBytes_sent (h : (ofJson w).Nums fun n => (g n).text = n.text) :
    Gateway.signedBytes (sent g w) = canonicalizeWss Number.format (ofJson w) := by
  have hc : Gateway.canonicalizeJson Gateway.Number.format (Gateway.stripSig ((ofJson w).mapNum g)) =
      Gateway.canonicalizeJson Number.format (Gateway.stripSig (ofJson w)) :=
    canonicalizeJson_mapNum h
  rw [Gateway.signedBytes, json_sent, hc, canonicalizeWss_eq _ (stored_ofJson w).distinct]

end Sent

end Agent
