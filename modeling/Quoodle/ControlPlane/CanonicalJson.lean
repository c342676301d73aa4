import Quoodle.Json.Php

-- Models `Ed25519CanonicalJson`.
namespace ControlPlane

open Json (keys values onValues sortKeys byteLe)
open Php

variable {ν : Type}

def sortKeysRecursive : Value ν → Value ν :=
  Value.fold .scalar
    (fun ms =>
      if arrayIsList ms then .array (list (values ms))
      else .array <| Json.assignAll <|
        (keys ms).insertionSort byteLe |>.filterMap fun k => (ms.lookup k).map (k, ·))
    .object

def encode (nums : Numbers ν) (value : Value ν) : Option (List Char) :=
  jsonEncode unescaped nums (sortKeysRecursive value)

section SortKeys

variable {ms : List (String × Value ν)}

@[simp]
theorem sortKeysRecursive_scalar (a : Json.Scalar ν) :
    sortKeysRecursive (.scalar a) = .scalar a := by
  simp [sortKeysRecursive]

@[simp]
theorem sortKeysRecursive_object : sortKeysRecursive (.object : Value ν) = .object := by
  simp [sortKeysRecursive]

theorem sortKeysRecursive_of_list (h : arrayIsList ms) :
    sortKeysRecursive (.array ms) = .array (list ((values ms).map sortKeysRecursive)) := by
  have h' := arrayIsList_onValues (f := sortKeysRecursive) |>.mpr h
  simp only [sortKeysRecursive, Value.fold_array] at h' ⊢
  rw [if_pos h', Json.values_onValues]

theorem sortKeysRecursive_of_not_list (hn : (keys ms).Nodup) (h : ¬arrayIsList ms) :
    sortKeysRecursive (.array ms) = .array (sortKeys (onValues sortKeysRecursive ms)) := by
  have h' := mt (arrayIsList_onValues (f := sortKeysRecursive)).mp h
  have hk : (keys (onValues sortKeysRecursive ms)).Nodup := by simpa using hn
  simp only [sortKeysRecursive, Value.fold_array] at h' hk ⊢
  rw [if_neg h', Json.filterMap_lookup_eq_sortKeys hk,
    Json.assignAll_of_nodup ((Json.keys_sortKeys_perm _).nodup_iff.mpr hk)]

theorem depth_sortKeysRecursive {v : Value ν} (h : v.Distinct) :
    (sortKeysRecursive v).depth = v.depth := by
  induction v
  case scalar => simp
  case object => simp
  case array ms hi =>
    rw [Value.distinct_array] at h
    have hd : (values ms).map (Value.depth ∘ sortKeysRecursive) = (values ms).map Value.depth :=
      Json.map_values_congr fun m hm => hi m hm (h.right m hm)
    by_cases hl : arrayIsList ms
    case pos =>
      rw [sortKeysRecursive_of_list hl]
      simp only [Value.depth_array, values_list, List.map_map, hd]
    case neg =>
      have hp : (values (sortKeys (onValues sortKeysRecursive ms))).Perm _ :=
        (Json.sortKeys_perm _).map Prod.snd
      rw [sortKeysRecursive_of_not_list h.left hl, Value.depth_array, Value.depth_array,
        (hp.map Value.depth).foldr_eq, ← values, Json.values_onValues, List.map_map, hd]

end SortKeys

def canonical (v : Value ν) : Json ν :=
  toJson (sortKeysRecursive v)

section Canonical

variable {ms : List (String × Value ν)}

@[simp]
theorem canonical_scalar (a : Json.Scalar ν) : canonical (.scalar a) = .leaf a := by
  simp [canonical]

@[simp]
theorem canonical_object : canonical (.object : Value ν) = .obj [] := by
  simp [canonical]

theorem canonical_of_list (h : arrayIsList ms) :
    canonical (.array ms) = .arr ((values ms).map canonical) := by
  rw [canonical, sortKeysRecursive_of_list h, toJson_array_of_list (arrayIsList_list _),
    values_list, List.map_map]
  rfl

theorem canonical_of_sorted_list (hn : (keys ms).Nodup) (h : ¬arrayIsList ms)
    (hs : arrayIsList (sortKeys ms)) :
    canonical (.array ms) = .arr ((values (sortKeys ms)).map canonical) := by
  rw [canonical, sortKeysRecursive_of_not_list hn h, Json.sortKeys_onValues,
    toJson_array_of_list (arrayIsList_onValues.mpr hs), Json.values_onValues, List.map_map]
  rfl

theorem canonical_of_not_list (hn : (keys ms).Nodup) (h : ¬arrayIsList ms)
    (hs : ¬arrayIsList (sortKeys ms)) :
    canonical (.array ms) = .obj (sortKeys (onValues canonical ms)) := by
  rw [canonical, sortKeysRecursive_of_not_list hn h, Json.sortKeys_onValues,
    toJson_array_of_not_list (mt arrayIsList_onValues.mp hs), Json.onValues_onValues,
    ← Json.sortKeys_onValues]
  rfl

end Canonical
end ControlPlane
