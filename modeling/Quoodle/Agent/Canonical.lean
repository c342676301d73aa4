import Quoodle.Gateway.Canonical
import Quoodle.Json.Nlohmann

namespace Agent

open Json.Nlohmann
open Json (byteLt byteLe)
open Gateway (canonicalizeJson canonicalizeJson_eq stripSig stripSig_eq_erase)

variable {ν : Type} {v : Json ν} {fmt : Json.NumberFormat ν}

def stripSigRecursive : Json ν → Json ν :=
  Json.fold .leaf .arr fun ms => .obj (ms.filter (·.1 ≠ "sig"))

-- Collects and sorts the keys of each object, and copies the members over in that order.
def normalizeCanonical : Json ν → Json ν :=
  Json.fold .leaf .arr fun ms =>
    .obj <| Json.mapOf byteLt <|
      (Json.keys ms).insertionSort byteLe |>.filterMap fun k => (ms.lookup k).map (k, ·)

def canonicalizeWss (fmt : Json.NumberFormat ν) (payload : Json ν) : List UInt8 :=
  dump fmt (normalizeCanonical (stripSigRecursive payload))

theorem stripSigRecursive_eq_erase (v : Json ν) : stripSigRecursive v = v.erase "sig" :=
  rfl

theorem normalizeCanonical_eq_normalize (h : v.Distinct) : normalizeCanonical v = v.normalize := by
  induction v
  case leaf => simp [normalizeCanonical]
  case arr vs hi =>
    rw [Json.Distinct.arr_iff] at h
    simp only [normalizeCanonical, Json.fold_arr, Json.normalize_arr] at hi ⊢
    rw [List.map_congr_left fun v hv => hi v hv (h v hv)]
  case obj ms hi =>
    rw [Json.Distinct.obj_iff] at h
    simp only [normalizeCanonical, Json.fold_obj, Json.normalize_obj] at hi ⊢
    rw [Json.onValues_congr fun m hm => hi m hm (h.right m hm)]
    have hn : (Json.keys (Json.onValues Json.normalize ms)).Nodup := by simpa using h.left
    have hs := (Json.keys_sortKeys_perm (Json.onValues Json.normalize ms)).nodup_iff.mpr hn
    rw [Json.filterMap_lookup_eq_sortKeys hn, Json.mapOf_eq_sortKeys Json.byteLt_iff hs,
      Json.sortKeys_sortKeys]

theorem canonicalizeWss_eq (fmt : Json.NumberFormat ν) (h : v.Distinct) :
    canonicalizeWss fmt v = canonicalizeJson fmt (stripSig v) := by
  rw [canonicalizeWss, stripSigRecursive_eq_erase, normalizeCanonical_eq_normalize h.erase,
    canonicalizeJson_eq, stripSig_eq_erase, dump]

theorem canonicalizeJson_stripSig_normalize (fmt : Json.NumberFormat ν) (h : v.Distinct) :
    canonicalizeJson fmt (stripSig v.normalize) =
      canonicalizeJson fmt (stripSig v) := by
  simp only [canonicalizeJson_eq, stripSig_eq_erase, ← Json.normalize_erase h,
    Json.normalize_normalize]

theorem canonicalizeJson_mapNum {μ : Type} {fmt' : Json.NumberFormat μ}
    {f : ν → μ} (h : v.Nums fun n => fmt'.text (f n) = fmt.text n) :
    canonicalizeJson fmt' (stripSig (v.mapNum f)) =
      canonicalizeJson fmt (stripSig v) := by
  have hm : v.mapNum (fmt'.text ∘ f) = v.mapNum fmt.text := Json.mapNum_eq_mapNum_iff.mpr h
  simp only [canonicalizeJson_eq, stripSig_eq_erase]
  refine congrArg utf8 <| Json.print_congr _ ?_
  simp only [Json.mapNum_normalize, Json.mapNum_erase, Json.mapNum_mapNum, hm]

-- The agent canonicalizes a message that it has received to the bytes that the gateway signed,
-- provided that it writes the numbers in the message as the gateway does.
theorem canonicalizeWss_ofJson {μ : Type} {fmt' : Json.NumberFormat μ}
    {f : ν → μ} (hd : v.Distinct) (h : v.Nums fun n => fmt'.text (f n) = fmt.text n) :
    canonicalizeWss fmt' (ofJson (v.mapNum f)) =
      canonicalizeJson fmt (stripSig v) := by
  have hd' := hd.mapNum (f := f)
  rw [ofJson_eq_normalize hd', canonicalizeWss_eq _ hd'.normalize,
    canonicalizeJson_stripSig_normalize _ hd', canonicalizeJson_mapNum h]

theorem canonicalizeJson_eq_canonicalizeWss {v : Json Integer} (h : v.Distinct) :
    canonicalizeJson .decimal (stripSig (v.mapNum Integer.val)) =
      canonicalizeWss Integer.format (ofJson v) := by
  have hw : canonicalizeWss Integer.format (ofJson (v.mapNum id)) =
      canonicalizeJson Integer.format (stripSig v) :=
    canonicalizeWss_ofJson h (.of_forall (fun _ => rfl) v)
  rw [Json.mapNum_id] at hw
  rw [hw]
  exact canonicalizeJson_mapNum (.of_forall (fun _ => rfl) v)

theorem canonicalizeJson_eq_canonicalizeWss_seq :
    canonicalizeJson .decimal (stripSig
        (.obj [("é", .str "\n"), ("seq", .num 18446744073709551615), ("sig", .str "x")])) =
      canonicalizeWss Integer.format (ofJson
        (.obj [("é", .str "\n"), ("seq", .num ⟨18446744073709551615, by decide, by decide⟩),
          ("sig", .str "x")])) := by
  have h := canonicalizeJson_eq_canonicalizeWss (v := .obj [("é", .str "\n"),
    ("seq", .num ⟨18446744073709551615, by decide, by decide⟩), ("sig", .str "x")]) (by decide)
  simpa [Json.Scalar.mapNum] using h

end Agent
