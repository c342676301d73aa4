import Quoodle.Json.Order
import Quoodle.Json.Style

namespace Gateway

variable {ν : Type}

-- Python's `json.dumps` without ASCII escaping and with compact separators. With `sort_keys` all
-- objects are sorted by the code points of their keys.
def dumps (fmt : Json.NumberFormat ν) (sort_keys : Bool) (v : Json ν) : List Char :=
  Json.print .minimal fmt (if sort_keys then v.normalize else v)

-- Models `_normalize`. All keys are strings already, so that `str(k)` is `k`.
def normalize : Json ν → Json ν :=
  Json.fold .leaf .arr fun ms => .obj (Json.sortKeys ms)

def canonicalizeJson (fmt : Json.NumberFormat ν) (value : Json ν) : List UInt8 :=
  utf8 (dumps fmt true (normalize value))

def stripSig : Json ν → Json ν :=
  Json.fold .leaf .arr fun ms => .obj (ms.filter (·.1 ≠ "sig"))

theorem normalize_eq (v : Json ν) : normalize v = v.normalize :=
  rfl

theorem stripSig_eq_erase (v : Json ν) : stripSig v = v.erase "sig" :=
  rfl

theorem canonicalizeJson_eq (fmt : Json.NumberFormat ν) (v : Json ν) :
    canonicalizeJson fmt v = utf8 (Json.print .minimal fmt v.normalize) := by
  simp [canonicalizeJson, dumps, normalize_eq]

theorem canonicalizeJson_inj {fmt : Json.NumberFormat ν} (h : Function.Injective fmt.text)
    {v w : Json ν} :
    canonicalizeJson fmt v = canonicalizeJson fmt w ↔ v.normalize = w.normalize := by
  rw [canonicalizeJson_eq, canonicalizeJson_eq, utf8_injective.eq_iff,
    Json.print_eq_print_iff rfl, (Json.mapNum_injective h).eq_iff, and_iff_left]
  exact (Json.print_eq_print_iff_agree rfl fmt _).mp rfl

theorem mem_of_canonicalizeJson_eq {fmt : Json.NumberFormat ν} {ms ns : List (String × Json ν)}
    {k : String} {v : Json ν} (hk : k ≠ "sig") (hm : (k, v) ∈ ms)
    (h : canonicalizeJson fmt (stripSig (.obj ms)) = canonicalizeJson fmt (stripSig (.obj ns))) :
    ∃ w, (k, w) ∈ ns ∧
      (v.erase "sig").normalize.mapNum fmt.text = (w.erase "sig").normalize.mapNum fmt.text := by
  rw [canonicalizeJson_eq, canonicalizeJson_eq, utf8_injective.eq_iff,
    Json.print_eq_print_iff rfl] at h
  have he := h.left
  simp only [stripSig_eq_erase, Json.erase_obj, Json.normalize_obj, Json.mapNum_obj,
    Json.obj.injEq] at he
  have hw : (k, (v.erase "sig").normalize.mapNum fmt.text) ∈
      Json.onValues (Json.mapNum fmt.text) (Json.sortKeys (Json.onValues Json.normalize
        ((Json.onValues (Json.erase "sig") ns).filter (·.1 ≠ "sig")))) := by
    rw [← he]
    simp only [Json.onValues, List.mem_map, Json.mem_sortKeys, List.mem_filter]
    exact ⟨_, ⟨_, ⟨⟨_, hm, rfl⟩, by simpa using hk⟩, rfl⟩, rfl⟩
  simp only [Json.onValues, List.mem_map, Json.mem_sortKeys, List.mem_filter] at hw
  obtain ⟨_, ⟨_, ⟨⟨⟨l, w⟩, hn, rfl⟩, _⟩, rfl⟩, he⟩ := hw
  simp only [Prod.mk.injEq] at he
  exact ⟨w, he.left ▸ hn, he.right.symm⟩

-- Signing a message without its `sig` members covers everything else in the message, up to the
-- order of the members of objects.
theorem canonicalizeJson_stripSig_eq_iff {a b : Json Int} (ha : a.Distinct) (hb : b.Distinct) :
    canonicalizeJson .decimal (stripSig a) = canonicalizeJson .decimal (stripSig b) ↔
      (a.erase "sig").Equiv (b.erase "sig") := by
  rw [canonicalizeJson_inj Json.intText_injective, stripSig_eq_erase, stripSig_eq_erase]
  exact Json.normalize_eq_iff_equiv ha.erase hb.erase

theorem canonicalizeJson_stripSig_eq_iff_reordered :
    canonicalizeJson .decimal (stripSig (.obj [("seq", .num 1), ("body", .obj []), ("sig", .str "x")])) =
      canonicalizeJson .decimal (stripSig (.obj [("body", .obj [("sig", .null)]), ("seq", .num 1)])) :=
  canonicalizeJson_stripSig_eq_iff (by decide) (by decide) |>.mpr <| by
    simp only [Json.erase_obj, Json.onValues_cons, Json.erase_leaf, Json.onValues_nil]
    exact @Json.Equiv.obj _ _ [("seq", .num 1), ("body", .obj [])] _ rfl
      (.cons (.leaf _) (.cons (.obj rfl .nil .nil) .nil)) (.swap ..)

end Gateway
