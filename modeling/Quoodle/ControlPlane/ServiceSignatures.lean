import Quoodle.ControlPlane.CanonicalJson
import Quoodle.Gateway.Canonical

-- The signatures on requests between the gateway and the control plane. Each side signs the
-- canonical form of the payload, and the other side computes it again from the body it receives.
namespace Gateway

-- The body `httpx` posts for a payload: `json.dumps` with its default arguments.
def postedBody (payload : Json Int) : List Char :=
  Json.print (.standard false (fun c => 0x7e < c.toNat) 1) .decimal payload

-- Models `json.loads`, as far as all numbers are integers.
def loads (raw : List Char) : Option (Json Int) := do
  let v ← Json.Dialect.rfc.read raw
  v.mapNum? Json.readInt

theorem loads_print {ν : Type} (st : Json.Style) (fmt : Json.NumberFormat ν) {f : ν → Int}
    (h : ∀ n, fmt.text n = Json.intText (f n)) (v : Json ν) :
    loads (Json.print st fmt v) = some (v.mapNum f) := by
  simp only [loads, Json.Dialect.read_print, Option.bind_eq_bind, Option.bind_some]
  exact Json.mapNum?_mapNum (fun n => by rw [h, Json.readInt_intText]) v

-- The bytes whose signature `LaravelSignatureMiddleware` verifies.
def laravelSignedBytes (raw : List Char) : Option (List UInt8) :=
  (loads raw).map (canonicalizeJson .decimal)

end Gateway

namespace ControlPlane

open Json (keys values onValues sortKeys byteLe)
open Php

variable {ν : Type} {payload : Json Int}

def fastApiSignedBytes (raw : List Char) : Option (List UInt8) := do
  let decoded ← jsonDecode raw
  (encode .floats decoded).map utf8

theorem encode_eq (nums : Numbers ν) {v : Value ν} (h : v.Distinct) :
    encode nums v =
      if v.depth ≤ maxDepth ∧ (canonical v).Nums (nums.finite ·) then
        some (Json.print unescaped nums.toNumberFormat (canonical v))
      else none := by
  rw [encode, jsonEncode, depth_sortKeysRecursive h]
  rfl

-- Neither the order of the members of an object nor its sorted order makes its keys a list.
def Associative (ks : List String) : Prop :=
  ¬IsIndex ks ∧ ¬IsIndex (ks.insertionSort byteLe)

instance : DecidablePred Associative :=
  fun ks => inferInstanceAs (Decidable (¬IsIndex ks ∧ _))

section Decoded

theorem canonical_ofJson_arr (vs : List (Json ν)) :
    canonical (ofJson (.arr vs)) = .arr (vs.map fun v => canonical (ofJson v)) := by
  rw [ofJson_arr, canonical_of_list (arrayIsList_list _), values_list, List.map_map]
  rfl

variable {ms : List (String × Json ν)}

theorem canonical_ofJson_obj (hn : (keys ms).Nodup) (ha : Associative (keys ms)) :
    canonical (ofJson (.obj ms)) = .obj (sortKeys (onValues (fun v => canonical (ofJson v)) ms)) := by
  have hs : ¬arrayIsList (sortKeys (onValues ofJson ms)) := by
    rw [arrayIsList, Json.keys_sortKeys, Json.keys_onValues]
    exact ha.right
  rw [ofJson_obj hn, canonical_of_not_list (by simpa using hn) (mt arrayIsList_onValues.mp ha.left)
    hs, Json.onValues_onValues]
  rfl

theorem canonical_ofJson_obj_of_not (hn : (keys ms).Nodup)
    (ha : ¬Associative (keys ms)) : ∃ vs, canonical (ofJson (.obj ms)) = .arr vs := by
  rw [ofJson_obj hn]
  by_cases hl : arrayIsList (onValues ofJson ms)
  case pos => exact ⟨_, canonical_of_list hl⟩
  have hs : arrayIsList (sortKeys (onValues ofJson ms)) := by
    rw [arrayIsList, Json.keys_sortKeys, Json.keys_onValues]
    exact of_not_not fun h => ha ⟨mt arrayIsList_onValues.mpr hl, h⟩
  exact ⟨_, canonical_of_sorted_list (by simpa using hn) hl hs⟩

end Decoded

def FitsInt64 (n : Int) : Prop :=
  -2 ^ 63 ≤ n ∧ n < 2 ^ 63

instance : DecidablePred FitsInt64 :=
  fun n => inferInstanceAs (Decidable (-2 ^ 63 ≤ n ∧ n < 2 ^ 63))

def rewritten (payload : Json Int) : Json Number :=
  canonical (ofJson (payload.mapNum .ofInt))

-- The control plane writes what the gateway wrote, up to the way strings are escaped.
def Recovered (v : Json Int) : Prop :=
  (rewritten v).Nums (Numbers.floats.finite ·) ∧
    v.normalize.mapNum Json.intText = (rewritten v).mapNum Numbers.floats.text

theorem recovered_arr_iff {vs : List (Json Int)} :
    Recovered (.arr vs) ↔ ∀ v ∈ vs, Recovered v := by
  simp only [Recovered, rewritten, Json.mapNum_arr, canonical_ofJson_arr, Json.Nums.arr_iff,
    List.forall_mem_map, Json.normalize_arr, List.map_map, Json.arr.injEq, List.map_inj_left,
    Function.comp_apply, forall_and]

theorem recovered_obj_iff {ms : List (String × Json Int)} (hn : (keys ms).Nodup) :
    Recovered (.obj ms) ↔ Associative (keys ms) ∧ ∀ m ∈ ms, Recovered m.2 := by
  simp only [Recovered, rewritten, Json.mapNum_obj, Json.normalize_obj]
  have hn' : (keys (onValues (Json.mapNum Number.ofInt) ms)).Nodup := by simpa using hn
  by_cases ha : Associative (keys ms)
  case pos =>
    rw [canonical_ofJson_obj hn' (by simpa using ha)]
    simp only [← Json.sortKeys_onValues, Json.onValues_onValues, Json.mapNum_obj, Json.Nums.obj_iff,
      Json.mem_sortKeys, Json.forall_mem_onValues, Json.obj.injEq, Json.sortKeys_onValues_inj, ha,
      true_and, forall_and, Function.comp_apply]
  case neg =>
    obtain ⟨vs, hv⟩ := canonical_ofJson_obj_of_not hn' (by simpa using ha)
    rw [hv]
    simp [ha]

theorem recovered_iff {v : Json Int} (h : v.Distinct) :
    Recovered v ↔ v.Nums FitsInt64 ∧ v.Objects Associative := by
  induction v
  case leaf a =>
    cases a
    case num n =>
      simp only [Recovered, rewritten, Json.mapNum_leaf, Json.Scalar.mapNum, ofJson_leaf, canonical_scalar,
        Json.Nums.leaf_iff, Json.Scalar.Num, Json.normalize_leaf, Json.leaf.injEq,
        Json.Scalar.num.injEq, Json.Objects.leaf, and_true]
      rw [eq_comm (a := Json.intText n)]
      exact Numbers.floats_ofInt_iff n
    all_goals simp [Recovered, rewritten, Json.Scalar.mapNum, Json.Scalar.Num]
  case arr vs hi =>
    rw [Json.Distinct.arr_iff] at h
    simp only [recovered_arr_iff, Json.Nums.arr_iff, Json.Objects.arr_iff, ← forall_and]
    exact forall₂_congr fun v hv => hi v hv (h v hv)
  case obj ms hi =>
    rw [Json.Distinct.obj_iff] at h
    rw [recovered_obj_iff h.left, Json.Nums.obj_iff, Json.Objects.obj_iff,
      forall₂_congr fun m hm => hi m hm (h.right m hm)]
    simp only [forall_and]
    exact and_left_comm

-- Both sides write the same value in the same way unless it contains a line separator.
theorem print_minimal_eq_print_unescaped_iff {μ : Type} {fmt : Json.NumberFormat ν}
    {fmt' : Json.NumberFormat μ} {v : Json ν} {w : Json μ} :
    Json.print .minimal fmt v.normalize = Json.print unescaped fmt' w ↔
      v.normalize.mapNum fmt.text = w.mapNum fmt'.text ∧ v.Texts NoLineSeparator := by
  have hg : Json.Style.minimal.gap = unescaped.gap := rfl
  rw [Json.print_eq_print_iff hg, Json.Texts.normalize_iff,
    funext fun s => propext (minimal_agree_unescaped_iff s)]

structure Deliverable (payload : Json Int) : Prop where
  depth : payload.depth ≤ maxDepth
  ints : payload.Nums FitsInt64
  objects : payload.Objects Associative
  texts : payload.Texts NoLineSeparator

theorem deliverable_iff (h : payload.Distinct) : Deliverable payload ↔
      payload.depth ≤ maxDepth ∧ Recovered payload ∧ payload.Texts NoLineSeparator := by
  rw [recovered_iff h]
  exact ⟨fun ⟨hd, hi, ho, ht⟩ => ⟨hd, ⟨hi, ho⟩, ht⟩, fun ⟨hd, ⟨hi, ho⟩, ht⟩ => ⟨hd, hi, ho, ht⟩⟩

theorem fastApiSignedBytes_postedBody (h : payload.Distinct) :
    fastApiSignedBytes (Gateway.postedBody payload) =
      if payload.depth ≤ maxDepth ∧ (rewritten payload).Nums (Numbers.floats.finite ·) then
        some (utf8 (Json.print unescaped Numbers.floats.toNumberFormat (rewritten payload)))
      else none := by
  rw [fastApiSignedBytes, Gateway.postedBody, jsonDecode_print]
  by_cases hd : payload.depth ≤ maxDepth
  case neg => simp [hd]
  rw [if_pos hd, Option.bind_eq_bind, Option.bind_some, encode_eq _ (distinct_ofJson h.mapNum),
    depth_ofJson h.mapNum, Json.depth_mapNum, apply_ite (Option.map utf8)]
  rfl

theorem fastApiSignedBytes_eq_canonicalizeJson_iff {payload : Json Int} (h : payload.Distinct) :
    fastApiSignedBytes (Gateway.postedBody payload) =
      some (Gateway.canonicalizeJson .decimal payload) ↔ Deliverable payload := by
  rw [fastApiSignedBytes_postedBody h, deliverable_iff h, Gateway.canonicalizeJson_eq]
  simp only [Option.ite_none_right_eq_some, Option.some.injEq, utf8_injective.eq_iff, Recovered,
    and_assoc]
  refine and_congr_right fun _ => and_congr_right fun _ => ?_
  rw [eq_comm, print_minimal_eq_print_unescaped_iff]
  rfl

theorem fastApiSignedBytes_eq_canonicalizeJson_iff_ack :
    fastApiSignedBytes (Gateway.postedBody (.obj [("status", .str "received"), ("seq", .num 7)])) =
      some (Gateway.canonicalizeJson .decimal (.obj [("status", .str "received"), ("seq", .num 7)])) :=
  fastApiSignedBytes_eq_canonicalizeJson_iff (by decide) |>.mpr
    ⟨by decide, by decide, by decide, by decide⟩

-- An empty object comes back from the decoder as an empty array.
theorem fastApiSignedBytes_empty_result :
    fastApiSignedBytes (Gateway.postedBody (.obj [("result", .obj [])])) =
        some (utf8 "\x7b\"result\":[]\x7d".toList) ∧
      fastApiSignedBytes (Gateway.postedBody (.obj [("result", .obj [])])) ≠
        some (Gateway.canonicalizeJson .decimal (.obj [("result", .obj [])])) := by
  decide +kernel

def laravelSignedBytes (value : Value Integer) : Option (List UInt8) :=
  (encode .integers value).map utf8

def requestBody (value : Value Integer) : Option (List Char) :=
  jsonEncode escaped .integers value

-- An array that is not written as a list does not become one when its keys are sorted.
def StaysAssociative (ks : List String) : Prop :=
  IsIndex ks ∨ ¬IsIndex (ks.insertionSort byteLe)

instance : DecidablePred StaysAssociative :=
  fun ks => inferInstanceAs (Decidable (IsIndex ks ∨ _))

theorem canonical_eq_normalize_array_iff {ms : List (String × Value ν)} (hn : (keys ms).Nodup)
    (hi : ∀ m ∈ ms, canonical m.2 = (toJson m.2).normalize ↔
      (toJson m.2).Objects StaysAssociative) :
    canonical (.array ms) = (toJson (.array ms)).normalize ↔
      (toJson (.array ms)).Objects StaysAssociative := by
  by_cases hl : arrayIsList ms
  case pos =>
    rw [canonical_of_list hl, toJson_array_of_list hl]
    simp only [Json.normalize_arr, List.map_map, Json.arr.injEq, List.map_inj_left, values,
      Json.Objects.arr_iff, List.forall_mem_map, Function.comp_apply]
    exact forall₂_congr hi
  case neg =>
    rw [toJson_array_of_not_list hl, Json.normalize_obj, Json.Objects.obj_iff]
    by_cases hs : arrayIsList (sortKeys ms)
    case pos =>
      have hk : ¬StaysAssociative (keys (onValues toJson ms)) := by
        rw [Json.keys_onValues]
        rintro (h | h)
        · exact hl h
        · exact h (Json.keys_sortKeys ms ▸ hs)
      rw [canonical_of_sorted_list hn hl hs]
      exact iff_of_false nofun fun h => hk h.left
    case neg =>
      have hk : StaysAssociative (keys (onValues toJson ms)) := by
        rw [Json.keys_onValues]
        exact .inr fun h => hs (by rwa [arrayIsList, Json.keys_sortKeys])
      rw [canonical_of_not_list hn hl hs]
      rw [Json.obj.injEq, Json.onValues_onValues, Json.sortKeys_onValues_inj,
        Json.forall_mem_onValues, and_iff_right hk]
      exact forall₂_congr hi

theorem canonical_eq_normalize_iff {v : Value ν} (h : v.Distinct) :
    canonical v = (toJson v).normalize ↔ (toJson v).Objects StaysAssociative := by
  induction v
  case scalar => simp
  case object => simp [StaysAssociative, IsIndex, indexKeys]
  case array ms hi =>
    rw [Value.distinct_array] at h
    exact canonical_eq_normalize_array_iff h.left fun m hm => hi m hm (h.right m hm)

structure Verifiable (value : Value Integer) : Prop where
  depth : value.depth ≤ maxDepth
  objects : (toJson value).Objects StaysAssociative
  texts : (toJson value).Texts NoLineSeparator

theorem integers_finite (v : Json Integer) : v.Nums (Numbers.integers.finite ·) :=
  .of_forall (fun _ => rfl) v

theorem laravelSignedBytes_eq {value : Value Integer} (h : value.Distinct) :
    laravelSignedBytes value =
      if value.depth ≤ maxDepth then
        some (utf8 (Json.print unescaped Numbers.integers.toNumberFormat (canonical value)))
      else none := by
  rw [laravelSignedBytes, encode_eq _ h, apply_ite (Option.map utf8)]
  simp only [integers_finite, and_true]
  rfl

theorem requestBody_laravelSignedBytes (value : Value Integer) :
    (requestBody value).bind Gateway.laravelSignedBytes =
      if value.depth ≤ maxDepth then
        some (utf8 (Json.print .minimal Numbers.integers.toNumberFormat (toJson value).normalize))
      else none := by
  rw [requestBody, jsonEncode]
  by_cases hd : value.depth ≤ maxDepth
  case neg => simp [hd]
  have hl := Gateway.loads_print escaped Numbers.integers.toNumberFormat
    (f := Integer.val) (fun _ => rfl) (toJson value)
  rw [if_pos ⟨hd, integers_finite _⟩, if_pos hd, Option.bind_some, Gateway.laravelSignedBytes,
    hl, Option.map_some, Gateway.canonicalizeJson_eq, ← Json.mapNum_normalize]
  refine congrArg (some ∘ utf8) <| Json.print_congr _ ?_
  exact Json.mapNum_mapNum _ _ _

theorem laravelSignedBytes_verified_iff {value : Value Integer} (h : value.Distinct) :
    (∃ bytes, laravelSignedBytes value = some bytes ∧
      (requestBody value).bind Gateway.laravelSignedBytes = some bytes) ↔ Verifiable value := by
  have hv : Verifiable value ↔ value.depth ≤ maxDepth ∧
      canonical value = (toJson value).normalize ∧ (toJson value).Texts NoLineSeparator := by
    rw [canonical_eq_normalize_iff h]
    exact ⟨fun ⟨hd, ho, ht⟩ => ⟨hd, ho, ht⟩, fun ⟨hd, ho, ht⟩ => ⟨hd, ho, ht⟩⟩
  have ht : Function.Injective Numbers.integers.text := fun m n he => by
    cases m; cases n
    simpa using Json.intText_injective he
  rw [hv, laravelSignedBytes_eq h, requestBody_laravelSignedBytes]
  by_cases hd : value.depth ≤ maxDepth
  case neg => simp [hd]
  simp only [hd, if_true, Option.some.injEq, exists_eq_left', true_and, utf8_injective.eq_iff,
    print_minimal_eq_print_unescaped_iff, (Json.mapNum_injective ht).eq_iff]
  rw [eq_comm (a := canonical value)]

theorem laravelSignedBytes_verified_iff_push :
    ∃ bytes, laravelSignedBytes (.array [("ids", .array []), ("a/b", .scalar (.str "é"))]) =
        some bytes ∧
      (requestBody (.array [("ids", .array []), ("a/b", .scalar (.str "é"))])).bind
        Gateway.laravelSignedBytes = some bytes :=
  laravelSignedBytes_verified_iff (by simp) |>.mpr ⟨by decide, by decide, by decide⟩

-- The signer escapes a line separator where the verifier does not.
theorem laravelSignedBytes_line_separator :
    laravelSignedBytes (.array [("text", .scalar (.str "\u2028"))]) =
        some (utf8 "\x7b\"text\":\"\\u2028\"\x7d".toList) ∧
      (requestBody (.array [("text", .scalar (.str "\u2028"))])).bind Gateway.laravelSignedBytes =
        some (utf8 "\x7b\"text\":\"\u2028\"\x7d".toList) ∧
      laravelSignedBytes (.array [("text", .scalar (.str "\u2028"))]) ≠
        (requestBody (.array [("text", .scalar (.str "\u2028"))])).bind
          Gateway.laravelSignedBytes := by
  decide

end ControlPlane
