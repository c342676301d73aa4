import Quoodle.Data.Utf8
import Quoodle.Json.Convert

theorem List.forall₂_congr_of_mem {α β : Type} {r s : α → β → Prop} {l : List α} {l' : List β}
    (h : ∀ a ∈ l, ∀ b ∈ l', r a b ↔ s a b) : Forall₂ r l l' ↔ Forall₂ s l l' := by
  simp only [forall₂_iff_zip]
  refine and_congr_right fun _ => ⟨fun hr a b hm => ?_, fun hs a b hm => ?_⟩
  · exact h a (of_mem_zip hm).left b (of_mem_zip hm).right |>.mp (hr hm)
  · exact h a (of_mem_zip hm).left b (of_mem_zip hm).right |>.mpr (hs hm)

theorem List.map_eq_map_iff_forall₂ {α β : Type} {f : α → β} {l l' : List α} :
    l.map f = l'.map f ↔ Forall₂ (fun a b => f a = f b) l l' := by
  rw [← forall₂_eq_eq_eq, forall₂_map_left_iff, forall₂_map_right_iff]

namespace Json

variable {ν α β : Type} {ms : List (String × α)}

def sortBy (le : String → String → Prop) [DecidableRel le] (ms : List (String × α)) :
    List (String × α) :=
  ms.insertionSort fun m n => le m.1 n.1

-- Sorts the members of an object by the code points of their keys.
def sortKeys (ms : List (String × α)) : List (String × α) :=
  sortBy (· ≤ ·) ms

theorem sortBy_eq_sortKeys {le : String → String → Prop} [DecidableRel le]
    (h : ∀ k l, le k l ↔ k ≤ l) (ms : List (String × α)) : sortBy le ms = sortKeys ms := by
  have := List.map_insertionSort (fun m n => le m.1 n.1) (fun m n => m.1 ≤ n.1)
    id ms (fun m _ n _ => h m.1 n.1)
  simpa [sortBy, sortKeys] using this

-- Comparing keys as byte strings gives the same order.
def byteLt (k l : String) : Prop :=
  utf8 k.toList < utf8 l.toList

def byteLe (k l : String) : Prop :=
  utf8 k.toList ≤ utf8 l.toList

instance : DecidableRel byteLt :=
  fun k l => inferInstanceAs (Decidable (utf8 k.toList < utf8 l.toList))

instance : DecidableRel byteLe :=
  fun k l => inferInstanceAs (Decidable (utf8 k.toList ≤ utf8 l.toList))

theorem byteLt_iff (k l : String) : byteLt k l ↔ k < l := by
  rw [byteLt, utf8_lt_iff, String.lt_iff_toList_lt]

theorem byteLe_iff (k l : String) : byteLe k l ↔ k ≤ l := by
  rw [byteLe, utf8_le_iff, String.le_iff_toList_le]

section Keys

variable {ms ns : List (String × α)}

@[simp]
theorem sortKeys_nil : sortKeys ([] : List (String × α)) = [] :=
  rfl

theorem sortKeys_perm (ms : List (String × α)) : (sortKeys ms).Perm ms :=
  List.perm_insertionSort _ ms

theorem keys_sortKeys_perm (ms : List (String × α)) : (keys (sortKeys ms)).Perm (keys ms) :=
  (sortKeys_perm ms).map _

theorem mem_sortKeys {m : String × α} : m ∈ sortKeys ms ↔ m ∈ ms :=
  (sortKeys_perm ms).mem_iff

theorem sortKeys_sorted (ms : List (String × α)) : (keys (sortKeys ms)).Pairwise (· ≤ ·) := by
  have : Std.Total fun m n : String × α => m.1 ≤ n.1 := ⟨fun m n => le_total m.1 n.1⟩
  have : IsTrans (String × α) fun m n => m.1 ≤ n.1 := ⟨fun _ _ _ => le_trans⟩
  exact List.pairwise_map.mpr <| List.pairwise_insertionSort _ ms

theorem sortKeys_of_sorted (h : (keys ms).Pairwise (· ≤ ·)) : sortKeys ms = ms :=
  List.Pairwise.insertionSort_eq <| List.pairwise_map.mp h

@[simp]
theorem sortKeys_sortKeys (ms : List (String × α)) : sortKeys (sortKeys ms) = sortKeys ms :=
  sortKeys_of_sorted <| sortKeys_sorted ms

theorem eq_of_mem_of_nodup_keys (hn : (keys ms).Nodup) {m n : String × α} (hm : m ∈ ms)
    (hn' : n ∈ ms) (h : m.1 = n.1) : m = n :=
  List.inj_on_of_nodup_map hn hm hn' h

-- Sorting forgets the order in which the members were written, and nothing else.
theorem sortKeys_eq_iff_perm (hm : (keys ms).Nodup) : sortKeys ms = sortKeys ns ↔ ms.Perm ns := by
  constructor
  case mp =>
    intro h
    exact (sortKeys_perm ms).symm.trans (h ▸ sortKeys_perm ns)
  case mpr =>
    intro h
    have hp := (sortKeys_perm ms).trans <| h.trans (sortKeys_perm ns).symm
    refine List.Perm.eq_of_pairwise ?_ (List.pairwise_map.mp <| sortKeys_sorted ms)
      (List.pairwise_map.mp <| sortKeys_sorted ns) hp
    intro m n hm' hn' h₁ h₂
    exact eq_of_mem_of_nodup_keys hm (mem_sortKeys.mp hm') (h.mem_iff.mpr <| mem_sortKeys.mp hn')
      (le_antisymm h₁ h₂)

theorem sortKeys_onValues (f : α → β) (ms : List (String × α)) :
    sortKeys (onValues f ms) = onValues f (sortKeys ms) := by
  refine (List.map_insertionSort _ _ _ ms ?_).symm
  simp

theorem sortKeys_onValues_inj {f g : α → β} :
    sortKeys (onValues f ms) = sortKeys (onValues g ms) ↔ ∀ m ∈ ms, f m.2 = g m.2 := by
  rw [sortKeys_onValues, sortKeys_onValues]
  simp only [onValues, List.map_inj_left, mem_sortKeys, Prod.mk.injEq, true_and]

theorem nodup_keys_filter (p : String × α → Bool) (h : (keys ms).Nodup) :
    (keys (ms.filter p)).Nodup :=
  h.sublist <| List.filter_sublist.map _

theorem sortKeys_filter (p : String × α → Bool) (h : (keys ms).Nodup) :
    sortKeys (ms.filter p) = (sortKeys ms).filter p := by
  have hs : sortKeys ((sortKeys ms).filter p) = (sortKeys ms).filter p :=
    sortKeys_of_sorted <| (sortKeys_sorted ms).sublist <| List.filter_sublist.map _
  rw [← hs, sortKeys_eq_iff_perm (nodup_keys_filter p h)]
  exact (sortKeys_perm ms).symm.filter p

end Keys

theorem keys_sortKeys (ms : List (String × α)) :
    keys (sortKeys ms) = (keys ms).insertionSort byteLe :=
  List.map_insertionSort _ _ Prod.fst ms fun m _ n _ => (byteLe_iff m.1 n.1).symm

theorem lookup_eq_some_of_mem (h : (keys ms).Nodup) {m : String × α}
    (hm : m ∈ ms) : ms.lookup m.1 = some m.2 := by
  induction ms
  case nil => contradiction
  case cons n ms hi =>
    rw [keys_cons, List.nodup_cons] at h
    cases List.mem_cons.mp hm
    case inl he => simp only [he, List.lookup, beq_self_eq_true]
    case inr hm =>
      have hne : (m.1 == n.1) = false :=
        beq_eq_false_iff_ne.mpr fun he => h.left (he ▸ List.mem_map_of_mem hm)
      simp only [List.lookup, hne, hi h.right hm]

theorem filterMap_lookup_eq_sortKeys (h : (keys ms).Nodup) :
    (((keys ms).insertionSort byteLe).filterMap fun k => (ms.lookup k).map (k, ·)) =
      sortKeys ms := by
  have hl : ∀ m ∈ sortKeys ms, (ms.lookup m.1).map (m.1, ·) = some m := fun m hm => by
    rw [lookup_eq_some_of_mem h (mem_sortKeys.mp hm), Option.map_some]
  rw [← keys_sortKeys, keys, List.filterMap_map]
  exact (List.filterMap_congr hl).trans List.filterMap_some

-- Objects kept as ordered maps: a member with a new key is put in its place, otherwise it replaces
-- the value stored under its key.
def insertBy (lt : String → String → Prop) [DecidableRel lt] (k : String) (v : α) :
    List (String × α) → List (String × α)
  | [] => [(k, v)]
  | m :: ms =>
    if lt k m.1 then (k, v) :: m :: ms
    else if lt m.1 k then m :: insertBy lt k v ms
    else (k, v) :: ms

def mapOf (lt : String → String → Prop) [DecidableRel lt] (ms : List (String × α)) :
    List (String × α) :=
  ms.foldl (fun o m => insertBy lt m.1 m.2 o) []

section Map

variable {lt : String → String → Prop} [DecidableRel lt] {ms : List (String × α)}
variable {o : List (String × α)} {m : String × α}

theorem insertBy_perm (hl : ∀ k l, lt k l ↔ k < l) {k : String} (v : α) (h : k ∉ keys ms) :
    (insertBy lt k v ms).Perm ((k, v) :: ms) := by
  induction ms
  case nil => rfl
  case cons m ms hi =>
    simp only [keys_cons, List.mem_cons, not_or] at h
    unfold insertBy
    split_ifs with h₁ h₂
    · rfl
    · exact ((hi h.right).cons m).trans (List.Perm.swap ..)
    · rw [hl, not_lt] at h₁ h₂
      exact absurd (le_antisymm h₂ h₁) h.left

theorem mem_of_mem_insertBy {k : String} {v : α} (h : m ∈ insertBy lt k v ms) :
    m = (k, v) ∨ m ∈ ms := by
  induction ms
  case nil => exact .inl (List.mem_singleton.mp h)
  case cons n ms hi =>
    unfold insertBy at h
    split_ifs at h
    · exact List.mem_cons.mp h
    · cases List.mem_cons.mp h
      case inl h => exact .inr (h ▸ .head _)
      case inr h => exact (hi h).imp_right (.tail _)
    · exact (List.mem_cons.mp h).imp_right (.tail _)

theorem insertBy_sorted (hl : ∀ k l, lt k l ↔ k < l) (k : String) (v : α)
    (h : (keys ms).Pairwise (· < ·)) : (keys (insertBy lt k v ms)).Pairwise (· < ·) := by
  induction ms
  case nil => simp [insertBy]
  case cons m ms hi =>
    simp only [keys_cons, List.pairwise_cons] at h
    unfold insertBy
    split_ifs with h₁ h₂
    · rw [hl] at h₁
      simp only [keys_cons, List.pairwise_cons, List.mem_cons, forall_eq_or_imp]
      exact ⟨⟨h₁, fun l hl => h₁.trans (h.left l hl)⟩, h⟩
    · rw [hl] at h₂
      simp only [keys_cons, List.pairwise_cons]
      refine ⟨fun l hl => ?_, hi h.right⟩
      obtain ⟨n, hn, rfl⟩ := List.mem_map.mp hl
      cases mem_of_mem_insertBy hn
      case inl hk => exact hk ▸ h₂
      case inr hk => exact h.left n.1 (List.mem_map_of_mem hk)
    · rw [hl, not_lt] at h₁ h₂
      obtain rfl := le_antisymm h₂ h₁
      simp only [keys_cons, List.pairwise_cons]
      exact h

theorem foldl_insertBy_sorted (hl : ∀ k l, lt k l ↔ k < l) (h : (keys o).Pairwise (· < ·)) :
    (keys (ms.foldl (fun o m => insertBy lt m.1 m.2 o) o)).Pairwise (· < ·) := by
  induction ms generalizing o
  case nil => exact h
  case cons m ms hi => exact hi <| insertBy_sorted hl m.1 m.2 h

theorem mem_of_mem_foldl_insertBy
    (h : m ∈ ms.foldl (fun o m => insertBy lt m.1 m.2 o) o) : m ∈ o ∨ m ∈ ms := by
  induction ms generalizing o
  case nil => exact .inl h
  case cons n ms hi =>
    cases hi h
    case inl h => exact (mem_of_mem_insertBy h).elim (fun h => .inr (h ▸ .head _)) .inl
    case inr h => exact .inr (.tail _ h)

theorem mapOf_sorted (hl : ∀ k l, lt k l ↔ k < l) (ms : List (String × α)) :
    (keys (mapOf lt ms)).Pairwise (· < ·) :=
  foldl_insertBy_sorted hl .nil

theorem mem_of_mem_mapOf (h : m ∈ mapOf lt ms) : m ∈ ms :=
  (mem_of_mem_foldl_insertBy h).resolve_left List.not_mem_nil

theorem foldl_insertBy_perm (hl : ∀ k l, lt k l ↔ k < l) (h : (keys (ms ++ o)).Nodup) :
    (ms.foldl (fun o m => insertBy lt m.1 m.2 o) o).Perm (ms ++ o) := by
  induction ms generalizing o
  case nil => rfl
  case cons m ms hi =>
    have hk : m.1 ∉ keys o := by
      have hm := (List.nodup_cons.mp h).left
      simp only [List.append_eq, List.map_append, List.mem_append, not_or] at hm
      exact hm.right
    have hp := ((insertBy_perm hl m.2 hk).append_left ms).trans List.perm_middle
    exact (hi <| (hp.map Prod.fst).nodup_iff.mpr h).trans hp

theorem mapOf_eq_sortKeys (hl : ∀ k l, lt k l ↔ k < l) (hn : (keys ms).Nodup) :
    mapOf lt ms = sortKeys ms := by
  have hs : (keys (mapOf lt ms)).Pairwise (· ≤ ·) := (mapOf_sorted hl ms).imp fun h => h.le
  have hp : (mapOf lt ms).Perm ms := by
    simpa [mapOf] using foldl_insertBy_perm hl (o := []) (by simpa using hn)
  rw [← sortKeys_of_sorted hs, eq_comm, sortKeys_eq_iff_perm hn]
  exact hp.symm

-- The order of the keys can be computed without knowing the values.
theorem mapOf_eq_onValues_sortKeys (hl : ∀ k l, lt k l ↔ k < l) (ms : List (String × α))
    (hn : (keys ms).Nodup) (f : α → β) : mapOf lt (onValues f ms) = onValues f (sortKeys ms) := by
  rw [mapOf_eq_sortKeys hl (by simpa using hn), sortKeys_onValues]

end Map

def normalize : Json ν → Json ν :=
  fold leaf arr fun ms => obj (sortKeys ms)

section Normalize

@[simp]
theorem normalize_leaf (a : Scalar ν) : normalize (leaf a) = leaf a := by
  simp [normalize]

@[simp]
theorem normalize_arr (vs : List (Json ν)) : normalize (arr vs) = arr (vs.map normalize) := by
  simp [normalize]

@[simp]
theorem normalize_obj (ms : List (String × Json ν)) :
    normalize (obj ms) = obj (sortKeys (onValues normalize ms)) := by
  simp [normalize]

@[simp]
theorem normalize_normalize (v : Json ν) : normalize (normalize v) = normalize v := by
  induction v
  case leaf => simp
  case arr vs hi => simpa using hi
  case obj ms hi =>
    simp only [normalize_obj, ← sortKeys_onValues, onValues_onValues, sortKeys_sortKeys]
    rw [onValues_congr hi]

theorem Everywhere.normalize_iff {p : Scalar ν → Prop} {q : List String → Prop} {v : Json ν}
    (hq : ∀ {ks ls : List String}, ks.Perm ls → (q ks ↔ q ls)) :
    Everywhere p q (normalize v) ↔ Everywhere p q v := by
  induction v
  case leaf => simp
  case arr vs hi =>
    simp only [normalize_arr, arr_iff, List.forall_mem_map]
    exact forall₂_congr hi
  case obj ms hi =>
    simp only [normalize_obj, obj_iff, hq (keys_sortKeys_perm _), keys_onValues, mem_sortKeys,
      forall_mem_onValues]
    exact and_congr_right fun _ => forall₂_congr hi

theorem Texts.normalize_iff {p : String → Prop} {v : Json ν} :
    Texts p (normalize v) ↔ Texts p v :=
  Everywhere.normalize_iff fun h => by simp only [h.mem_iff]

theorem mapNum_normalize {μ : Type} (f : ν → μ) (v : Json ν) :
    mapNum f (normalize v) = normalize (mapNum f v) := by
  induction v
  case leaf => simp
  case arr vs hi => simpa using hi
  case obj ms hi =>
    simp only [normalize_obj, mapNum_obj, ← sortKeys_onValues, onValues_onValues]
    exact congrArg _ <| congrArg _ <| onValues_congr hi

end Normalize

-- Equality of JSON values: arrays in order, objects up to the order of their members.
inductive Equiv : Json ν → Json ν → Prop where
  | leaf (a : Scalar ν) : Equiv (leaf a) (leaf a)
  | arr {vs ws : List (Json ν)} : List.Forall₂ Equiv vs ws → Equiv (arr vs) (arr ws)
  | obj {ms ps ns : List (String × Json ν)} :
    keys ms = keys ps → List.Forall₂ Equiv (values ms) (values ps) → ps.Perm ns →
      Equiv (obj ms) (obj ns)

namespace Equiv

theorem leaf_iff {a : Scalar ν} {w : Json ν} : Equiv (Json.leaf a) w ↔ w = Json.leaf a where
  mp | leaf _ => rfl
  mpr h := h ▸ leaf a

theorem arr_iff {vs : List (Json ν)} {w : Json ν} :
    Equiv (Json.arr vs) w ↔ ∃ ws, w = Json.arr ws ∧ List.Forall₂ Equiv vs ws where
  mp | arr h => ⟨_, rfl, h⟩
  mpr := fun ⟨_, hw, h⟩ => hw ▸ arr h

theorem obj_iff {ms : List (String × Json ν)} {w : Json ν} :
    Equiv (Json.obj ms) w ↔ ∃ ns, w = Json.obj ns ∧
      ∃ ps, (keys ms = keys ps ∧ List.Forall₂ Equiv (values ms) (values ps)) ∧ ps.Perm ns where
  mp | obj hk hv hp => ⟨_, rfl, _, ⟨hk, hv⟩, hp⟩
  mpr := fun ⟨_, hw, _, ⟨hk, hv⟩, hp⟩ => hw ▸ obj hk hv hp

end Equiv

theorem sortKeys_onValues_eq_iff {f : α → β} {ms ns : List (String × α)} (hm : (keys ms).Nodup) :
    sortKeys (onValues f ms) = sortKeys (onValues f ns) ↔
      ∃ ps, (keys ms = keys ps ∧ List.Forall₂ (fun v w => f v = f w) (values ms) (values ps)) ∧
        ps.Perm ns := by
  rw [sortKeys_eq_iff_perm (by simpa using hm)]
  have h := congrFun₂ (List.eq_map_comp_perm fun m : String × α => (m.1, f m.2)) (onValues f ms) ns
  simp only [Relation.Comp, eq_iff_iff] at h
  refine h.symm.trans <| exists_congr fun ps => and_congr_left fun _ => ?_
  rw [← List.map_eq_map_iff_forall₂]
  exact onValues_eq_onValues_iff

theorem normalize_eq_iff_equiv {v w : Json ν} (hv : Distinct v) (hw : Distinct w) :
    normalize v = normalize w ↔ Equiv v w := by
  induction v generalizing w
  case leaf a =>
    rw [Equiv.leaf_iff]
    cases w <;> simp [eq_comm]
  case arr vs hi =>
    rw [Equiv.arr_iff]
    cases w
    case arr ws =>
      rw [Distinct.arr_iff] at hv hw
      simp only [normalize_arr, Json.arr.injEq, exists_eq_left', List.map_eq_map_iff_forall₂]
      exact List.forall₂_congr_of_mem fun v hm w hm' => hi v hm (hv v hm) (hw w hm')
    all_goals simp
  case obj ms hi =>
    rw [Equiv.obj_iff]
    cases w
    case obj ns =>
      rw [Distinct.obj_iff] at hv hw
      simp only [normalize_obj, Json.obj.injEq, exists_eq_left', sortKeys_onValues_eq_iff hv.left]
      refine exists_congr fun ps => and_congr_left fun hp => ?_
      refine and_congr_right fun _ => List.forall₂_congr_of_mem fun v hv' w hw' => ?_
      obtain ⟨m, hm, rfl⟩ := List.mem_map.mp hv'
      obtain ⟨n, hn, rfl⟩ := List.mem_map.mp hw'
      exact hi m hm (hv.right m hm) (hw.right n <| hp.mem_iff.mp hn)
    all_goals simp

-- Deletes the members with key `k` from all objects in a value.
def erase (k : String) : Json ν → Json ν :=
  fold leaf arr fun ms => obj (ms.filter (·.1 ≠ k))

section Erase

variable {k : String} {v : Json ν}

@[simp]
theorem erase_leaf (a : Scalar ν) : erase k (leaf a) = leaf a := by
  simp [erase]

@[simp]
theorem erase_arr (vs : List (Json ν)) : erase k (arr vs) = arr (vs.map (erase k)) := by
  simp [erase]

@[simp]
theorem erase_obj (ms : List (String × Json ν)) :
    erase k (obj ms) = obj ((onValues (erase k) ms).filter (·.1 ≠ k)) := by
  simp [erase]

theorem Distinct.normalize (h : Distinct v) : Distinct (normalize v) :=
  (Everywhere.normalize_iff List.Perm.nodup_iff).mpr h

theorem Distinct.erase (h : Distinct v) : Distinct (erase k v) := by
  induction v
  case leaf => simp
  case arr vs hi =>
    simp only [erase_arr, arr_iff, List.forall_mem_map] at h ⊢
    exact fun v hv => hi v hv (h v hv)
  case obj ms hi =>
    rw [obj_iff] at h
    rw [erase_obj, obj_iff]
    refine ⟨nodup_keys_filter _ (by simpa using h.left), fun m hm => ?_⟩
    replace hm := List.mem_of_mem_filter hm
    revert m
    exact forall_mem_onValues.mpr fun m hm => hi m hm (h.right m hm)

theorem onValues_filter_keys (f : α → β) (ms : List (String × α)) :
    onValues f (ms.filter (·.1 ≠ k)) = (onValues f ms).filter (·.1 ≠ k) := by
  simp [onValues, List.filter_map, Function.comp_def]

theorem mapNum_erase {μ : Type} (f : ν → μ) (v : Json ν) :
    mapNum f (erase k v) = erase k (mapNum f v) := by
  induction v
  case leaf => simp
  case arr vs hi => simpa using hi
  case obj ms hi =>
    simp only [erase_obj, mapNum_obj, onValues_filter_keys, onValues_onValues]
    rw [onValues_congr (f := mapNum f ∘ erase k) (g := erase k ∘ mapNum f) hi]

theorem normalize_erase (h : Distinct v) : normalize (erase k v) = erase k (normalize v) := by
  induction v
  case leaf => simp
  case arr vs hi =>
    rw [Distinct.arr_iff] at h
    simpa using fun v hv => hi v hv (h v hv)
  case obj ms hi =>
    rw [Distinct.obj_iff] at h
    simp only [erase_obj, normalize_obj, onValues_filter_keys, ← sortKeys_onValues,
      onValues_onValues]
    rw [sortKeys_filter _ (by simpa using h.left)]
    exact congrArg (fun ns => obj ((sortKeys ns).filter _)) <|
      onValues_congr fun m hm => hi m hm (h.right m hm)

end Erase

end Json
