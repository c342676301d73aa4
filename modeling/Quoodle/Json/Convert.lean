import Quoodle.Json.Value

namespace Json

variable {ν μ α β : Type} {f g : ν → μ} {v : Json ν} {q : List String → Prop}

def Scalar.mapNum (f : ν → μ) : Scalar ν → Scalar μ
  | null => null
  | bool b => bool b
  | num n => num (f n)
  | str s => str s

def mapNum (f : ν → μ) : Json ν → Json μ :=
  fold (fun a => leaf (a.mapNum f)) arr obj

section MapNum

variable {f : ν → μ}

@[simp]
theorem mapNum_leaf {a : Scalar ν} : mapNum f (leaf a) = leaf (a.mapNum f) := by
  simp [mapNum]

@[simp]
theorem mapNum_arr {vs : List (Json ν)} : mapNum f (arr vs) = arr (vs.map (mapNum f)) := by
  simp [mapNum]

@[simp]
theorem mapNum_obj {ms : List (String × Json ν)} :
    mapNum f (obj ms) = obj (onValues (mapNum f) ms) := by
  simp [mapNum]

theorem mapNum_id (v : Json ν) : mapNum id v = v := by
  induction v
  case leaf a => cases a <;> simp [Scalar.mapNum]
  case arr vs hi => simpa using List.map_congr_left hi
  case obj ms hi => simpa using onValues_eq_self hi

theorem mapNum_mapNum {ξ : Type} (g : μ → ξ) (f : ν → μ) (v : Json ν) :
    mapNum g (mapNum f v) = mapNum (g ∘ f) v := by
  induction v
  case leaf a => cases a <;> simp [Scalar.mapNum]
  case arr vs hi => simpa using hi
  case obj ms hi =>
    simp only [mapNum_obj, onValues_onValues]
    exact congrArg obj <| onValues_congr hi

end MapNum

theorem Everywhere.mapNum_iff {p : Scalar μ → Prop}
    : Everywhere p q (mapNum f v) ↔ Everywhere (fun a => p (a.mapNum f)) q v := by
  induction v
  case leaf => simp
  case arr vs hi =>
    simp only [mapNum_arr, arr_iff, List.forall_mem_map]
    exact forall₂_congr hi
  case obj ms hi =>
    simp only [mapNum_obj, obj_iff, keys_onValues, forall_mem_onValues]
    exact and_congr_right fun _ => forall₂_congr hi

theorem Objects.mapNum_iff : Objects q (mapNum f v) ↔ Objects q v :=
  Everywhere.mapNum_iff

theorem Distinct.mapNum (h : Distinct v) : Distinct (mapNum f v) :=
  Objects.mapNum_iff.mpr h

theorem mapNum_eq_mapNum_iff : mapNum f v = mapNum g v ↔ Nums (fun n => f n = g n) v := by
  induction v
  case leaf a => cases a <;> simp [Scalar.mapNum, Scalar.Num]
  case arr vs hi =>
    simp only [mapNum_arr, arr.injEq, List.map_inj_left, Nums.arr_iff]
    exact forall₂_congr hi
  case obj ms hi =>
    simp only [mapNum_obj, obj.injEq, Nums.obj_iff, onValues, List.map_inj_left, Prod.mk.injEq,
      true_and]
    exact forall₂_congr hi

theorem Nums.mapNum_iff {p : μ → Prop} : Nums p (mapNum f v) ↔ Nums (fun n => p (f n)) v :=
  Everywhere.mapNum_iff.trans <| Everywhere.congr fun a => by
    cases a <;> simp [Scalar.mapNum, Scalar.Num]

theorem Texts.mapNum_iff {p : String → Prop} : Texts p (mapNum f v) ↔ Texts p v :=
  Everywhere.mapNum_iff.trans <| Everywhere.congr fun a => by
    cases a <;> simp [Scalar.mapNum, Scalar.Text]

-- The number of arrays and objects nested in each other.
def depth : Json ν → Nat :=
  fold (fun _ => 0) (fun ds => ds.foldr max 0 + 1) (fun ms => (values ms).foldr max 0 + 1)

section Depth

@[simp]
theorem depth_leaf (a : Scalar ν) : depth (leaf a) = 0 := by
  simp [depth]

@[simp]
theorem depth_arr (vs : List (Json ν)) : depth (arr vs) = (vs.map depth).foldr max 0 + 1 := by
  simp [depth]

@[simp]
theorem depth_obj (ms : List (String × Json ν)) :
    depth (obj ms) = ((values ms).map depth).foldr max 0 + 1 := by
  simp [depth]

theorem depth_mapNum (f : ν → μ) (v : Json ν) : depth (mapNum f v) = depth v := by
  induction v
  case leaf => simp
  case arr vs hi =>
    simp only [mapNum_arr, depth_arr, List.map_map]
    rw [List.map_congr_left (f := depth ∘ mapNum f) hi]
  case obj ms hi =>
    simp only [mapNum_obj, depth_obj, values_onValues, List.map_map]
    rw [map_values_congr (f := depth ∘ mapNum f) hi]

end Depth

-- A conversion of all strings and keys.
def Scalar.mapText (f : String → String) : Scalar ν → Scalar ν
  | str s => str (f s)
  | a => a

def mapText (f : String → String) : Json ν → Json ν :=
  fold (fun a => leaf (a.mapText f)) arr fun ms => obj (ms.map fun m => (f m.1, m.2))

section MapText

variable {f : String → String} {v : Json ν}

@[simp]
theorem mapText_leaf {a : Scalar ν} : mapText f (leaf a) = leaf (a.mapText f) := by
  simp [mapText]

@[simp]
theorem mapText_arr {vs : List (Json ν)} : mapText f (arr vs) = arr (vs.map (mapText f)) := by
  simp [mapText]

@[simp]
theorem mapText_obj {ms : List (String × Json ν)} :
    mapText f (obj ms) = obj (ms.map fun m => (f m.1, mapText f m.2)) := by
  simp only [mapText, fold_obj, onValues, List.map_map, Function.comp_def]

theorem Texts.mapText_iff {p : String → Prop} :
    Texts p (mapText f v) ↔ Texts (fun s => p (f s)) v := by
  induction v
  case leaf a => cases a <;> simp [Scalar.mapText, Scalar.Text]
  case arr vs hi =>
    simp only [mapText_arr, arr_iff, List.forall_mem_map]
    exact forall₂_congr hi
  case obj ms hi =>
    simp only [mapText_obj, obj_iff, keys, List.map_map, List.forall_mem_map, Function.comp_apply]
    exact and_congr_right fun _ => forall₂_congr hi

theorem mapText_eq_self (h : Texts (fun s => f s = s) v) : mapText f v = v := by
  induction v
  case leaf a => cases a <;> simp_all [Scalar.mapText, Scalar.Text]
  case arr vs hi =>
    rw [Texts.arr_iff] at h
    simpa using List.map_congr_left fun v hv => hi v hv (h v hv)
  case obj ms hi =>
    simp only [Texts.obj_iff, keys, List.forall_mem_map] at h
    rw [mapText_obj, List.map_congr_left (g := id), List.map_id]
    intro m hm
    rw [h.left m hm, hi m hm (h.right m hm), id]

theorem mapText_mapText {g : String → String} (v : Json ν) :
    mapText g (mapText f v) = mapText (g ∘ f) v := by
  induction v
  case leaf a => cases a <;> simp [Scalar.mapText]
  case arr vs hi => simpa using hi
  case obj ms hi =>
    simp only [mapText_obj, List.map_map, obj.injEq, List.map_inj_left, Function.comp_apply,
      Prod.mk.injEq, true_and]
    exact hi

theorem mapNum_mapText {g : ν → μ} (v : Json ν) :
    mapNum g (mapText f v) = mapText f (mapNum g v) := by
  induction v
  case leaf a => cases a <;> simp [Scalar.mapText, Scalar.mapNum]
  case arr vs hi => simpa using hi
  case obj ms hi =>
    simp only [mapText_obj, mapNum_obj, onValues, List.map_map, obj.injEq, List.map_inj_left,
      Function.comp_apply, Prod.mk.injEq, true_and]
    exact hi

theorem Nums.mapText_iff {p : ν → Prop} : Nums p (mapText f v) ↔ Nums p v := by
  induction v
  case leaf a => cases a <;> simp [Scalar.mapText, Scalar.Num]
  case arr vs hi =>
    simp only [mapText_arr, arr_iff, List.forall_mem_map]
    exact forall₂_congr hi
  case obj ms hi =>
    simp only [mapText_obj, obj_iff, List.forall_mem_map]
    exact forall₂_congr hi

theorem depth_mapText (v : Json ν) : depth (mapText f v) = depth v := by
  induction v
  case leaf => simp
  case arr vs hi =>
    simp only [mapText_arr, depth_arr, List.map_map]
    rw [List.map_congr_left (f := depth ∘ mapText f) hi]
  case obj ms hi =>
    simp only [mapText_obj, depth_obj, values, List.map_map, Function.comp_def]
    rw [List.map_congr_left hi]

end MapText

-- A conversion of numbers that may fail.
def Scalar.mapNum? (f : ν → Option μ) : Scalar ν → Option (Scalar μ)
  | null => some null
  | bool b => some (bool b)
  | num n => (f n).map num
  | str s => some (str s)

def mapNum? (f : ν → Option μ) : Json ν → Option (Json μ) :=
  fold (fun a => (a.mapNum? f).map leaf) (fun vs => (vs.mapM id).map arr)
    (fun ms => (ms.mapM fun (m : String × Option (Json μ)) => m.2.map (m.1, ·)).map obj)

section MapNum?

variable {f : ν → Option μ}

@[simp]
theorem mapNum?_leaf {a : Scalar ν} : mapNum? f (leaf a) = (a.mapNum? f).map leaf := by
  simp [mapNum?]

@[simp]
theorem mapNum?_arr {vs : List (Json ν)} :
    mapNum? f (arr vs) = (vs.mapM (mapNum? f)).map arr := by
  simp [mapNum?, List.mapM_map]

@[simp]
theorem mapNum?_obj {ms : List (String × Json ν)} :
    mapNum? f (obj ms) = (ms.mapM fun m => (mapNum? f m.2).map (m.1, ·)).map obj := by
  simp [mapNum?, onValues, List.mapM_map, Function.comp_def]

end MapNum?

theorem mapM_eq_some_map {f : α → Option β} {g : α → β} {l : List α}
    (h : ∀ a ∈ l, f a = some (g a)) : l.mapM f = some (l.map g) := by
  induction l
  case nil => rfl
  case cons a l hi =>
    simp only [List.mem_cons, forall_eq_or_imp] at h
    simp [h.left, hi h.right]

theorem mapNum?_mapNum_of_nums {ξ : Type} {f : μ → Option ξ} {h : ν → ξ}
    (hf : Nums (fun n => f (g n) = some (h n)) v) : mapNum? f (mapNum g v) = some (mapNum h v) := by
  induction v
  case leaf a => cases a <;> simp_all [Scalar.mapNum?, Scalar.mapNum, Scalar.Num]
  case arr vs hi =>
    have hm := mapM_eq_some_map fun v hv => hi v hv (Nums.arr_iff.mp hf v hv)
    simp [List.mapM_map, Function.comp_def, hm]
  case obj ms hi =>
    have hm := mapM_eq_some_map fun m hm =>
      congrArg (Option.map (m.1, ·)) (hi m hm (Nums.obj_iff.mp hf m hm))
    simp only [mapNum_obj, mapNum?_obj, onValues, List.mapM_map]
    exact congrArg (Option.map obj) hm

theorem mapNum?_mapNum {ξ : Type} {f : μ → Option ξ} {h : ν → ξ}
    (hf : ∀ n, f (g n) = some (h n)) (v : Json ν) : mapNum? f (mapNum g v) = some (mapNum h v) :=
  mapNum?_mapNum_of_nums <| Nums.of_forall hf v

theorem eq_map_of_mapM {f : α → Option β} {g : α → β} {l : List α} {l' : List β}
    (hg : ∀ a ∈ l, ∀ b, f a = some b → b = g a) (h : l.mapM f = some l') : l' = l.map g := by
  induction l generalizing l'
  case nil =>
    cases h
    rfl
  case cons a l hi =>
    simp only [List.mapM_cons, Option.bind_eq_bind, Option.bind_eq_some_iff] at h
    obtain ⟨b, hb, bs, hbs, he⟩ := h
    cases he
    simp only [List.mem_cons, forall_eq_or_imp] at hg
    rw [List.map_cons, hg.left b hb, hi hg.right hbs]

theorem eq_mapNum_of_mapNum? {f : ν → Option μ} (hg : ∀ n b, f n = some b → b = g n)
    {w : Json μ} (h : mapNum? f v = some w) : w = mapNum g v := by
  induction v generalizing w
  case leaf a =>
    obtain ⟨b, hb, rfl⟩ := Option.map_eq_some_iff.mp (mapNum?_leaf.symm.trans h)
    rw [mapNum_leaf]
    cases a
    case num n =>
      obtain ⟨x, hx, rfl⟩ := Option.map_eq_some_iff.mp hb
      rw [hg n x hx, Scalar.mapNum]
    all_goals
      cases hb
      rfl
  case arr vs hi =>
    obtain ⟨ws, hw, rfl⟩ := Option.map_eq_some_iff.mp (mapNum?_arr.symm.trans h)
    rw [mapNum_arr, eq_map_of_mapM (fun v hv w => hi v hv) hw]
  case obj ms hi =>
    obtain ⟨ns, hn, rfl⟩ := Option.map_eq_some_iff.mp (mapNum?_obj.symm.trans h)
    rw [mapNum_obj, onValues]
    refine congrArg obj (eq_map_of_mapM (fun m hm n he => ?_) hn)
    obtain ⟨w, hw, rfl⟩ := Option.map_eq_some_iff.mp he
    rw [hi m hm hw]

theorem mapNum_injective (h : Function.Injective f) : Function.Injective (mapNum f) := by
  intro v w hvw
  have hp (u : Json ν) : mapNum? (Function.partialInv f) (mapNum f u) = some (mapNum id u) :=
    mapNum?_mapNum (Function.partialInv_left h) u
  have := (hp v).symm.trans (hvw ▸ hp w)
  simpa [mapNum_id] using this

end Json
