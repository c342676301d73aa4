import Quoodle.Json.Members

inductive Json.Scalar (ν : Type) where
  | null
  | bool (b : Bool)
  | num (n : ν)
  | str (s : String)
  deriving DecidableEq, Repr

def Json.Scalar.Num {ν : Type} (p : ν → Prop) : Scalar ν → Prop
  | num n => p n
  | _ => True

def Json.Scalar.Text {ν : Type} (p : String → Prop) : Scalar ν → Prop
  | str s => p s
  | _ => True

instance {ν : Type} {p : ν → Prop} [DecidablePred p] : DecidablePred (Json.Scalar.Num p)
  | .num n => inferInstanceAs (Decidable (p n))
  | .null => isTrue trivial
  | .bool _ => isTrue trivial
  | .str _ => isTrue trivial

instance {ν : Type} {p : String → Prop} [DecidablePred p] : DecidablePred (@Json.Scalar.Text ν p)
  | .str s => inferInstanceAs (Decidable (p s))
  | .null => isTrue trivial
  | .bool _ => isTrue trivial
  | .num _ => isTrue trivial

-- JSON values over an arbitrary type `ν` of numbers. Objects keep their members in the order in
-- which they were written, and nothing forbids a key to occur twice (cf. `Json.Distinct`).
inductive Json (ν : Type) where
  | leaf (a : Json.Scalar ν)
  | arr (vs : List (Json ν))
  | obj (ms : List (String × Json ν))

namespace Json

variable {ν μ α β : Type}

@[match_pattern] abbrev null : Json ν := leaf .null
@[match_pattern] abbrev bool (b : Bool) : Json ν := leaf (.bool b)
@[match_pattern] abbrev num (n : ν) : Json ν := leaf (.num n)
@[match_pattern] abbrev str (s : String) : Json ν := leaf (.str s)

mutual

def decEq [DecidableEq ν] : (v w : Json ν) → Decidable (v = w)
  | leaf a, leaf b => decidable_of_iff (a = b) (by rw [leaf.injEq])
  | arr vs, arr ws => @decidable_of_iff _ (vs = ws) (by rw [arr.injEq]) (decEqList vs ws)
  | obj ms, obj ns => @decidable_of_iff _ (ms = ns) (by rw [obj.injEq]) (decEqMembers ms ns)
  | leaf _, arr _ | leaf _, obj _ | arr _, leaf _ | arr _, obj _ | obj _, leaf _ | obj _, arr _ =>
    isFalse (by simp)

def decEqList [DecidableEq ν] : (vs ws : List (Json ν)) → Decidable (vs = ws)
  | [], [] => isTrue rfl
  | v :: vs, w :: ws =>
    @decidable_of_iff _ (v = w ∧ vs = ws) (by rw [List.cons.injEq])
      (@instDecidableAnd _ _ (decEq v w) (decEqList vs ws))
  | [], _ :: _ | _ :: _, [] => isFalse (by simp)

def decEqMembers [DecidableEq ν] : (ms ns : List (String × Json ν)) → Decidable (ms = ns)
  | [], [] => isTrue rfl
  | (k, v) :: ms, (l, w) :: ns =>
    @decidable_of_iff _ (k = l ∧ v = w ∧ ms = ns) (by simp [and_assoc])
      (@instDecidableAnd _ _ _ (@instDecidableAnd _ _ (decEq v w) (decEqMembers ms ns)))
  | [], _ :: _ | _ :: _, [] => isFalse (by simp)

end

instance [DecidableEq ν] : DecidableEq (Json ν) :=
  decEq

-- The nested occurrences of `Json` are handled here once. Every function on JSON values below is an
-- instance of `fold` and every proof about one goes by `induction`.
mutual

def fold (leaf : Scalar ν → α) (arr : List α → α) (obj : List (String × α) → α) : Json ν → α
  | .leaf a => leaf a
  | .arr vs => arr (foldList leaf arr obj vs)
  | .obj ms => obj (foldMembers leaf arr obj ms)

def foldList (leaf : Scalar ν → α) (arr : List α → α) (obj : List (String × α) → α) :
    List (Json ν) → List α
  | [] => []
  | v :: vs => fold leaf arr obj v :: foldList leaf arr obj vs

def foldMembers (leaf : Scalar ν → α) (arr : List α → α) (obj : List (String × α) → α) :
    List (String × Json ν) → List (String × α)
  | [] => []
  | (k, v) :: ms => (k, fold leaf arr obj v) :: foldMembers leaf arr obj ms

end

section Fold

variable (leaf : Scalar ν → α) (arr : List α → α) (obj : List (String × α) → α)

theorem foldList_eq_map (vs : List (Json ν)) :
    foldList leaf arr obj vs = vs.map (fold leaf arr obj) := by
  induction vs <;> simp_all [foldList]

theorem foldMembers_eq_onValues (ms : List (String × Json ν)) :
    foldMembers leaf arr obj ms = onValues (fold leaf arr obj) ms := by
  induction ms <;> simp_all [foldMembers]

@[simp]
theorem fold_leaf (a : Scalar ν) : fold leaf arr obj (.leaf a) = leaf a := by
  simp [fold]

@[simp]
theorem fold_arr (vs : List (Json ν)) :
    fold leaf arr obj (.arr vs) = arr (vs.map (fold leaf arr obj)) := by
  simp [fold, foldList_eq_map]

@[simp]
theorem fold_obj (ms : List (String × Json ν)) :
    fold leaf arr obj (.obj ms) = obj (onValues (fold leaf arr obj) ms) := by
  simp [fold, foldMembers_eq_onValues]

end Fold

@[elab_as_elim, induction_eliminator]
theorem induction {motive : Json ν → Prop} (leaf : ∀ a, motive (.leaf a))
    (arr : ∀ vs, (∀ v ∈ vs, motive v) → motive (.arr vs))
    (obj : ∀ ms, (∀ m ∈ ms, motive m.2) → motive (.obj ms)) (v : Json ν) : motive v := by
  refine @Json.rec ν motive (fun vs => ∀ v ∈ vs, motive v) (fun ms => ∀ m ∈ ms, motive m.2)
    (fun m => motive m.2) leaf arr obj ?_ ?_ ?_ ?_ ?_ v
  · simp
  · intro v vs hv hvs
    simp only [List.mem_cons, forall_eq_or_imp]
    exact ⟨hv, hvs⟩
  · simp
  · intro m ms hm hms
    simp only [List.mem_cons, forall_eq_or_imp]
    exact ⟨hm, hms⟩
  · intro _ _ h
    exact h

-- `Everywhere p q v` states that `p` holds for all scalars in `v` and `q` for the keys (in order) of
-- all objects in `v`.
def Everywhere (p : Scalar ν → Prop) (q : List String → Prop) : Json ν → Prop :=
  fold p (fun hs => ∀ h ∈ hs, h) (fun ms => q (keys ms) ∧ ∀ m ∈ ms, m.2)

namespace Everywhere

variable {p p' : Scalar ν → Prop} {q q' : List String → Prop} {v : Json ν}

@[simp]
theorem leaf_iff {a : Scalar ν} : Everywhere p q (leaf a) ↔ p a := by
  simp [Everywhere]

@[simp]
theorem arr_iff {vs : List (Json ν)} : Everywhere p q (arr vs) ↔ ∀ v ∈ vs, Everywhere p q v := by
  simp only [Everywhere, fold_arr, List.forall_mem_map]

@[simp]
theorem obj_iff {ms : List (String × Json ν)} :
    Everywhere p q (obj ms) ↔ q (keys ms) ∧ ∀ m ∈ ms, Everywhere p q m.2 := by
  simp only [Everywhere, fold_obj, keys_onValues, forall_mem_onValues]

theorem and_iff : Everywhere (fun a => p a ∧ p' a) (fun ks => q ks ∧ q' ks) v ↔
      Everywhere p q v ∧ Everywhere p' q' v := by
  induction v
  case leaf => simp
  case arr vs hi =>
    simp only [arr_iff]
    exact ⟨fun h => ⟨fun v hv => (hi v hv |>.mp (h v hv)).left, fun v hv =>
      (hi v hv |>.mp (h v hv)).right⟩, fun h v hv => (hi v hv).mpr ⟨h.left v hv, h.right v hv⟩⟩
  case obj ms hi =>
    simp only [obj_iff]
    refine ⟨fun h => ⟨⟨h.left.left, fun m hm => (hi m hm |>.mp (h.right m hm)).left⟩,
      h.left.right, fun m hm => (hi m hm |>.mp (h.right m hm)).right⟩, fun h => ?_⟩
    exact ⟨⟨h.left.left, h.right.left⟩, fun m hm =>
      (hi m hm).mpr ⟨h.left.right m hm, h.right.right m hm⟩⟩

theorem imp (hp : ∀ a, p a → p' a) (hq : ∀ ks, q ks → q' ks)
    (h : Everywhere p q v) : Everywhere p' q' v := by
  induction v
  case leaf a => exact leaf_iff.mpr <| hp a (leaf_iff.mp h)
  case arr vs hi => exact arr_iff.mpr fun v hv => hi v hv (arr_iff.mp h v hv)
  case obj ms hi =>
    have ⟨hk, hm⟩ := obj_iff.mp h
    exact obj_iff.mpr ⟨hq _ hk, fun m hms => hi m hms (hm m hms)⟩

theorem congr (hp : ∀ a, p a ↔ p' a) : Everywhere p q v ↔ Everywhere p' q v :=
  ⟨imp (fun a => (hp a).mp) fun _ => id, imp (fun a => (hp a).mpr) fun _ => id⟩

def check (p : Scalar ν → Prop) (q : List String → Prop) [DecidablePred p] [DecidablePred q] :
    Json ν → Bool :=
  fold (fun a => decide (p a)) (fun bs => bs.all id)
    (fun ms => decide (q (keys ms)) && ms.all Prod.snd)

theorem check_iff [DecidablePred p] [DecidablePred q] : check p q v = true ↔ Everywhere p q v := by
  induction v
  case leaf => simp [check]
  case arr vs hi =>
    simp only [check, fold_arr, List.all_map, List.all_eq_true, arr_iff]
    exact forall₂_congr hi
  case obj ms hi =>
    simp only [check, fold_obj, keys_onValues, Bool.and_eq_true, decide_eq_true_eq,
      List.all_eq_true, forall_mem_onValues, obj_iff]
    exact and_congr_right fun _ => forall₂_congr hi

instance [DecidablePred p] [DecidablePred q] : DecidablePred (Everywhere p q) :=
  fun _ => decidable_of_iff _ check_iff

end Everywhere

def Nums (p : ν → Prop) : Json ν → Prop :=
  Everywhere (Scalar.Num p) fun _ => True

namespace Nums

variable {p : ν → Prop} {c p' : ν → Prop} {v : Json ν}

instance [DecidablePred p] : DecidablePred (Nums p) :=
  inferInstanceAs (DecidablePred (Everywhere _ _))

@[simp]
theorem leaf_iff {a : Scalar ν} : Nums p (leaf a) ↔ a.Num p :=
  Everywhere.leaf_iff

@[simp]
theorem arr_iff {vs : List (Json ν)} : Nums p (arr vs) ↔ ∀ v ∈ vs, Nums p v :=
  Everywhere.arr_iff

@[simp]
theorem obj_iff {ms : List (String × Json ν)} : Nums p (obj ms) ↔ ∀ m ∈ ms, Nums p m.2 := by
  simp only [Nums, Everywhere.obj_iff, true_and]

theorem of_forall (h : ∀ n, p n) (v : Json ν) : Nums p v := by
  induction v
  case leaf a => cases a <;> simp [Scalar.Num, h]
  case arr vs hi => exact arr_iff.mpr hi
  case obj ms hi => exact obj_iff.mpr hi

theorem imp (hp : ∀ n, p n → p' n) (h : Nums p v) : Nums p' v :=
  Everywhere.imp (fun | .num n, hn => hp n hn | .null, _ | .bool _, _ | .str _, _ => trivial)
    (fun _ => id) h

theorem and_iff : Nums (fun n => p n ∧ p' n) v ↔ Nums p v ∧ Nums p' v :=
  ⟨fun h => ⟨h.imp fun _ => And.left, h.imp fun _ => And.right⟩, fun ⟨h, h'⟩ =>
    (Everywhere.and_iff.mpr ⟨h, h'⟩).imp
      (fun | .num _, hn => hn | .null, _ | .bool _, _ | .str _, _ => trivial) fun _ _ => trivial⟩

theorem everywhere_congr {p p' : Scalar ν → Prop} {q : List String → Prop}
    (hc : Nums c v) (h : ∀ a, a.Num c → (p a ↔ p' a)) : Everywhere p q v ↔ Everywhere p' q v :=
  ⟨fun hp => (Everywhere.and_iff.mpr ⟨hc, hp⟩).imp (fun a ha => (h a ha.left).mp ha.right)
      fun _ => And.right,
    fun hp => (Everywhere.and_iff.mpr ⟨hc, hp⟩).imp (fun a ha => (h a ha.left).mpr ha.right)
      fun _ => And.right⟩

theorem congr (hc : Nums c v) (h : ∀ n, c n → (p n ↔ p' n)) : Nums p v ↔ Nums p' v :=
  hc.everywhere_congr
    fun | .num n, hn => h n hn | .null, _ | .bool _, _ | .str _, _ => .rfl

end Nums

def Texts (p : String → Prop) : Json ν → Prop :=
  Everywhere (Scalar.Text p) fun ks => ∀ k ∈ ks, p k

namespace Texts

variable {p : String → Prop}

instance [DecidablePred p] : DecidablePred (@Texts ν p) :=
  inferInstanceAs (DecidablePred (Everywhere _ _))

@[simp]
theorem leaf_iff {a : Scalar ν} : Texts p (leaf a) ↔ a.Text p :=
  Everywhere.leaf_iff

@[simp]
theorem arr_iff {vs : List (Json ν)} : Texts p (arr vs) ↔ ∀ v ∈ vs, Texts p v :=
  Everywhere.arr_iff

@[simp]
theorem obj_iff {ms : List (String × Json ν)} :
    Texts p (obj ms) ↔ (∀ k ∈ keys ms, p k) ∧ ∀ m ∈ ms, Texts p m.2 :=
  Everywhere.obj_iff

theorem of_forall (h : ∀ s, p s) (v : Json ν) : Texts p v := by
  induction v
  case leaf a => cases a <;> simp [Scalar.Text, h]
  case arr vs hi => exact arr_iff.mpr hi
  case obj ms hi => exact obj_iff.mpr ⟨fun k _ => h k, hi⟩

end Texts

-- `q` holds for the keys of all objects in `v`.
def Objects (q : List String → Prop) : Json ν → Prop :=
  Everywhere (fun _ => True) q

namespace Objects

variable {q : List String → Prop}

instance [DecidablePred q] : DecidablePred (@Objects ν q) :=
  inferInstanceAs (DecidablePred (Everywhere _ _))

@[simp]
theorem leaf {a : Scalar ν} : Objects q (leaf a) := by
  simp [Objects]

@[simp]
theorem arr_iff {vs : List (Json ν)} : Objects q (arr vs) ↔ ∀ v ∈ vs, Objects q v :=
  Everywhere.arr_iff

@[simp]
theorem obj_iff {ms : List (String × Json ν)} :
    Objects q (obj ms) ↔ q (keys ms) ∧ ∀ m ∈ ms, Objects q m.2 :=
  Everywhere.obj_iff

end Objects

def Distinct : Json ν → Prop :=
  Objects List.Nodup

instance : DecidablePred (@Distinct ν) :=
  inferInstanceAs (DecidablePred (Objects _))

namespace Distinct

@[simp]
theorem leaf {a : Scalar ν} : Distinct (leaf a) := by
  simp [Distinct]

@[simp]
theorem arr_iff {vs : List (Json ν)} : Distinct (arr vs) ↔ ∀ v ∈ vs, Distinct v :=
  Everywhere.arr_iff

@[simp]
theorem obj_iff {ms : List (String × Json ν)} :
    Distinct (obj ms) ↔ (keys ms).Nodup ∧ ∀ m ∈ ms, Distinct m.2 :=
  Everywhere.obj_iff

end Distinct

end Json
