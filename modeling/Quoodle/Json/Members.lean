import Mathlib

-- The members of an object: an association list, in the order in which the members were written.
namespace Json

variable {α β : Type} {ms o : List (String × α)} {k : String} {f g : α → β} {m : String × α} {v : α}

def keys (ms : List (String × α)) : List String :=
  ms.map Prod.fst

@[simp]
theorem keys_nil : keys ([] : List (String × α)) = [] :=
  rfl

@[simp]
theorem keys_cons (m : String × α) (ms : List (String × α)) : keys (m :: ms) = m.1 :: keys ms :=
  rfl

def values (ms : List (String × α)) : List α :=
  ms.map Prod.snd

def onValues (f : α → β) (ms : List (String × α)) : List (String × β) :=
  ms.map fun m => (m.1, f m.2)

@[simp]
theorem onValues_nil (f : α → β) : onValues f [] = [] :=
  rfl

@[simp]
theorem onValues_cons (f : α → β) (m : String × α) (ms : List (String × α)) :
    onValues f (m :: ms) = (m.1, f m.2) :: onValues f ms :=
  rfl

@[simp]
theorem keys_onValues (f : α → β) (ms : List (String × α)) : keys (onValues f ms) = keys ms := by
  simp [keys, onValues]

@[simp]
theorem values_onValues (f : α → β) (ms : List (String × α)) :
    values (onValues f ms) = (values ms).map f := by
  simp only [values, onValues, List.map_map, Function.comp_def]

theorem forall_mem_onValues {p : String × β → Prop} :
    (∀ m ∈ onValues f ms, p m) ↔ ∀ m ∈ ms, p (m.1, f m.2) := by
  simp only [onValues, List.forall_mem_map]

theorem onValues_congr (h : ∀ m ∈ ms, f m.2 = g m.2) : onValues f ms = onValues g ms := by
  simp only [onValues, List.map_inj_left, Prod.mk.injEq, true_and]
  exact h

theorem map_values_congr (h : ∀ m ∈ ms, f m.2 = g m.2) : (values ms).map f = (values ms).map g := by
  simp only [values, List.map_map, List.map_inj_left, Function.comp_apply]
  exact h

theorem onValues_onValues {γ : Type} (f : β → γ) (g : α → β) (ms : List (String × α)) :
    onValues f (onValues g ms) = onValues (f ∘ g) ms := by
  simp [onValues]

theorem onValues_eq_self {f : α → α} (h : ∀ m ∈ ms, f m.2 = m.2) : onValues f ms = ms := by
  induction ms
  case nil => rfl
  case cons m ms hi => simp_all

theorem onValues_eq_zip (f : α → β) (ms : List (String × α)) :
    onValues f ms = (keys ms).zip ((values ms).map f) := by
  induction ms <;> simp_all [values]

theorem onValues_eq_onValues_iff {ms ns : List (String × α)} :
    onValues f ms = onValues f ns ↔ keys ms = keys ns ∧ (values ms).map f = (values ns).map f := by
  constructor
  case mp =>
    intro h
    have hk := congrArg keys h
    have hv := congrArg values h
    simp only [keys_onValues, values_onValues] at hk hv
    exact ⟨hk, hv⟩
  case mpr =>
    intro ⟨hk, hv⟩
    rw [onValues_eq_zip, onValues_eq_zip, hk, hv]

-- Writes `v` under key `k`. A new key goes to the end.
def assign (k : String) (v : α) : List (String × α) → List (String × α)
  | [] => [(k, v)]
  | m :: ms => if m.1 = k then (k, v) :: ms else m :: assign k v ms

def assignAll (ms : List (String × α)) : List (String × α) :=
  ms.foldl (fun o m => assign m.1 m.2 o) []

theorem assign_of_notMem (h : k ∉ keys ms) : assign k v ms = ms ++ [(k, v)] := by
  induction ms
  case nil => rfl
  case cons m ms hi =>
    simp only [keys_cons, List.mem_cons, not_or] at h
    rw [assign, if_neg (Ne.symm h.left), hi h.right, List.cons_append]

theorem mem_of_mem_assign (h : m ∈ assign k v ms) : m = (k, v) ∨ m ∈ ms := by
  induction ms
  case nil => exact .inl (List.mem_singleton.mp h)
  case cons n ms hi =>
    unfold assign at h
    split at h <;> cases List.mem_cons.mp h
    case isTrue.inl h => exact .inl h
    case isTrue.inr h => exact .inr (.tail _ h)
    case isFalse.inl h => exact .inr (h ▸ .head _)
    case isFalse.inr h => exact (hi h).imp_right (.tail _)

theorem nodup_keys_assign (h : (keys ms).Nodup) : (keys (assign k v ms)).Nodup := by
  induction ms
  case nil => exact List.nodup_singleton k
  case cons n ms hi =>
    rw [keys_cons, List.nodup_cons] at h
    unfold assign
    split
    case isTrue he => exact List.nodup_cons.mpr ⟨he ▸ h.left, h.right⟩
    case isFalse hne =>
      refine List.nodup_cons.mpr ⟨fun hm => ?_, hi h.right⟩
      have ⟨m, hm, he⟩ := List.mem_map.mp hm
      cases mem_of_mem_assign hm
      case inl hk => exact hne (he ▸ hk ▸ rfl)
      case inr hm => exact h.left (he ▸ List.mem_map_of_mem hm)

theorem filter_assign (v : α) (ms : List (String × α)) :
    (assign k v ms).filter (·.1 ≠ k) = ms.filter (·.1 ≠ k) := by
  induction ms
  case nil => simp [assign]
  case cons m ms hi =>
    unfold assign
    split
    case isTrue he => simp [he]
    case isFalse he => simp only [List.filter_cons, hi]

theorem onValues_assign (f : α → β) (k : String) (v : α) (ms : List (String × α)) :
    onValues f (assign k v ms) = assign k (f v) (onValues f ms) := by
  induction ms
  case nil => rfl
  case cons m ms hi =>
    simp only [assign, onValues_cons]
    split <;> simp [hi]

theorem mem_of_lookup_eq_some (h : ms.lookup k = some v) : (k, v) ∈ ms := by
  have ⟨_, _, he, _⟩ := List.lookup_eq_some_iff.mp h
  simp [he]

theorem lookup_onValues (f : α → β) (k : String) (ms : List (String × α)) :
    (onValues f ms).lookup k = (ms.lookup k).map f := by
  induction ms
  case nil => rfl
  case cons m ms hi =>
    rw [onValues_cons, List.lookup_cons, List.lookup_cons, hi]
    cases k == m.1 <;> rfl

theorem lookup_assign_self (k : String) (v : α) (ms : List (String × α)) :
    (assign k v ms).lookup k = some v := by
  induction ms
  case nil => simp [assign]
  case cons m ms hi =>
    unfold assign
    split
    case isTrue => simp
    case isFalse he => rwa [List.lookup_cons, beq_eq_false_iff_ne.mpr (Ne.symm he)]

theorem lookup_assign_of_ne {k l : String} (h : l ≠ k) (v : α) (ms : List (String × α)) :
    (assign k v ms).lookup l = ms.lookup l := by
  induction ms
  case nil => simp [assign, List.lookup_cons, beq_eq_false_iff_ne.mpr h]
  case cons m ms hi =>
    unfold assign
    split
    case isTrue he =>
      rw [List.lookup_cons, List.lookup_cons, he, beq_eq_false_iff_ne.mpr h]
    case isFalse he => rw [List.lookup_cons, List.lookup_cons, hi]

theorem nodup_keys_foldl_assign (h : (keys o).Nodup) :
    (keys (ms.foldl (fun o m => assign m.1 m.2 o) o)).Nodup := by
  induction ms generalizing o
  case nil => exact h
  case cons m ms hi => exact hi (nodup_keys_assign h)

theorem mem_of_mem_foldl_assign
    (h : m ∈ ms.foldl (fun o m => assign m.1 m.2 o) o) : m ∈ o ∨ m ∈ ms := by
  induction ms generalizing o
  case nil => exact .inl h
  case cons n ms hi =>
    cases hi h
    case inl h => exact (mem_of_mem_assign h).elim (fun h => .inr (h ▸ .head _)) .inl
    case inr h => exact .inr (.tail _ h)

theorem nodup_keys_assignAll (ms : List (String × α)) : (keys (assignAll ms)).Nodup :=
  nodup_keys_foldl_assign (o := []) List.nodup_nil

theorem mem_of_mem_assignAll (h : m ∈ assignAll ms) : m ∈ ms :=
  (mem_of_mem_foldl_assign h).resolve_left List.not_mem_nil

theorem foldl_assign_of_nodup (h : (keys (o ++ ms)).Nodup) :
    ms.foldl (fun o m => assign m.1 m.2 o) o = o ++ ms := by
  induction ms generalizing o
  case nil => simp
  case cons m ms hi =>
    have hk : m.1 ∉ keys o := by
      simp only [keys, List.map_append, List.map_cons, List.nodup_append, List.mem_cons] at h
      exact fun hm => h.right.right m.1 hm m.1 (.inl rfl) rfl
    rw [List.foldl_cons, assign_of_notMem hk, hi (by simpa using h), List.append_assoc,
      List.singleton_append]

theorem assignAll_of_nodup (h : (keys ms).Nodup) : assignAll ms = ms :=
  foldl_assign_of_nodup (o := []) h

end Json
