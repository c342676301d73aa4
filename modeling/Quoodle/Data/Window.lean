import Mathlib

-- A memory of the last few things that happened, by which the repetition of one of them is noticed.
namespace Window

variable {α κ : Type} {n : Nat} {x : α} {xs ys : List α}

def last (n : Nat) (xs : List α) : List α :=
  xs.drop (xs.length - n)

theorem length_last : (last n xs).length = min n xs.length := by
  rw [last, List.length_drop]
  omega

theorem last_suffix : last n xs <:+ xs :=
  List.drop_suffix _ _

theorem last_of_length_le (h : xs.length ≤ n) : last n xs = xs := by
  rw [last, Nat.sub_eq_zero_of_le h, List.drop_zero]

theorem last_last_append : last n (last n xs ++ [x]) = last n (xs ++ [x]) := by
  by_cases h : xs.length ≤ n
  case pos => rw [last_of_length_le h]
  have hl : (last n xs).length = n := by
    rw [length_last]
    omega
  unfold last at hl ⊢
  simp only [List.length_append, List.length_singleton, hl]
  cases n
  case zero => simp
  case succ m =>
    rw [List.drop_append_of_le_length (by omega), List.drop_append_of_le_length (by omega),
      List.drop_drop]
    congr 2
    omega

theorem last_suffix_of_notMem (hx : x ∈ ys) (hn : x ∉ last n (xs ++ ys)) :
    last n (xs ++ ys) <:+ ys ∧ (last n (xs ++ ys)).length = n := by
  constructor
  · refine (List.suffix_or_suffix_of_suffix last_suffix (List.suffix_append xs ys)).resolve_right ?_
    exact fun hs => hn (hs.subset hx)
  · rw [length_last]
    refine min_eq_left (le_of_not_ge fun hl => hn ?_)
    rw [last_of_length_le hl]
    exact List.mem_append_right xs hx

inductive Event (α κ : Type) where
  | run (k : κ)
  | remember (a : α)

def remembered (l : List (Event α κ)) : List α :=
  l.filterMap fun
    | .run _ => none
    | .remember a => some a

@[simp]
theorem remembered_append (l l' : List (Event α κ)) :
    remembered (l ++ l') = remembered l ++ remembered l' :=
  List.filterMap_append

@[simp]
theorem remembered_run (k : κ) (l : List (Event α κ)) : remembered (.run k :: l) = remembered l :=
  rfl

@[simp]
theorem remembered_remember (a : α) (l : List (Event α κ)) :
    remembered (.remember a :: l) = a :: remembered l :=
  rfl

@[simp]
theorem remembered_nil : remembered ([] : List (Event α κ)) = [] :=
  rfl

-- Nothing is run or remembered unless it is not in the memory, and whatever is run is remembered.
inductive Log (key : α → κ) (n : Nat) : List (Event α κ) → Prop
  | nil : Log key n []
  | remember {l : List (Event α κ)} {a : α} :
    Log key n l → key a ∉ (last n (remembered l)).map key → Log key n (l ++ [.remember a])
  | run {l : List (Event α κ)} {a : α} :
    Log key n l → key a ∉ (last n (remembered l)).map key →
      Log key n (l ++ [.run (key a), .remember a])

namespace Log

variable {key : α → κ} {l l₁ l₂ l₃ : List (Event α κ)} {k : κ} {a : α}

theorem nodup_last_append (h : ((last n xs).map key).Nodup) (hn : key a ∉ (last n xs).map key) :
    ((last n (xs ++ [a])).map key).Nodup := by
  rw [← last_last_append]
  refine List.Nodup.sublist (last_suffix.sublist.map key) ?_
  rw [List.map_append, List.map_singleton]
  exact h.append (List.nodup_singleton _) (by simpa using hn)

theorem nodup (h : Log key n l) : ((last n (remembered l)).map key).Nodup := by
  induction h
  case nil => simp [last]
  case remember l a _ hn hi | run l a _ hn hi => simpa using nodup_last_append hi hn

theorem concat_eq {e e' : Event α κ} (h : l ++ [e'] = l₁ ++ e :: l₂) :
    l₂ = [] ∧ l = l₁ ∧ e' = e ∨ ∃ l₃, l₂ = l₃ ++ [e'] ∧ l = l₁ ++ e :: l₃ := by
  obtain rfl | ⟨l₃, e₃, rfl⟩ := List.eq_nil_or_concat l₂
  · obtain ⟨hl, he⟩ := List.append_inj' h rfl
    exact .inl ⟨rfl, hl, List.singleton_inj.mp he⟩
  · have hx : l ++ [e'] = (l₁ ++ e :: l₃) ++ [e₃] := by simpa using h
    obtain ⟨hl, he⟩ := List.append_inj' hx rfl
    exact .inr ⟨l₃, by rw [List.singleton_inj.mp he, List.concat_eq_append], hl⟩

theorem exists_remembered (h : Log key n l) (hl : l = l₁ ++ .run k :: l₂) :
    ∃ a ∈ remembered l₂, key a = k := by
  induction h generalizing l₂
  case nil => simp at hl
  case remember l a h hn hi =>
    obtain ⟨_, _, he⟩ | ⟨l₃, rfl, hl'⟩ := concat_eq hl
    · cases he
    · obtain ⟨b, hb, hk⟩ := hi hl'
      exact ⟨b, by simp [hb], hk⟩
  case run l a h hn hi =>
    have hx : (l ++ [.run (key a)]) ++ [.remember a] = l₁ ++ .run k :: l₂ := by simpa using hl
    obtain ⟨_, _, he⟩ | ⟨l₃, rfl, hr⟩ := concat_eq hx
    · cases he
    · obtain ⟨rfl, _, he⟩ | ⟨l₄, rfl, hl'⟩ := concat_eq hr
      · cases he
        exact ⟨a, by simp, rfl⟩
      · obtain ⟨b, hb, hk⟩ := hi hl'
        exact ⟨b, by simp [hb], hk⟩

-- What is run again was forgotten, so that the memory is full of other things that came after it.
theorem le_card_of_forgotten [DecidableEq κ] (h : Log key n (l₁ ++ .run k :: l₂))
    (hn : k ∉ (last n (remembered (l₁ ++ .run k :: l₂))).map key) :
    n ≤ (((remembered l₂).map key).filter (· ≠ k)).toFinset.card := by
  obtain ⟨a, ha, rfl⟩ := h.exists_remembered rfl
  rw [remembered_append, remembered_run] at hn
  obtain ⟨hs, hl⟩ := last_suffix_of_notMem ha fun hm => hn (List.mem_map_of_mem hm)
  have hd := h.nodup
  rw [remembered_append, remembered_run] at hd
  set m := last n (remembered l₁ ++ remembered l₂)
  calc n = (m.map key).toFinset.card := by rw [List.toFinset_card_of_nodup hd, List.length_map, hl]
    _ ≤ _ := by
      refine Finset.card_le_card fun b hb => ?_
      rw [List.mem_toFinset] at hb ⊢
      refine List.mem_filter.mpr ⟨(hs.map key).subset hb, ?_⟩
      exact decide_eq_true (ne_of_mem_of_not_mem hb hn)

theorem le_card [DecidableEq κ] (h : Log key n l) (hl : l = l₁ ++ .run k :: (l₂ ++ .run k :: l₃)) :
    n ≤ (((remembered l₂).map key).filter (· ≠ k)).toFinset.card := by
  induction h generalizing l₃
  case nil => simp at hl
  case remember l a h hn hi =>
    have hx : l ++ [.remember a] = (l₁ ++ .run k :: l₂) ++ .run k :: l₃ := by simpa using hl
    obtain ⟨_, _, he⟩ | ⟨l₄, rfl, hl'⟩ := concat_eq hx
    · cases he
    · exact hi (by simpa using hl')
  case run l a h hn hi =>
    have hx : (l ++ [.run (key a)]) ++ [.remember a] = (l₁ ++ .run k :: l₂) ++ .run k :: l₃ := by
      simpa using hl
    obtain ⟨_, _, he⟩ | ⟨l₄, rfl, hr⟩ := concat_eq hx
    · cases he
    · obtain ⟨_, rfl, he⟩ | ⟨l₅, rfl, hl'⟩ := concat_eq hr
      · cases he
        exact h.le_card_of_forgotten hn
      · exact hi (by simpa using hl')

end Log

end Window
