import Mathlib

-- Searching a list for the first occurrence of another one, and for its best element.
namespace Search

section Best

variable {ι : Type} {skip : ι → Bool} {priority : ι → Nat} {is : List ι} {best : Nat × Option ι}

def improve (skip : ι → Bool) (priority : ι → Nat) (best : Nat × Option ι) (i : ι) :
    Nat × Option ι :=
  if skip i then best else if priority i < best.1 then (priority i, some i) else best

theorem isSome_improve_iff {i : ι} :
    (improve skip priority best i).2.isSome ↔
      best.2.isSome ∨ skip i = false ∧ priority i < best.1 := by
  unfold improve
  split
  case isTrue h => simp [h]
  case isFalse h =>
    split
    case isTrue hp => simp [h, hp]
    case isFalse hp => simp [hp]

theorem isSome_foldl_improve_iff :
    (is.foldl (improve skip priority) best).2.isSome ↔
      best.2.isSome ∨ ∃ i ∈ is, skip i = false ∧ priority i < best.1 := by
  induction is generalizing best
  case nil => simp
  case cons i is hi =>
    rw [List.foldl_cons, hi, isSome_improve_iff, List.exists_mem_cons_iff, or_assoc]
    by_cases hc : skip i = false ∧ priority i < best.1
    case pos => simp [hc]
    have he : improve skip priority best i = best := by
      unfold improve
      split
      case isTrue => rfl
      case isFalse h => exact if_neg fun hp => hc ⟨by simpa using h, hp⟩
    rw [he]

theorem of_foldl_improve_eq_some {i : ι} (h : (is.foldl (improve skip priority) best).2 = some i) :
    best.2 = some i ∨ i ∈ is ∧ skip i = false := by
  induction is generalizing best
  case nil => exact .inl h
  case cons j is hi =>
    cases hi h
    case inr h => exact .inr ⟨List.mem_cons_of_mem _ h.left, h.right⟩
    case inl h =>
      unfold improve at h
      split at h
      case isTrue => exact .inl h
      case isFalse hs =>
        split at h
        case isFalse => exact .inl h
        obtain rfl : j = i := Option.some.inj h
        exact .inr ⟨List.mem_cons_self, by simpa using hs⟩

theorem foldl_improve_eq_self (h : (is.foldl (improve skip priority) best).2 = none) :
    is.foldl (improve skip priority) best = best := by
  induction is generalizing best
  case nil => rfl
  case cons i is hi =>
    rw [List.foldl_cons] at h ⊢
    have he := hi h
    rw [he] at h ⊢
    unfold improve at h ⊢
    split at h
    case isTrue hs => exact if_pos hs
    case isFalse hs =>
      rw [if_neg hs]
      split at h
      case isTrue => cases h
      case isFalse hp => exact if_neg hp

end Best

variable {α : Type} {needle l : List α} {a : α}

theorem not_isPrefix_append_cons (hl : ¬needle <+: l) (ha : a ∉ needle) (r : List α) :
    ¬needle <+: l ++ a :: r := by
  intro hp
  cases Nat.lt_or_ge l.length needle.length
  case inr h => exact hl (List.prefix_of_prefix_length_le hp (List.prefix_append l _) h)
  case inl h =>
    have hm : l ++ [a] <+: needle := by
      apply List.prefix_of_prefix_length_le _ hp (by simpa using h)
      exact ⟨r, by simp⟩
    exact ha (hm.subset (by simp))

theorem isInfix_append_cons_iff (ha : a ∉ needle) {r : List α} :
    needle <:+: l ++ a :: r ↔ needle <:+: l ∨ needle <:+: r := by
  constructor
  case mp =>
    intro h
    have hp {l : List α} (h : needle <+: l ++ a :: r) : needle <:+: l := by
      by_contra hl
      exact not_isPrefix_append_cons (fun h => hl h.isInfix) ha r h
    induction l
    case nil => exact (List.infix_cons_iff.mp h).imp_left hp
    case cons b l hi =>
      cases List.infix_cons_iff.mp h
      case inl h => exact .inl (hp h)
      case inr h => exact (hi h).imp_left fun h => h.trans (List.suffix_cons b l).isInfix
  case mpr =>
    intro h
    cases h
    case inl h => exact h.trans (List.prefix_append l _).isInfix
    case inr h => exact h.trans ((List.suffix_cons a r).trans (List.suffix_append l _)).isInfix

variable [DecidableEq α]

def after (needle : List α) : List α → Option (List α)
  | [] => if needle = [] then some [] else none
  | a :: as => if needle <+: a :: as then some ((a :: as).drop needle.length) else after needle as

theorem after_append (needle r : List α) : after needle (needle ++ r) = some r := by
  have h := List.prefix_append needle r
  have hd : (needle ++ r).drop needle.length = r := List.drop_left
  cases hl : needle ++ r
  case nil => simp_all [after]
  case cons a l =>
    rw [hl] at h hd
    rw [after, if_pos h, hd]

theorem after_append_cons (hl : ¬needle <:+: l) (ha : a ∉ needle) (r : List α) :
    after needle (l ++ a :: r) = after needle r := by
  induction l
  case nil => exact if_neg <| not_isPrefix_append_cons (fun h => hl h.isInfix) ha r
  case cons b l hi =>
    have hp : ¬needle <+: b :: (l ++ a :: r) :=
      not_isPrefix_append_cons (fun h => hl h.isInfix) ha r
    rw [List.cons_append, after, if_neg hp]
    exact hi fun h => hl (h.trans (List.suffix_cons b l).isInfix)

end Search
