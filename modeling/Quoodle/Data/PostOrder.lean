import Mathlib

-- Depth-first search over a graph with a stack instead of a recursion. The nodes are listed when all
-- that was found behind them has been listed.
namespace PostOrder

open Relation

variable {α : Type}

-- An entry of the stack is expanded once its successors have been put above it.
structure Search (α : Type) where
  stack : List (α × Bool)
  seen : List α
  ordered : List α

def start (root : α) : Search α :=
  ⟨[(root, false)], [], []⟩

variable (next : α → List α)

def step [DecidableEq α] (s : Search α) : Search α :=
  match s.stack with
  | [] => s
  | (v, true) :: stack => { s with stack := stack, ordered := s.ordered ++ [v] }
  | (v, false) :: stack =>
    if v ∈ s.seen then { s with stack := stack }
    else {
      s with
      stack := (next v).map (·, false) ++ (v, true) :: stack
      seen := v :: s.seen
    }

def run [DecidableEq α] : Nat → Search α → Option (List α)
  | 0, _ => none
  | n + 1, s => if s.stack = [] then some s.ordered else run n (step next s)

-- Enough steps for a search that stays within the given nodes.
def fuel (nodes : List α) : Nat :=
  (nodes.map fun v => (next v).length + 1).sum + 2

def Edge (v c : α) : Prop :=
  c ∈ next v

def Acyclic (root : α) : Prop :=
  ∀ v, ReflTransGen (Edge next) root v → ¬TransGen (Edge next) v v

structure IsPostOrder [DecidableEq α] (root : α) (order : List α) : Prop where
  nodup : order.Nodup
  mem_iff : ∀ v, v ∈ order ↔ ReflTransGen (Edge next) root v
  last : order.getLast? = some root
  descendants : Acyclic next root → ∀ v ∈ order, ∀ d, TransGen (Edge next) v d →
    order.idxOf d < order.idxOf v

-- When an expanded entry gets to the top, all its successors have been seen: those that have not
-- been seen yet are above it.
def Covered (seen : List α) : List (α × Bool) → Prop
  | [] => True
  | (v, true) :: stack => (∀ c ∈ next v, c ∈ seen) ∧ Covered seen stack
  | (v, false) :: stack => Covered (v :: seen) stack

variable {next} {root v : α} {s : Search α} {seen seen' : List α} {stack : List (α × Bool)}

theorem Covered.mono (h : Covered next seen stack) (hs : seen ⊆ seen') :
    Covered next seen' stack := by
  induction stack generalizing seen seen'
  case nil => trivial
  case cons e stack hi =>
    obtain ⟨v, _ | _⟩ := e
    case false => exact hi h (List.cons_subset_cons v hs)
    case true => exact ⟨fun c hc => hs (h.left c hc), hi h.right hs⟩

theorem Covered.append {cs : List α} (h : Covered next (cs.reverse ++ seen) stack) :
    Covered next seen (cs.map (·, false) ++ stack) := by
  induction cs generalizing seen
  case nil => exact h
  case cons c cs hi =>
    have hc : Covered next (cs.reverse ++ c :: seen) stack := by simpa using h
    exact hi hc

variable [DecidableEq α]

-- What holds at every point of a search from the root.
structure Visits (next : α → List α) (root : α) (s : Search α) : Prop where
  nodup : s.ordered.Nodup
  fresh : ∀ v, (v, true) ∈ s.stack → v ∉ s.ordered
  distinct : s.stack.Pairwise fun x y => x.2 = true → y.2 = true → x.1 ≠ y.1
  mem_seen : ∀ v, v ∈ s.seen ↔ v ∈ s.ordered ∨ (v, true) ∈ s.stack
  found : ∀ v, v ∈ s.seen ∨ (v, false) ∈ s.stack → ReflTransGen (Edge next) root v
  above : s.stack.Pairwise fun x y => y.2 = true → TransGen (Edge next) y.1 x.1
  covered : Covered next s.seen s.stack
  closed : ∀ v ∈ s.ordered, ∀ c ∈ next v, c ∈ s.seen
  bottom : s = start root ∨ (∃ above, s.stack = above ++ [(root, true)]) ∨
    (s.stack = [] ∧ s.ordered.getLast? = some root)
  order : Acyclic next root → ∀ v ∈ s.ordered, ∀ c ∈ next v,
    s.ordered.idxOf c < s.ordered.idxOf v

namespace Visits

theorem start : Visits next root (start root) where
  nodup := .nil
  fresh := by simp [PostOrder.start]
  distinct := List.pairwise_singleton _ _
  mem_seen := by simp [PostOrder.start]
  found := by
    intro v hv
    obtain rfl : v = root := by simpa [PostOrder.start] using hv
    exact .refl
  above := List.pairwise_singleton _ _
  covered := trivial
  closed := nofun
  bottom := .inl rfl
  order := nofun

theorem bottom_cons {e : α × Bool} (h : Visits next root s) (hs : s.stack = e :: stack) :
    s = PostOrder.start root ∨ (e = (root, true) ∧ stack = []) ∨
      ∃ above, stack = above ++ [(root, true)] := by
  rcases h.bottom with h | ⟨above, ha⟩ | ⟨he, -⟩
  case inl => exact .inl h
  case inr.inl =>
    rw [hs] at ha
    cases above
    case nil => exact .inr (.inl (List.cons_eq_cons.mp ha))
    case cons above => exact .inr (.inr ⟨above, (List.cons_eq_cons.mp ha).right⟩)
  case inr.inr =>
    rw [hs] at he
    cases he

theorem mem_ordered_of_acyclic {c : α} (h : Visits next root s) (hs : s.stack = (v, true) :: stack)
    (hy : Acyclic next root) (he : c ∈ next v) (hc : c ∈ s.seen) : c ∈ s.ordered := by
  have hv : v ∈ s.seen := (h.mem_seen v).mpr (.inr (hs ▸ List.mem_cons_self))
  have hr := h.found v (.inl hv)
  cases (h.mem_seen c).mp hc
  case inl hm => exact hm
  case inr hm =>
    rw [hs] at hm
    cases List.mem_cons.mp hm
    case inl hm =>
      cases hm
      exact absurd (.single he) (hy v hr)
    case inr hm =>
      have ⟨ha, _⟩ := List.pairwise_cons.mp (hs ▸ h.above)
      exact absurd (.head he (ha _ hm rfl)) (hy v hr)

theorem emit (h : Visits next root s) (hs : s.stack = (v, true) :: stack) :
    Visits next root { s with stack := stack, ordered := s.ordered ++ [v] } := by
  have ⟨hv, hd⟩ := List.pairwise_cons.mp (hs ▸ h.distinct)
  have ⟨ha, hp⟩ := List.pairwise_cons.mp (hs ▸ h.above)
  have hc : Covered next s.seen ((v, true) :: stack) := hs ▸ h.covered
  have hn : v ∉ s.ordered := h.fresh v (hs ▸ List.mem_cons_self)
  constructor
  case nodup =>
    refine List.nodup_append.mpr ⟨h.nodup, List.nodup_singleton v, ?_⟩
    rintro x hx _ hv rfl
    exact hn (List.mem_singleton.mp hv ▸ hx)
  case fresh =>
    intro w hw hm
    cases List.mem_append.mp hm
    case inl hm => exact h.fresh w (hs ▸ List.mem_cons_of_mem _ hw) hm
    case inr hm => exact hv _ hw rfl rfl (List.mem_singleton.mp hm).symm
  case distinct => exact hd
  case mem_seen =>
    intro w
    rw [h.mem_seen, hs]
    simp only [List.mem_append, List.mem_cons, Prod.mk.injEq, and_true, List.not_mem_nil, or_false]
    exact or_assoc.symm
  case found => exact fun w hw => h.found w (hw.imp_right fun hw => hs ▸ List.mem_cons_of_mem _ hw)
  case above => exact hp
  case covered => exact hc.right
  case closed =>
    intro w hw
    cases List.mem_append.mp hw
    case inl hw => exact h.closed w hw
    case inr hw => exact List.mem_singleton.mp hw ▸ hc.left
  case bottom =>
    rcases h.bottom_cons hs with rfl | ⟨he, rfl⟩ | hb
    case inl => cases hs
    case inr.inl =>
      cases he
      exact .inr (.inr ⟨rfl, List.getLast?_concat⟩)
    case inr.inr => exact .inr (.inl hb)
  case order =>
    intro hy w hw c he
    cases List.mem_append.mp hw
    case inl hw =>
      have hlt := h.order hy w hw c he
      have hm := List.idxOf_lt_length_iff.mp (hlt.trans (List.idxOf_lt_length_iff.mpr hw))
      rwa [List.idxOf_append_of_mem hm, List.idxOf_append_of_mem hw]
    case inr hw =>
      obtain rfl := List.mem_singleton.mp hw
      have hm : c ∈ s.ordered := h.mem_ordered_of_acyclic hs hy he (hc.left c he)
      rw [List.idxOf_append_of_mem hm, List.idxOf_append_of_notMem hn]
      exact Nat.lt_add_right _ (List.idxOf_lt_length_iff.mpr hm)

theorem skip (h : Visits next root s) (hs : s.stack = (v, false) :: stack) (hv : v ∈ s.seen) :
    Visits next root { s with stack := stack } := by
  have hd := (List.pairwise_cons.mp (hs ▸ h.distinct)).right
  have hp := (List.pairwise_cons.mp (hs ▸ h.above)).right
  have hc : Covered next (v :: s.seen) stack := by
    have hc := h.covered
    rwa [hs] at hc
  have ht {e : α × Bool} (he : e ∈ stack) : e ∈ s.stack := hs ▸ List.mem_cons_of_mem _ he
  constructor
  case nodup => exact h.nodup
  case fresh => exact fun w hw => h.fresh w (ht hw)
  case distinct => exact hd
  case mem_seen =>
    intro w
    rw [h.mem_seen, hs]
    simp
  case found => exact fun w hw => h.found w (hw.imp_right ht)
  case above => exact hp
  case covered => exact hc.mono (List.cons_subset.mpr ⟨hv, fun _ hw => hw⟩)
  case closed => exact h.closed
  case bottom =>
    rcases h.bottom_cons hs with rfl | ⟨he, -⟩ | hb
    case inl => exact absurd hv List.not_mem_nil
    case inr.inl => cases he
    case inr.inr => exact .inr (.inl hb)
  case order => exact h.order

theorem expand (h : Visits next root s) (hs : s.stack = (v, false) :: stack) (hv : v ∉ s.seen) :
    Visits next root {
      s with
      stack := (next v).map (·, false) ++ (v, true) :: stack
      seen := v :: s.seen
    } := by
  have ⟨_, hd⟩ := List.pairwise_cons.mp (hs ▸ h.distinct)
  have ⟨ha, hp⟩ := List.pairwise_cons.mp (hs ▸ h.above)
  have hc : Covered next (v :: s.seen) stack := by
    have hc := h.covered
    rwa [hs] at hc
  have ht {e : α × Bool} (he : e ∈ stack) : e ∈ s.stack := hs ▸ List.mem_cons_of_mem _ he
  have hr : ReflTransGen (Edge next) root v := h.found v (.inr (hs ▸ List.mem_cons_self))
  have hn {w : α} (hw : (w, true) ∈ stack) : v ≠ w := by
    rintro rfl
    exact hv ((h.mem_seen v).mpr (.inr (ht hw)))
  constructor
  case nodup => exact h.nodup
  case fresh =>
    intro w hw
    simp only [List.mem_append, List.mem_map, List.mem_cons, Prod.mk.injEq, and_true] at hw
    rcases hw with ⟨_, _, _, hf⟩ | rfl | hw
    case inl => cases hf
    case inr.inl => exact fun hm => hv ((h.mem_seen w).mpr (.inl hm))
    case inr.inr => exact h.fresh w (ht hw)
  case distinct =>
    refine List.pairwise_append.mpr ⟨?_, List.pairwise_cons.mpr ⟨?_, hd⟩, ?_⟩
    · exact List.pairwise_map.mpr (List.pairwise_of_forall fun _ _ hf => by cases hf)
    · rintro ⟨w, _⟩ hw - rfl
      exact hn hw
    · rintro e he _ - hf
      obtain ⟨_, _, rfl⟩ := List.mem_map.mp he
      cases hf
  case mem_seen =>
    intro w
    rw [List.mem_cons, h.mem_seen, hs]
    simp only [List.mem_append, List.mem_map, List.mem_cons, Prod.mk.injEq, and_true, and_false,
      Bool.true_eq_false, Bool.false_eq_true, exists_false, false_or]
    tauto
  case found =>
    intro w hw
    simp only [List.mem_append, List.mem_map, List.mem_cons, Prod.mk.injEq] at hw
    rcases hw with (rfl | hw) | ⟨_, hc, rfl, _⟩ | ⟨_, hf⟩ | hw
    case inl.inl => exact hr
    case inl.inr => exact h.found w (.inl hw)
    case inr.inl => exact hr.tail hc
    case inr.inr.inl => cases hf
    case inr.inr.inr => exact h.found w (.inr (ht hw))
  case above =>
    refine List.pairwise_append.mpr ⟨?_, List.pairwise_cons.mpr ⟨ha, hp⟩, ?_⟩
    · exact List.pairwise_map.mpr (List.pairwise_of_forall fun _ _ hf => by cases hf)
    · rintro e he y hy ht
      obtain ⟨c, hc, rfl⟩ := List.mem_map.mp he
      cases List.mem_cons.mp hy
      case inl hy => exact hy ▸ .single hc
      case inr hy => exact (ha y hy ht).tail hc
  case covered =>
    refine Covered.append ⟨fun c hc => ?_, ?_⟩
    · exact List.mem_append_left _ (List.mem_reverse.mpr hc)
    · exact hc.mono (List.subset_append_right _ _)
  case closed => exact fun w hw c he => List.mem_cons_of_mem v (h.closed w hw c he)
  case bottom =>
    refine .inr (.inl ?_)
    rcases h.bottom_cons hs with rfl | ⟨he, -⟩ | ⟨above, rfl⟩
    case inl =>
      cases hs
      exact ⟨_, rfl⟩
    case inr.inl => cases he
    case inr.inr => exact ⟨(next v).map (·, false) ++ (v, true) :: above, by simp⟩
  case order => exact h.order

protected theorem step (h : Visits next root s) : Visits next root (step next s) := by
  unfold PostOrder.step
  split
  case h_1 => exact h
  case h_2 hs => exact h.emit hs
  case h_3 hs =>
    split
    case isTrue hv => exact h.skip hs hv
    case isFalse hv => exact h.expand hs hv

theorem run {order : List α} {n : Nat} (h : Visits next root s)
    (hr : run next n s = some order) :
    ∃ s', Visits next root s' ∧ s'.stack = [] ∧ s'.ordered = order := by
  induction n generalizing s
  case zero => cases hr
  case succ n hi =>
    rw [PostOrder.run] at hr
    split at hr
    case isTrue hs => exact ⟨s, h, hs, Option.some.inj hr⟩
    case isFalse => exact hi h.step hr

theorem isPostOrder (h : Visits next root s) (hs : s.stack = []) :
    IsPostOrder next root s.ordered := by
  have hm (v : α) : v ∈ s.seen ↔ v ∈ s.ordered := by simp [h.mem_seen, hs]
  have hl : s.ordered.getLast? = some root := by
    rcases h.bottom with rfl | ⟨_, ha⟩ | ⟨_, hl⟩
    case inl => cases hs
    case inr.inl =>
      rw [hs] at ha
      cases List.append_ne_nil_of_right_ne_nil _ (List.cons_ne_nil _ _) ha.symm
    case inr.inr => exact hl
  refine ⟨h.nodup, fun v => ⟨fun hv => h.found v (.inl ((hm v).mpr hv)), fun hr => ?_⟩, hl, ?_⟩
  · induction hr
    case refl => exact List.mem_of_getLast? hl
    case tail v c _ he hv => exact (hm c).mp (h.closed v hv c he)
  · intro hy v hv d hd
    have hs {v c : α} (hv : v ∈ s.ordered) (he : c ∈ next v) : c ∈ s.ordered :=
      (hm c).mp (h.closed v hv c he)
    induction hd using TransGen.head_induction_on
    case single he => exact h.order hy _ hv _ he
    case head he _ hi => exact (hi (hs hv he)).trans (h.order hy _ hv _ he)

end Visits

section Termination

variable (next) (nodes : List α)

def weight (seen : List α) : Nat :=
  ((nodes.filter (· ∉ seen)).map fun v => (next v).length + 1).sum

variable {next nodes}

theorem weight_cons_le (v : α) : weight next nodes (v :: seen) ≤ weight next nodes seen := by
  refine List.Sublist.sum_le_sum (List.Sublist.map _ (List.monotone_filter_right _ ?_)) (by simp)
  simp +contextual

theorem weight_cons (hm : v ∈ nodes) (hv : v ∉ seen) :
    weight next nodes (v :: seen) + (next v).length + 1 ≤ weight next nodes seen := by
  induction nodes
  case nil => cases hm
  case cons u nodes hi =>
    by_cases he : u = v
    case pos =>
      subst he
      have hle : weight next nodes (u :: seen) ≤ weight next nodes seen := weight_cons_le u
      simp only [weight, List.mem_cons, true_or, not_true_eq_false, decide_false, hv,
        not_false_eq_true, decide_true, List.filter_cons, if_true, List.map_cons,
        List.sum_cons, Bool.false_eq_true, if_false] at hle ⊢
      omega
    case neg =>
      have hi := hi ((List.mem_cons.mp hm).resolve_left (Ne.symm he))
      by_cases hu : u ∈ seen <;> simp [weight, he, hu] at hi ⊢ <;> omega

theorem weight_step (hr : ∀ v, ReflTransGen (Edge next) root v → v ∈ nodes)
    (h : Visits next root s) (hs : s.stack ≠ []) :
    (step next s).stack.length + weight next nodes (step next s).seen <
      s.stack.length + weight next nodes s.seen := by
  unfold step
  split
  case h_1 he => exact absurd he hs
  case h_2 he => simp [he]
  case h_3 v stack he =>
    split
    case isTrue => simp [he]
    case isFalse hv =>
      have hm := hr v (h.found v (.inr (he ▸ List.mem_cons_self)))
      have hw : weight next nodes (v :: s.seen) + (next v).length + 1 ≤ weight next nodes s.seen :=
        weight_cons hm hv
      simp only [he, List.length_append, List.length_map, List.length_cons]
      omega

theorem isSome_run {n : Nat} (hr : ∀ v, ReflTransGen (Edge next) root v → v ∈ nodes)
    (h : Visits next root s) (hn : s.stack.length + weight next nodes s.seen < n) :
    (run next n s).isSome := by
  induction n generalizing s
  case zero => cases hn
  case succ n hi =>
    rw [run]
    split
    case isTrue => rfl
    case isFalse hs =>
      have hw := weight_step hr h hs
      exact hi h.step (by omega)

end Termination

-- A search in a finite part of a graph ends, and lists what can be reached in the right order.
theorem run_start {nodes : List α} (hr : root ∈ nodes) (hc : ∀ v ∈ nodes, next v ⊆ nodes) :
    ∃ order, run next (fuel next nodes) (start root) = some order ∧ IsPostOrder next root order := by
  have hm (v : α) (hv : ReflTransGen (Edge next) root v) : v ∈ nodes := by
    induction hv
    case refl => exact hr
    case tail v c _ he hv => exact hc v hv he
  have hs : (run next (fuel next nodes) (start root)).isSome := by
    refine isSome_run hm .start ?_
    simp [fuel, start, weight]
    omega
  obtain ⟨order, ho⟩ := Option.isSome_iff_exists.mp hs
  obtain ⟨s, hv, he, rfl⟩ := Visits.start.run ho
  exact ⟨s.ordered, ho, hv.isPostOrder he⟩

end PostOrder
