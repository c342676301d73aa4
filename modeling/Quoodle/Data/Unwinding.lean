import Mathlib

-- Systems that answer calls, and when the answers to some of the calls do not depend on the others.
namespace Unwinding

variable {σ γ ρ α : Type} {step : σ → γ → ρ × σ} {D p : γ → Prop} {R : σ → σ → Prop} {s s' : σ}

def answers (step : σ → γ → ρ × σ) (s : σ) : List γ → List (γ × ρ)
  | [] => []
  | c :: cs => (c, (step s c).1) :: answers step (step s c).2 cs

-- The answers to the calls that have `p` are those of a system that gets no other calls.
def Isolated (step : σ → γ → ρ × σ) (s : σ) (p : γ → Prop) [DecidablePred p] (cs : List γ) : Prop :=
  (answers step s cs).filter (p ·.1) = answers step s (cs.filter (p ·))

-- A relation between states that calls with `p` cannot tell apart, and that calls without it do not
-- leave. Only the calls in `D` are made.
structure Relation (step : σ → γ → ρ × σ) (D p : γ → Prop) (R : σ → σ → Prop) : Prop where
  answer {s s' : σ} {c : γ} : D c → p c → R s s' → (step s c).1 = (step s' c).1
  seen   {s s' : σ} {c : γ} : D c → p c → R s s' → R (step s c).2 (step s' c).2
  unseen {s s' : σ} {c : γ} : D c → ¬p c → R s s' → R (step s c).2 s'

theorem Relation.answers_filter [DecidablePred p] (h : Relation step D p R) (hr : R s s')
    {cs : List γ} (hd : ∀ c ∈ cs, D c) :
    (answers step s cs).filter (p ·.1) = answers step s' (cs.filter (p ·)) := by
  induction cs generalizing s s'
  case nil => rfl
  case cons c cs hi =>
    obtain ⟨hc, hd⟩ := List.forall_mem_cons.mp hd
    by_cases hp : p c
    case pos =>
      rw [List.filter_cons_of_pos (by simpa using hp), answers, answers,
        List.filter_cons_of_pos (by simpa using hp), h.answer hc hp hr, hi (h.seen hc hp hr) hd]
    case neg =>
      rw [List.filter_cons_of_neg (by simpa using hp), answers,
        List.filter_cons_of_neg (by simpa using hp), hi (h.unseen hc hp hr) hd]

theorem Relation.isolated [DecidablePred p] (h : Relation step D p R) (hr : R s s) {cs : List γ}
    (hd : ∀ c ∈ cs, D c) : Isolated step s p cs :=
  h.answers_filter hr hd

theorem Isolated.answer_eq [DecidablePred p] {c c' : γ} (h : Isolated step s p [c, c']) (hc : ¬p c)
    (hc' : p c') : (step (step s c).2 c').1 = (step s c').1 := by
  simpa [Isolated, answers, hc, hc'] using h

-- What is picked from the calls that get the answer `ok`.
def accepted [DecidableEq ρ] (ok : ρ) (pick : γ → Option α) (as : List (γ × ρ)) : List α :=
  as.filterMap fun a => if a.2 = ok then pick a.1 else none

-- If what was picked before is known after every call, and only what follows it is picked then.
theorem pairwise_accepted [DecidableEq ρ] {ok : ρ} {pick : γ → Option α} {T : γ → γ → Prop}
    {R : α → α → Prop} (Passed : γ → σ → α → Prop)
    (hk : ∀ {s a b} c, T b c → Passed b s a → Passed c (step s c).2 a)
    (hp : ∀ {s c a}, (step s c).1 = ok → pick c = some a → Passed c (step s c).2 a)
    (hr : ∀ {s a b c a'}, T b c → Passed b s a → (step s c).1 = ok → pick c = some a' → R a a')
    (s : σ) {cs : List γ} (hc : cs.Pairwise T) :
    (accepted ok pick (answers step s cs)).Pairwise R := by
  have hf {a : α} {b : γ} {s : σ} {cs : List γ} (h : Passed b s a) (hc : (b :: cs).Pairwise T) :
      ∀ a' ∈ accepted ok pick (answers step s cs), R a a' := by
    induction cs generalizing b s
    case nil => simp [accepted, answers]
    case cons c cs hi =>
      obtain ⟨hb, hc⟩ := List.pairwise_cons.mp hc
      have ht : T b c := hb c List.mem_cons_self
      rw [answers, accepted, List.filterMap_cons]
      split
      case h_1 => exact hi (hk c ht h) hc
      case h_2 a' ha' =>
        obtain ⟨ha, hb⟩ := Option.ite_none_right_eq_some.mp ha'
        exact List.forall_mem_cons.mpr ⟨hr ht h ha hb, hi (hk c ht h) hc⟩
  induction cs generalizing s
  case nil => exact .nil
  case cons c cs hi =>
    rw [answers, accepted, List.filterMap_cons]
    split
    case h_1 => exact hi _ hc.of_cons
    case h_2 a ha =>
      obtain ⟨ha, hb⟩ := Option.ite_none_right_eq_some.mp ha
      exact .cons (hf (hp ha hb) hc) (hi _ hc.of_cons)

end Unwinding
