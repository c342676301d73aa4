import Quoodle.Data.Transition

-- Tasks that share a state and take their steps in any order.
namespace Overlap

open Transition (Steps)

-- Tasks have inputs in `ι` and local states in `τ`. What else a step depends on is in `ω`.
structure System (σ τ ι ω ε : Type) where
  begin : σ → ι → σ × Option τ
  resume : σ → τ → ω → σ × Option τ
  change : σ → ε → σ

structure State (σ τ : Type) where
  shared : σ
  -- There is no local state before a task begins and after it has ended.
  tasks : Nat → Option τ

inductive Action (ι ω ε : Type) where
  | begin (k : Nat) (i : ι)
  | resume (k : Nat) (o : ω)
  -- The task ends where it is.
  | fail (k : Nat)
  | change (e : ε)

variable {σ τ ι ω ε : Type}

namespace State

def idle (shared : σ) : State σ τ :=
  ⟨shared, fun _ => none⟩

def put (s : State σ τ) (k : Nat) (p : σ × Option τ) : State σ τ :=
  ⟨p.1, Function.update s.tasks k p.2⟩

variable {s : State σ τ} {k k' : Nat} {p : σ × Option τ}

@[simp]
theorem shared_idle {shared : σ} : (idle shared : State σ τ).shared = shared :=
  rfl

@[simp]
theorem tasks_idle {shared : σ} : (idle shared : State σ τ).tasks k = none :=
  rfl

@[simp]
theorem shared_put : (s.put k p).shared = p.1 :=
  rfl

@[simp]
theorem tasks_put_self : (s.put k p).tasks k = p.2 :=
  Function.update_self ..

theorem tasks_put_of_ne (h : k' ≠ k) : (s.put k p).tasks k' = s.tasks k' :=
  Function.update_of_ne h ..

end State

def step (sys : System σ τ ι ω ε) (s : State σ τ) : Action ι ω ε → Option (State σ τ)
  | .begin k i =>
    match s.tasks k with
    | none => some (s.put k (sys.begin s.shared i))
    | some _ => none
  | .resume k o =>
    match s.tasks k with
    | none => none
    | some t => some (s.put k (sys.resume s.shared t o))
  | .fail k => some (s.put k (s.shared, none))
  | .change e => some { s with shared := sys.change s.shared e }

section Steps

variable {sys : System σ τ ι ω ε} {s s' : State σ τ} {k : Nat} {i : ι} {o : ω} {e : ε}

theorem step_begin (h : step sys s (.begin k i) = some s') :
    s.tasks k = none ∧ s' = s.put k (sys.begin s.shared i) := by
  simp only [step] at h
  split at h
  case h_1 ht => exact ⟨ht, (Option.some.inj h).symm⟩
  case h_2 => cases h

theorem step_resume (h : step sys s (.resume k o) = some s') :
    ∃ t, s.tasks k = some t ∧ s' = s.put k (sys.resume s.shared t o) := by
  simp only [step] at h
  split at h
  case h_1 => cases h
  case h_2 t ht => exact ⟨t, ht, (Option.some.inj h).symm⟩

theorem step_fail (h : step sys s (.fail k) = some s') : s' = s.put k (s.shared, none) :=
  (Option.some.inj h).symm

theorem step_change (h : step sys s (.change e) = some s') :
    s' = ⟨sys.change s.shared e, s.tasks⟩ :=
  (Option.some.inj h).symm

end Steps

-- A relation between what is shared before and after that is kept by all steps.
structure Extends (sys : System σ τ ι ω ε) (R : σ → σ → Prop) : Prop where
  refl : ∀ s, R s s
  begin : ∀ s i, R s (sys.begin s i).1
  resume : ∀ s t o, R s (sys.resume s t o).1
  change : ∀ s e, R s (sys.change s e)

theorem Extends.step {sys : System σ τ ι ω ε} {R : σ → σ → Prop} (h : Extends sys R)
    {s s' : State σ τ} {a : Action ι ω ε} (hs : step sys s a = some s') : R s.shared s'.shared := by
  cases a
  case begin k i =>
    obtain ⟨_, rfl⟩ := step_begin hs
    exact h.begin ..
  case resume k o =>
    obtain ⟨t, _, rfl⟩ := step_resume hs
    exact h.resume ..
  case fail k =>
    obtain rfl := step_fail hs
    exact h.refl _
  case change e =>
    obtain rfl := step_change hs
    exact h.change ..

structure Holds (I : σ → Prop) (J : σ → τ → Prop) (s : State σ τ) : Prop where
  shared : I s.shared
  tasks : ∀ {k t}, s.tasks k = some t → J s.shared t

section Holds

variable {I : σ → Prop} {J : σ → τ → Prop}

theorem Holds.idle {shared : σ} (h : I shared) : Holds I J (State.idle shared) :=
  ⟨h, by simp⟩

theorem Holds.put {s : State σ τ} {k : Nat} {p : σ × Option τ} (hi : I p.1)
    (hj : ∀ t ∈ p.2, J p.1 t) (ho : ∀ {k' t}, s.tasks k' = some t → J p.1 t) :
    Holds I J (s.put k p) := by
  refine ⟨hi, fun {k' t} ht => ?_⟩
  by_cases he : k' = k
  case pos =>
    rw [he, State.tasks_put_self] at ht
    exact hj t ht
  case neg =>
    rw [State.tasks_put_of_ne he] at ht
    exact ho ht

-- Steps from good states that meet a condition lead to good states. No step disturbs another task.
structure Preserves (sys : System σ τ ι ω ε) (C : State σ τ → Action ι ω ε → Prop) (I : σ → Prop)
    (J : σ → τ → Prop) : Prop where
  begin : ∀ {s k i}, Holds I J s → C s (.begin k i) →
    I (sys.begin s.shared i).1 ∧ ∀ t ∈ (sys.begin s.shared i).2, J (sys.begin s.shared i).1 t
  resume : ∀ {s k o t}, Holds I J s → s.tasks k = some t → C s (.resume k o) →
    I (sys.resume s.shared t o).1 ∧
      ∀ t' ∈ (sys.resume s.shared t o).2, J (sys.resume s.shared t o).1 t'
  change : ∀ {s e}, Holds I J s → C s (.change e) → I (sys.change s.shared e)
  others : ∀ {s a s'}, Holds I J s → C s a → step sys s a = some s' →
    ∀ t, J s.shared t → J s'.shared t

variable {sys : System σ τ ι ω ε} {C : State σ τ → Action ι ω ε → Prop} {s s' : State σ τ}

theorem Holds.step {a : Action ι ω ε} (hp : Preserves sys C I J) (h : Holds I J s) (hc : C s a)
    (hs : step sys s a = some s') : Holds I J s' := by
  have ho {k : Nat} {t : τ} (ht : s.tasks k = some t) : J s'.shared t :=
    hp.others h hc hs t (h.tasks ht)
  cases a
  case begin k i =>
    obtain ⟨_, rfl⟩ := step_begin hs
    have ⟨hi, hj⟩ := hp.begin h hc
    exact .put hi hj ho
  case resume k o =>
    obtain ⟨t, ht, rfl⟩ := step_resume hs
    have ⟨hi, hj⟩ := hp.resume h ht hc
    exact .put hi hj ho
  case fail k =>
    obtain rfl := step_fail hs
    exact .put h.shared (by simp) ho
  case change e =>
    obtain rfl := step_change hs
    exact ⟨hp.change h hc, ho⟩

theorem Holds.steps {as : List (Action ι ω ε)} (hp : Preserves sys C I J) (h : Holds I J s)
    (hs : Steps (Overlap.step sys) C s as s') : Holds I J s' :=
  hs.invariant (fun h hc hs => h.step hp hc hs) h

end Holds

section Alone

-- What becomes of the shared state if a task runs to its end while there is no other one, and every
-- step that it takes meets a condition.
def alone (sys : System σ τ ι ω ε) (D : σ → τ → Prop) [∀ s t, Decidable (D s t)] :
    σ × Option τ → List ω → Option σ
  | (s, none), [] => some s
  | (s, some t), o :: os => if D s t then alone sys D (sys.resume s t o) os else none
  | (_, none), _ :: _ => none
  | (_, some _), [] => none

variable {sys : System σ τ ι ω ε} {C : State σ τ → Action ι ω ε → Prop} {D : σ → τ → Prop}
variable [∀ s t, Decidable (D s t)] {k : Nat}

theorem steps_resume_of_alone {p : σ × Option τ} {os : List ω} {x s' : σ}
    (hr : ∀ {s t o}, s.tasks k = some t → D s.shared t → C s (.resume k o))
    (h : alone sys D p os = some s') :
    Steps (step sys) C ((State.idle x).put k p) (os.map (.resume k)) (State.idle s') := by
  induction os generalizing p
  case nil =>
    obtain ⟨s, _ | t⟩ := p
    case none =>
      have he : (State.idle x : State σ τ).put k (s, none) = .idle s :=
        congrArg _ (Function.update_eq_self k _)
      obtain rfl : s = s' := Option.some.inj h
      exact he ▸ .refl
    case some => cases h
  case cons o os ih =>
    obtain ⟨s, _ | t⟩ := p
    case none => cases h
    case some =>
      obtain ⟨hd, h⟩ := Option.ite_none_right_eq_some.mp h
      have ht : ((State.idle x).put k (s, some t)).tasks k = some t := State.tasks_put_self
      have hs : step sys ((State.idle x).put k (s, some t)) (.resume k o) =
          some ((State.idle x).put k (sys.resume s t o)) := by
        simp only [step, ht]
        exact congrArg some (congrArg _ (Function.update_idem ..))
      exact .step (hr ht hd) hs (ih h)

theorem steps_of_alone {i : ι} {os : List ω} {s s' : σ} (hb : ∀ s, C (State.idle s) (.begin k i))
    (hr : ∀ {s t o}, s.tasks k = some t → D s.shared t → C s (.resume k o))
    (h : alone sys D (sys.begin s i) os = some s') :
    Steps (step sys) C (State.idle s) (.begin k i :: os.map (.resume k)) (State.idle s') :=
  .step (hb s) rfl (steps_resume_of_alone hr h)

end Alone

end Overlap
