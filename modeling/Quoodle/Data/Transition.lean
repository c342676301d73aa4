import Mathlib

-- Systems whose state is changed by actions. Everything a system cannot decide by itself, such as
-- which of several tasks continues or whether an operation fails, is part of the action.
namespace Transition

variable {σ α : Type} {step : σ → α → Option σ} {C : σ → α → Prop} {s₁ s₂ : σ}
variable {as : List α}

def run (step : σ → α → Option σ) (s : σ) (as : List α) : Option σ :=
  as.foldlM step s

theorem run_cons {a : α} : run step s₁ (a :: as) = (step s₁ a).bind (run step · as) :=
  List.foldlM_cons

theorem run_append {bs : List α} :
    run step s₁ (as ++ bs) = (run step s₁ as).bind (run step · bs) :=
  List.foldlM_append

theorem exists_of_any {P : σ → Prop} [DecidablePred P] (h : (run step s₁ as).any (P ·)) :
    ∃ s, run step s₁ as = some s ∧ P s := by
  obtain ⟨s, hs, hp⟩ := Option.any_eq_true _ _ |>.mp h
  exact ⟨s, hs, of_decide_eq_true hp⟩

theorem run_invariant {I : σ → Prop} (hs : ∀ {s a s'}, I s → step s a = some s' → I s')
    (h : run step s₁ as = some s₂) (hi : I s₁) : I s₂ := by
  induction as generalizing s₁
  case nil => exact Option.some.inj h ▸ hi
  case cons a as ih =>
    obtain ⟨s, ha, hr⟩ := Option.bind_eq_some_iff.mp (run_cons.symm.trans h)
    exact ih hr (hs hi ha)

def restrict (step : σ → α → Option σ) (C : σ → α → Prop) [∀ s a, Decidable (C s a)] (s : σ)
    (a : α) : Option σ :=
  if C s a then step s a else none

inductive Steps (step : σ → α → Option σ) (C : σ → α → Prop) : σ → List α → σ → Prop
  | refl {s : σ} : Steps step C s [] s
  | step {s₁ s₂ s₃ : σ} {a : α} {as : List α} :
    C s₁ a → step s₁ a = some s₂ → Steps step C s₂ as s₃ → Steps step C s₁ (a :: as) s₃

namespace Steps

theorem of_run [∀ s a, Decidable (C s a)] (h : run (restrict step C) s₁ as = some s₂) :
    Steps step C s₁ as s₂ := by
  induction as generalizing s₁
  case nil =>
    cases h
    exact .refl
  case cons a as hi =>
    simp only [run, List.foldlM_cons, Option.bind_eq_bind, Option.bind_eq_some_iff] at h
    have ⟨_, hs, h⟩ := h
    have ⟨hc, hs⟩ := Option.ite_none_right_eq_some.mp hs
    exact .step hc hs (hi h)

theorem trans {s₃ : σ} {bs : List α} (h : Steps step C s₁ as s₂) (h' : Steps step C s₂ bs s₃) :
    Steps step C s₁ (as ++ bs) s₃ := by
  induction h
  case refl => exact h'
  case step hc hs _ ih => exact .step hc hs (ih h')

theorem invariant {I : σ → Prop}
    (hs : ∀ {s a s'}, I s → C s a → step s a = some s' → I s')
    (h : Steps step C s₁ as s₂) (hi : I s₁) : I s₂ := by
  induction h
  case refl => exact hi
  case step ha h _ ih => exact ih (hs hi ha h)

-- If the condition says of every step from a good state whether it leads to another one, the runs in
-- which every step meets it are those that go through good states only.
theorem iff_forall_run {I : σ → Prop}
    (hs : ∀ {s a s'}, I s → step s a = some s' → (C s a ↔ I s')) (hi : I s₁)
    (hr : run step s₁ as = some s₂) :
    Steps step C s₁ as s₂ ↔
      ∀ before after s, as = before ++ after → run step s₁ before = some s → I s := by
  induction as generalizing s₁
  case nil =>
    cases hr
    refine ⟨fun _ before after s he hs => ?_, fun _ => .refl⟩
    cases (List.append_eq_nil_iff.mp he.symm).left
    exact Option.some.inj hs ▸ hi
  case cons a as ih =>
    obtain ⟨s', ha, hr⟩ := Option.bind_eq_some_iff.mp (run_cons.symm.trans hr)
    constructor
    · intro h before after s he hb
      cases before
      case nil => exact Option.some.inj hb ▸ hi
      case cons b before =>
        obtain ⟨rfl, ht⟩ := List.cons_eq_cons.mp he
        rw [run_cons, ha, Option.bind_some] at hb
        cases h
        case step hc ha' h =>
          obtain rfl := Option.some.inj (ha.symm.trans ha')
          exact (ih ((hs hi ha).mp hc) hr).mp h before after s ht hb
    · intro h
      have hi' : I s' := h [a] as s' rfl (by rw [run_cons, ha]; rfl)
      refine .step ((hs hi ha).mpr hi') ha ((ih hi' hr).mpr fun before after s he hb => ?_)
      exact h (a :: before) after s (he ▸ rfl) (by rw [run_cons, ha]; exact hb)

end Steps

end Transition
