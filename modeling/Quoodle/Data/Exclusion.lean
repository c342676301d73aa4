import Quoodle.Data.Overlap

-- Tasks that each work on one key, no two of them on the same key at a time.
namespace Overlap

open Transition (Steps)

variable {σ τ ι ω ε κ : Type}

-- What holds of a key that no task works on, and of a task next to what it works on.
structure Excluding (key : τ → κ) (I : σ → κ → Prop) (J : σ → τ → Prop) (s : State σ τ) : Prop where
  free : ∀ x, (∀ k t, s.tasks k = some t → key t ≠ x) → I s.shared x
  held : ∀ {k t}, s.tasks k = some t → J s.shared t
  apart : ∀ {k k' t t'}, s.tasks k = some t → s.tasks k' = some t' → key t = key t' → k = k'

structure Frame (key : τ → κ) (I : σ → κ → Prop) (J : σ → τ → Prop) (x : κ) (s s' : σ) : Prop where
  free : ∀ y, y ≠ x → I s y → I s' y
  held : ∀ t, key t ≠ x → J s t → J s' t

def Left (key : τ → κ) (I : σ → κ → Prop) (J : σ → τ → Prop) (x : κ) (p : σ × Option τ) : Prop :=
  match p.2 with
  | none => I p.1 x
  | some t => key t = x ∧ J p.1 t

-- A task begins only on a key that no other task works on, and every step of it concerns that key.
structure Excludes (sys : System σ τ ι ω ε) (C : State σ τ → Action ι ω ε → Prop) (key : τ → κ)
    (I : σ → κ → Prop) (J : σ → τ → Prop) : Prop where
  quiet : ∀ s i, (sys.begin s i).1 = s
  begin : ∀ {s k i t}, C s (.begin k i) → t ∈ (sys.begin s.shared i).2 →
    (∀ {k' t'}, s.tasks k' = some t' → key t' ≠ key t) ∧ (I s.shared (key t) → J s.shared t)
  resume : ∀ {s k o t}, C s (.resume k o) → s.tasks k = some t → J s.shared t →
    Frame key I J (key t) s.shared (sys.resume s.shared t o).1 ∧
      Left key I J (key t) (sys.resume s.shared t o)
  fail : ∀ {s k t}, C s (.fail k) → s.tasks k = some t → J s.shared t → I s.shared (key t)
  change : ∀ s e, (∀ x, I s x → I (sys.change s e) x) ∧ ∀ t, J s t → J (sys.change s e) t

variable {key : τ → κ} {I : σ → κ → Prop} {J : σ → τ → Prop} {s s' : State σ τ} {k : Nat}

theorem Frame.refl {x : κ} {s : σ} : Frame key I J x s s :=
  ⟨fun _ _ h => h, fun _ _ h => h⟩

namespace Excluding

theorem put {x : κ} {p : σ × Option τ} (h : Excluding key I J s) (hk : ∀ t ∈ s.tasks k, key t = x)
    (hx : ∀ {k' t}, k' ≠ k → s.tasks k' = some t → key t ≠ x) (hf : Frame key I J x s.shared p.1)
    (hl : Left key I J x p) : Excluding key I J (s.put k p) := by
  have hp {t : τ} (ht : (s.put k p).tasks k = some t) : key t = x ∧ J p.1 t := by
    rw [State.tasks_put_self] at ht
    rwa [Left, ht] at hl
  have ho {k' : Nat} {t : τ} (hn : k' ≠ k) (ht : (s.put k p).tasks k' = some t) :
      s.tasks k' = some t := by
    rwa [State.tasks_put_of_ne hn] at ht
  constructor
  case free =>
    intro y hy
    by_cases he : y = x
    case pos =>
      cases ht : p.2
      case none =>
        rw [Left, ht] at hl
        exact he ▸ hl
      case some t =>
        have ht : (s.put k p).tasks k = some t := by rw [State.tasks_put_self, ht]
        exact absurd ((hp ht).left.trans he.symm) (hy k t ht)
    case neg =>
      refine hf.free y he (h.free y fun k' t ht => ?_)
      by_cases hn : k' = k
      case pos => exact fun hy => he (hy.symm.trans (hk t (hn ▸ ht)))
      case neg => exact hy k' t (by rwa [State.tasks_put_of_ne hn])
  case held =>
    intro k' t ht
    by_cases hn : k' = k
    case pos => exact (hp (hn ▸ ht)).right
    case neg => exact hf.held t (hx hn (ho hn ht)) (h.held (ho hn ht))
  case apart =>
    intro k₁ k₂ t₁ t₂ h₁ h₂ he
    by_cases hn₁ : k₁ = k
    case pos =>
      by_cases hn₂ : k₂ = k
      case pos => exact hn₁.trans hn₂.symm
      case neg => exact absurd (he.symm.trans (hp (hn₁ ▸ h₁)).left) (hx hn₂ (ho hn₂ h₂))
    case neg =>
      by_cases hn₂ : k₂ = k
      case pos => exact absurd (he.trans (hp (hn₂ ▸ h₂)).left) (hx hn₁ (ho hn₁ h₁))
      case neg => exact h.apart (ho hn₁ h₁) (ho hn₂ h₂) he

variable {sys : System σ τ ι ω ε} {C : State σ τ → Action ι ω ε → Prop}

theorem put_none (h : Excluding key I J s) (hk : s.tasks k = none) :
    Excluding key I J (s.put k (s.shared, none)) := by
  have he : s.put k (s.shared, none) = s := by
    rw [State.put, ← hk, Function.update_eq_self]
  exact he.symm ▸ h

theorem step {a : Action ι ω ε} (hs : Excludes sys C key I J) (h : Excluding key I J s) (hc : C s a)
    (ha : Overlap.step sys s a = some s') : Excluding key I J s' := by
  cases a
  case begin k i =>
    obtain ⟨hk, rfl⟩ := step_begin ha
    have hq := hs.quiet s.shared i
    cases ht : (sys.begin s.shared i).2
    case none =>
      rw [← Prod.eta (sys.begin s.shared i), hq, ht]
      exact h.put_none hk
    case some t =>
      obtain ⟨hx, hj⟩ := hs.begin hc ht
      refine h.put (by simp [hk]) (fun _ => hx) (hq.symm ▸ Frame.refl) ?_
      rw [Left, ht, hq]
      exact ⟨rfl, hj (h.free _ fun _ _ => hx)⟩
  case resume k o =>
    obtain ⟨t, ht, rfl⟩ := step_resume ha
    obtain ⟨hf, hl⟩ := hs.resume hc ht (h.held ht)
    refine h.put (fun t' ht' => ?_) (fun hn ht' he => hn (h.apart ht' ht he)) hf hl
    rw [Option.some.inj (ht'.symm.trans ht)]
  case fail k =>
    obtain rfl := step_fail ha
    cases ht : s.tasks k
    case none => exact h.put_none ht
    case some t =>
      refine h.put (fun t' ht' => ?_) (fun hn ht' he => hn (h.apart ht' ht he)) Frame.refl
        (hs.fail hc ht (h.held ht))
      rw [Option.some.inj (ht'.symm.trans ht)]
  case change e =>
    obtain rfl := step_change ha
    have ⟨hi, hj⟩ := hs.change s.shared e
    exact ⟨fun x hx => hi x (h.free x hx), fun ht => hj _ (h.held ht), h.apart⟩

theorem steps {as : List (Action ι ω ε)} (hs : Excludes sys C key I J) (h : Excluding key I J s)
    (ha : Steps (Overlap.step sys) C s as s') : Excluding key I J s' :=
  ha.invariant (fun h hc ha => h.step hs hc ha) h

end Excluding

end Overlap
