import Quoodle.Data.Transition

-- Counters whose last number is kept in a file, from which they start again.
namespace DurableCounter

open Transition (Steps)

-- How a counter is kept. Whatever may go wrong when the file is written or read is up to `ω`.
structure Storage (φ ω : Type) where
  next : Int → Int
  -- The numbers that can be drawn without an overflow.
  bound : Int
  next_of_lt : ∀ {n : Int}, 0 ≤ n → n + 1 < bound → next n = n + 1
  persist : ω → Int → φ → φ
  load : ω → φ → Int
  Holds : φ → Int → Prop
  Readable : ω → Prop
  load_of_holds : ∀ {o : ω} {f : φ} {n : Int}, Readable o → Holds f n → load o f = n

structure State (φ : Type) where
  last : Int
  file : φ
  issued : List Int

inductive Action (ω : Type) where
  | draw (o : ω)
  -- The number is written for the sake of something else that the file holds.
  | save (o : ω)
  | restart (o : ω)

variable {φ ω : Type} {S : Storage φ ω} {s s' : State φ} {as : List (Action ω)}

def step (S : Storage φ ω) (s : State φ) : Action ω → Option (State φ)
  | .draw o =>
    let n := S.next s.last
    some ⟨n, S.persist o n s.file, s.issued ++ [n]⟩
  | .save o => some { s with file := S.persist o s.last s.file }
  | .restart o => some { s with last := S.load o s.file }

structure Initial (s : State φ) : Prop where
  last : 0 ≤ s.last
  issued : s.issued = []

-- The file holds the last number whenever it is read, and the numbers stay below a limit.
def Kept (S : Storage φ ω) (limit : Int) (s : State φ) : Action ω → Prop
  | .draw _ => s.last + 1 < S.bound ∧ s.last + 1 < limit
  | .save _ => True
  | .restart o => S.Readable o ∧ S.Holds s.file s.last

structure Increasing (start limit : Int) (s : State φ) : Prop where
  le_last : start ≤ s.last
  issued : (start :: s.issued).Pairwise (· < ·)
  le : ∀ n ∈ s.issued, n ≤ s.last
  lt : ∀ n ∈ s.issued, n < limit

variable {start limit : Int}

theorem Initial.increasing (h : Initial s) : Increasing s.last limit s where
  le_last := le_rfl
  issued := by simp [h.issued]
  le := by simp [h.issued]
  lt := by simp [h.issued]

theorem Increasing.draw {o : ω} (h : Increasing start limit s) (h0 : 0 ≤ start)
    (hc : Kept S limit s (.draw o)) (hs : step S s (.draw o) = some s') :
    Increasing start limit s' := by
  cases hs
  obtain ⟨hb, hx⟩ := hc
  have hn := S.next_of_lt (h0.trans h.le_last) hb
  have hl := h.le_last
  constructor <;> simp only [hn]
  case le_last => omega
  case issued =>
    rw [← List.cons_append]
    refine List.pairwise_append.mpr ⟨h.issued, List.pairwise_singleton _ _, fun m hm n hn => ?_⟩
    rw [List.mem_singleton.mp hn]
    cases List.mem_cons.mp hm
    case inl hm => omega
    case inr hm =>
      have := h.le m hm
      omega
  case le =>
    refine List.forall_mem_append.mpr ⟨fun n hn => ?_, by simp⟩
    have := h.le n hn
    omega
  case lt => exact List.forall_mem_append.mpr ⟨h.lt, by simpa using hx⟩

theorem Increasing.step {a : Action ω} (h : Increasing start limit s) (h0 : 0 ≤ start)
    (hc : Kept S limit s a) (hs : step S s a = some s') : Increasing start limit s' := by
  cases a
  case draw o => exact h.draw h0 hc hs
  case save o =>
    cases hs
    exact ⟨h.le_last, h.issued, h.le, h.lt⟩
  case restart o =>
    cases hs
    have hl := S.load_of_holds hc.left hc.right
    exact ⟨hl ▸ h.le_last, h.issued, hl ▸ h.le, h.lt⟩

-- The numbers that are drawn are increasing if the file is never behind when it is read.
theorem increasing_of_kept (hi : Initial s) (h : Steps (step S) (Kept S limit) s as s') :
    Increasing s.last limit s' :=
  h.invariant (fun h hc hs => h.step hi.last hc hs) hi.increasing

end DurableCounter
