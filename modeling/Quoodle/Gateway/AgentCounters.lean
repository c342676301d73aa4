import Quoodle.Agent.StateStore
import Quoodle.Gateway.ReplayProtection
import Quoodle.Windows.SequenceManager

-- The numbers that the agents of both platforms draw for their messages over all restarts, and what
-- the gateway makes of them.
namespace AgentCounters

open DurableCounter (Storage State Action Initial Kept step)
open Gateway.Replay (ReplayConfig ReplayProtector LastAtMost IsAccepted memoryConfig)
open Transition (Steps)

inductive Platform where
  | windows
  | linux

namespace Platform

def Files : Platform → Type
  | windows => Windows.SequenceManager.Files
  | linux => Option (List Char)

def Faults : Platform → Type
  | windows => Windows.SequenceManager.Faults
  | linux => Agent.AgentStateStore.Faults

def storage : (p : Platform) → Storage p.Files p.Faults
  | windows => Windows.SequenceManager.storage
  | linux => Agent.AgentStateStore.storage

def noFiles : (p : Platform) → p.Files
  | windows => ⟨none, none⟩
  | linux => none

end Platform

-- The numbers that the gateway compares as they are.
def limit (cfg : ReplayConfig) : Int :=
  if cfg.hasRedis then 2 ^ 53 else 2 ^ 64

-- The numbers of an agent are accepted as long as its file holds the last of them whenever the agent is
-- started again.
theorem accepted_of_kept (platform : Platform) {cfg : ReplayConfig} {p : ReplayProtector}
    {deviceId : String} {s s' : State platform.Files} {as : List (Action platform.Faults)}
    (hi : Initial s) (hl : LastAtMost cfg p deviceId s.last)
    (h : Steps (step platform.storage) (Kept platform.storage (limit cfg)) s as s') :
    s'.issued.Pairwise (· < ·) ∧ IsAccepted cfg p deviceId s'.issued := by
  have hn := DurableCounter.increasing_of_kept hi h
  refine ⟨hn.issued.of_cons, hl.isAccepted hi.last hn.issued fun n hm hr => ?_⟩
  have hx := hn.lt n hm
  rwa [limit, if_pos hr] at hx

def started (platform : Platform) : State platform.Files :=
  ⟨0, platform.noFiles, []⟩

def succeeds : (platform : Platform) → platform.Faults
  | .windows => (⟨false, some 20, true, none, true⟩ : Windows.SequenceManager.Faults)
  | .linux => (⟨true, .empty, true, true⟩ : Agent.AgentStateStore.Faults)

def isFull : (platform : Platform) → platform.Faults
  | .windows => (⟨true, none, false, none, true⟩ : Windows.SequenceManager.Faults)
  | .linux => (⟨false, .empty, true, true⟩ : Agent.AgentStateStore.Faults)

section Runs

variable (platform : Platform)

def firstFile : platform.Files :=
  platform.storage.persist (succeeds platform) 1 platform.noFiles

theorem holds_firstFile : platform.storage.Holds (firstFile platform) 1 := by
  cases platform
  case windows => exact ⟨1, rfl, by decide, .inl rfl⟩
  case linux =>
    refine .inl ⟨{ Agent.AgentStateStore.empty with sequence := 1 }, ?_, rfl, by decide⟩
    simp [Agent.AgentStateStore.empty]

theorem readable_succeeds : platform.storage.Readable (succeeds platform) := by
  cases platform
  case windows => rfl
  case linux => exact .inl rfl

theorem persist_isFull : platform.storage.persist (isFull platform) 2 (firstFile platform) =
    firstFile platform := by
  cases platform <;> rfl

theorem lt_bound {n : Int} (h : n < 100) : n < platform.storage.bound := by
  cases platform
  case windows | linux => exact h.trans (by decide)

variable {platform} {n : Int} {f : platform.Files} {ns : List Int} {o : platform.Faults}

theorem step_draw {m : Int} (h : 0 ≤ n) (hm : n + 1 = m) (hn : m < 100) :
    step platform.storage ⟨n, f, ns⟩ (.draw o) =
      some ⟨m, platform.storage.persist o m f, ns ++ [m]⟩ := by
  subst hm
  simp only [step, platform.storage.next_of_lt h (lt_bound platform hn)]

theorem step_restart {m : Int} (ho : platform.storage.Readable o)
    (hf : platform.storage.Holds f m) :
    step platform.storage ⟨n, f, ns⟩ (.restart o) = some ⟨m, f, ns⟩ := by
  simp only [step, platform.storage.load_of_holds ho hf]

variable (platform)

theorem step_started : step platform.storage (started platform) (.draw (succeeds platform)) =
    some ⟨1, firstFile platform, [1]⟩ :=
  step_draw le_rfl rfl (by decide)

theorem kept_restart (cfg : ReplayConfig) : ∃ s',
    Steps (step platform.storage) (Kept platform.storage (limit cfg)) (started platform)
      [.draw (succeeds platform), .restart (succeeds platform), .draw (succeeds platform)] s' ∧
      s'.issued = [1, 2] := by
  have hc {n : Int} (hn : n < 100) : n < platform.storage.bound ∧ n < limit cfg := by
    refine ⟨lt_bound platform hn, ?_⟩
    unfold limit
    split <;> omega
  have hr := readable_succeeds platform
  have hf := holds_firstFile platform
  exact ⟨_, .step (hc (n := 1) (by decide)) (step_started platform) <|
    .step ⟨hr, hf⟩ (step_restart hr hf) <|
    .step (hc (n := 2) (by decide)) (step_draw (m := 2) (by decide) rfl (by decide)) .refl, rfl⟩

-- The second number is drawn again after a restart, because the file could not be written.
theorem run_isFull :
    ∃ s', Transition.run (step platform.storage) (started platform)
      [.draw (succeeds platform), .draw (isFull platform), .restart (succeeds platform),
        .draw (succeeds platform)] = some s' ∧ s'.issued = [1, 2, 2] := by
  have h₂ : step platform.storage ⟨1, firstFile platform, [1]⟩ (.draw (isFull platform)) =
      some ⟨2, firstFile platform, [1, 2]⟩ := by
    rw [step_draw (m := 2) (by decide) rfl (by decide), persist_isFull]
    rfl
  have h₃ : step platform.storage ⟨2, firstFile platform, [1, 2]⟩ (.restart (succeeds platform)) =
      some ⟨1, firstFile platform, [1, 2]⟩ :=
    step_restart (readable_succeeds platform) (holds_firstFile platform)
  have h₄ : step platform.storage ⟨1, firstFile platform, [1, 2]⟩ (.draw (succeeds platform)) = _ :=
    step_draw (m := 2) (by decide) rfl (by decide)
  simp only [Transition.run_cons, step_started, h₂, h₃, h₄, Option.bind_some]
  exact ⟨_, rfl, rfl⟩

end Runs

theorem accepted_of_kept_restart :
    (∃ as s', Steps (step Platform.windows.storage)
        (Kept Platform.windows.storage (limit memoryConfig)) (started .windows) as s' ∧
        s'.issued = [1, 2] ∧ s'.issued.Pairwise (· < ·) ∧
        IsAccepted memoryConfig .empty "dev-1" s'.issued) ∧
      ∃ as s', Steps (step Platform.linux.storage)
        (Kept Platform.linux.storage (limit memoryConfig)) (started .linux) as s' ∧
        s'.issued = [1, 2] ∧ s'.issued.Pairwise (· < ·) ∧
        IsAccepted memoryConfig .empty "dev-1" s'.issued := by
  obtain ⟨s₁, h₁, he₁⟩ := kept_restart .windows memoryConfig
  obtain ⟨s₂, h₂, he₂⟩ := kept_restart .linux memoryConfig
  have hl : LastAtMost memoryConfig .empty "dev-1" 0 := Gateway.Replay.lastAtMost_empty le_rfl
  exact ⟨⟨_, s₁, h₁, he₁, accepted_of_kept .windows ⟨le_rfl, rfl⟩ hl h₁⟩,
    _, s₂, h₂, he₂, accepted_of_kept .linux ⟨le_rfl, rfl⟩ hl h₂⟩

theorem not_isAccepted_repeated : ¬IsAccepted memoryConfig .empty "dev-1" [1, 2, 2] := by
  intro h
  have hm := h [⟨.checkAndUpdateSeq "dev-1" (.int 1), 0, true⟩,
    ⟨.checkAndUpdateSeq "dev-1" (.int 2), 0, true⟩,
    ⟨.checkAndUpdateSeq "dev-1" (.int 2), 0, true⟩] (by simp) (by simp)
  exact absurd hm (by decide)

theorem number_repeated_after_restart :
    (∃ as s', Transition.run (step Platform.windows.storage) (started .windows) as = some s' ∧
        s'.issued = [1, 2, 2] ∧ ¬s'.issued.Pairwise (· < ·) ∧
        ¬IsAccepted memoryConfig .empty "dev-1" s'.issued) ∧
      ∃ as s', Transition.run (step Platform.linux.storage) (started .linux) as = some s' ∧
        s'.issued = [1, 2, 2] ∧ ¬s'.issued.Pairwise (· < ·) ∧
        ¬IsAccepted memoryConfig .empty "dev-1" s'.issued := by
  obtain ⟨s₁, h₁, he₁⟩ := run_isFull .windows
  obtain ⟨s₂, h₂, he₂⟩ := run_isFull .linux
  have hp : ¬[(1 : Int), 2, 2].Pairwise (· < ·) := by decide
  exact ⟨⟨_, s₁, h₁, he₁, he₁ ▸ hp, he₁ ▸ not_isAccepted_repeated⟩,
    _, s₂, h₂, he₂, he₂ ▸ hp, he₂ ▸ not_isAccepted_repeated⟩

end AgentCounters
