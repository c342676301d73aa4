import Quoodle.Data.Overlap

-- The numbers that commands are dispatched with, where dispatches overlap and the cache may be lost.
namespace ControlPlane.MonotonicCounter

open Overlap (Holds Preserves)
open Transition (Steps)

-- What `Cache::increment` does if the key is missing.
inductive Store where
  -- Redis, files and arrays begin with zero.
  | creates
  -- The database and Memcached return `false`, which is cast to zero.
  | fails

def Store.increment (store : Store) : Option Int → Int × Option Int
  | some v => (v + 1, some (v + 1))
  | none =>
    match store with
    | creates => (1, some 1)
    | fails => (0, none)

structure Draw where
  number : Int
  -- The numbers that had been returned when the call started.
  before : List Int

structure Shared where
  cache : Option Int
  -- The column `server_seq` of the table `commands`.
  serverSeq : List (String × Option Int)
  draws : List Draw

inductive Phase where
  -- The key was missing, and `server_seq` is still to be read.
  | missing
  | seeded (seed : Int)
  | ready
  -- The number was returned by `next`, but it is not in the table yet.
  | drawn (number : Int)

structure Dispatch where
  command : String
  before : List Int
  phase : Phase

inductive Event where
  -- The key is evicted, or the cache is cleared.
  | lose

namespace Shared

def numbers (s : Shared) : List Int :=
  s.draws.map Draw.number

def seed (s : Shared) : Int :=
  match (s.serverSeq.filterMap Prod.snd).max? with
  | some persistedMax => if persistedMax > 0 then persistedMax else 0
  | none => 0

def draw (s : Shared) (store : Store) (before : List Int) : Shared :=
  let (number, cache) := store.increment s.cache
  { s with cache, draws := s.draws ++ [⟨number, before⟩] }

def persist (s : Shared) (command : String) (number : Int) : Shared :=
  { s with
    serverSeq := s.serverSeq.map fun r => if r.1 = command then (r.1, some number) else r }

end Shared

def begin (s : Shared) (command : String) : Dispatch where
  command := command
  before := s.numbers
  phase := if s.cache = none then .missing else .ready

-- The next operation of a dispatch on the cache or on the table.
def resume (store : Store) (s : Shared) (d : Dispatch) : Shared × Option Dispatch :=
  match d.phase with
  | .missing => (s, some { d with phase := .seeded s.seed })
  | .seeded seed => ({ s with cache := some seed }, some { d with phase := .ready })
  | .ready =>
    (s.draw store d.before, some { d with phase := .drawn (store.increment s.cache).1 })
  | .drawn number => (s.persist d.command number, none)

def system (store : Store) : Overlap.System Shared Dispatch String Unit Event where
  begin s command := (s, some (begin s command))
  resume s d _ := resume store s d
  change s
    | .lose => { s with cache := none }

abbrev State := Overlap.State Shared Dispatch

def Initial (s : State) : Prop :=
  s.shared.draws = [] ∧ ∀ k, s.tasks k = none

-- The numbers that were returned are distinct, and every one of them is larger than those that had
-- been returned when its call started.
structure Ordered (s : Shared) : Prop where
  distinct : s.numbers.Nodup
  larger : ∀ d ∈ s.draws, ∀ n ∈ d.before, n < d.number

variable {store : Store} {s : Shared} {d : Dispatch}

-- A seed is stored only while no number above it was drawn, and a number is drawn only while the key
-- that the call saw or stored is there.
def Dispatch.Seeded (s : Shared) (d : Dispatch) : Prop :=
  match d.phase with
  | .seeded seed => ∀ n ∈ s.numbers, n ≤ seed
  | .ready => s.cache.isSome
  | _ => True

instance : Decidable (d.Seeded s) :=
  match h : d.phase with
  | .seeded seed => decidable_of_iff (∀ n ∈ s.numbers, n ≤ seed) (by simp [Dispatch.Seeded, h])
  | .ready => decidable_of_iff (s.cache.isSome = true) (by simp [Dispatch.Seeded, h])
  | .missing => .isTrue (by simp [Dispatch.Seeded, h])
  | .drawn _ => .isTrue (by simp [Dispatch.Seeded, h])

def Seeded (s : State) : Overlap.Action String Unit Event → Prop
  | .resume k _ => ∀ d ∈ s.tasks k, d.Seeded s.shared
  | .begin _ _ | .fail _ | .change _ => True

instance {s : State} : DecidablePred (Seeded s)
  | .resume k _ => inferInstanceAs (Decidable (∀ d ∈ s.tasks k, d.Seeded s.shared))
  | .begin _ _ | .fail _ | .change _ => .isTrue trivial

structure Increasing (s : Shared) : Prop where
  le_cache : ∀ v ∈ s.cache, ∀ n ∈ s.numbers, n ≤ v
  numbers : s.numbers.Pairwise (· < ·)
  larger : ∀ d ∈ s.draws, ∀ n ∈ d.before, n < d.number

theorem Increasing.ordered {s : Shared} (h : Increasing s) : Ordered s :=
  ⟨h.numbers.imp ne_of_lt, h.larger⟩

def Remembers (s : Shared) (d : Dispatch) : Prop :=
  d.before ⊆ s.numbers

@[simp]
theorem numbers_draw {before : List Int} :
    (s.draw store before).numbers = s.numbers ++ [(store.increment s.cache).1] := by
  simp [Shared.numbers, Shared.draw]

theorem Increasing.draw (h : Increasing s) (hc : s.cache.isSome) {before : List Int}
    (hb : before ⊆ s.numbers) : Increasing (s.draw store before) := by
  obtain ⟨v, hv⟩ := Option.isSome_iff_exists.mp hc
  have hl : ∀ n ∈ s.numbers, n < v + 1 := fun n hn => Int.lt_add_one_of_le (h.le_cache v hv n hn)
  have hn : (s.draw store before).numbers = s.numbers ++ [v + 1] := by
    rw [numbers_draw, hv]
    rfl
  constructor
  case le_cache =>
    intro v' hv' n hn'
    have he : v + 1 = v' := by simpa [Shared.draw, hv, Store.increment] using hv'
    rw [hn, List.mem_append, List.mem_singleton] at hn'
    cases hn'
    case inl hn' => exact he ▸ (hl n hn').le
    case inr hn' => exact (hn'.trans he).le
  case numbers =>
    rw [hn]
    refine List.pairwise_append.mpr ⟨h.numbers, List.pairwise_singleton _ _, fun n hn m hm => ?_⟩
    exact List.mem_singleton.mp hm ▸ hl n hn
  case larger =>
    refine List.forall_mem_append.mpr ⟨h.larger, ?_⟩
    simpa [hv, Store.increment] using fun n hn => hl n (hb hn)

theorem Increasing.resume (h : Increasing s) (hd : Remembers s d) (hc : d.Seeded s) :
    Increasing (resume store s d).1 := by
  simp only [MonotonicCounter.resume]
  split
  case h_1 => exact h
  case h_2 seed hp =>
    simp only [Dispatch.Seeded, hp] at hc
    refine ⟨fun v hv => ?_, h.numbers, h.larger⟩
    obtain rfl := Option.some.inj hv
    exact hc
  case h_3 hp =>
    simp only [Dispatch.Seeded, hp] at hc
    exact h.draw hc hd
  case h_4 => exact ⟨h.le_cache, h.numbers, h.larger⟩

theorem extends_numbers : Overlap.Extends (system store) (fun s s' => s.numbers ⊆ s'.numbers) where
  refl _ := List.Subset.refl _
  begin _ _ := List.Subset.refl _
  change _ _ := List.Subset.refl _
  resume s d _ := by
    simp only [system, resume]
    split
    case h_3 => simp
    all_goals exact List.Subset.refl _

theorem before_resume : ∀ d' ∈ (resume store s d).2, d'.before = d.before := by
  intro d' hd
  simp only [resume] at hd
  split at hd <;> cases hd <;> rfl

theorem preserves : Preserves (system store) Seeded Increasing Remembers where
  begin {s k command} h _ := by
    refine ⟨h.shared, fun d hd => ?_⟩
    obtain rfl := Option.some.inj hd
    exact List.Subset.refl _
  resume {s k o d} h hd hc := by
    refine ⟨h.shared.resume (h.tasks hd) (hc d hd), fun d' hd' => ?_⟩
    have hb : d'.before = d.before := before_resume d' hd'
    rw [Remembers, hb]
    exact List.Subset.trans (h.tasks hd) (extends_numbers.resume s.shared d o)
  change h _ := ⟨by simp [system], h.shared.numbers, h.shared.larger⟩
  others _ _ hs _ hd := List.Subset.trans hd (extends_numbers.step hs)

-- The numbers are distinct and increasing as long as every seed covers what was drawn before it is
-- stored and the key is not lost between a look for it and the increment.
theorem ordered_of_seeded {s s' : State} {as : List (Overlap.Action String Unit Event)}
    (hi : Initial s) (h : Steps (Overlap.step (system store)) Seeded s as s') :
    Ordered s'.shared := by
  have hn : s.shared.numbers = [] := by simp [Shared.numbers, hi.left]
  have hs : Holds Increasing Remembers s := by
    refine ⟨⟨?_, ?_, ?_⟩, fun {k d} hd => ?_⟩
    · simp [hn]
    · simp [hn]
    · simp [hi.left]
    · exact absurd (hi.right k ▸ hd) (by simp)
  exact (hs.steps preserves h).shared.ordered

def exampleState : State :=
  .idle ⟨none, [("a", none), ("b", none)], []⟩

-- The key is lost after the first number was persisted, and the second call starts from there.
theorem ordered_after_loss :
    ∃ as s', Steps (Overlap.step (system .fails)) Seeded exampleState as s' ∧
      s'.shared.numbers = [1, 2] ∧ Ordered s'.shared := by
  let as : List (Overlap.Action String Unit Event) := [
    .begin 0 "a", .resume 0 (), .resume 0 (), .resume 0 (), .resume 0 (), .change .lose,
    .begin 1 "b", .resume 1 (), .resume 1 (), .resume 1 ()]
  have hr : (Transition.run (Transition.restrict (Overlap.step (system .fails)) Seeded) exampleState
      as).any (·.shared.numbers = [1, 2]) := by
    decide
  obtain ⟨s', hs, hn⟩ := Option.any_eq_true _ _ |>.mp hr
  have hst := Steps.of_run hs
  exact ⟨as, s', hst, by simpa using hn, ordered_of_seeded ⟨rfl, fun _ => rfl⟩ hst⟩

-- Two calls find no key, and the second stores its seed after the first drew a number. Or the key is
-- lost after a number was drawn and before it is persisted.
theorem drawn_twice :
    (∃ as s', Transition.run (Overlap.step (system .fails)) exampleState as = some s' ∧
      (∀ a ∈ as, ∀ e, a ≠ .change e) ∧ s'.shared.numbers = [1, 1]) ∧
    ∃ as s', Transition.run (Overlap.step (system .fails)) exampleState as = some s' ∧
      s'.shared.numbers = [1, 1] ∧ ∃ d ∈ s'.shared.draws, d.number ∈ d.before := by
  constructor
  · let as : List (Overlap.Action String Unit Event) := [
      .begin 0 "a", .begin 1 "b", .resume 0 (), .resume 1 (), .resume 0 (), .resume 0 (),
      .resume 1 (), .resume 1 ()]
    have hr : (Transition.run (Overlap.step (system .fails)) exampleState as).any
        (·.shared.numbers = [1, 1]) := by
      decide
    obtain ⟨s', hs, hn⟩ := Option.any_eq_true _ _ |>.mp hr
    exact ⟨as, s', hs, by simp [as], by simpa using hn⟩
  · let as : List (Overlap.Action String Unit Event) := [
      .begin 0 "a", .resume 0 (), .resume 0 (), .resume 0 (), .change .lose, .begin 1 "b",
      .resume 1 (), .resume 1 (), .resume 1 ()]
    have hr : (Transition.run (Overlap.step (system .fails)) exampleState as).any
        (fun s => s.shared.numbers = [1, 1] ∧ ∃ d ∈ s.shared.draws, d.number ∈ d.before) := by
      decide
    obtain ⟨s', hs, hn⟩ := Option.any_eq_true _ _ |>.mp hr
    exact ⟨as, s', hs, by simpa only [decide_eq_true_eq] using hn⟩

end ControlPlane.MonotonicCounter
