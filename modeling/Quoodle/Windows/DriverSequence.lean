import Quoodle.Data.Transition
import Quoodle.Windows.DriverHmac
import Quoodle.Windows.KernelPipe

-- The threads of the agent that send requests to the driver, which takes their numbers in increasing
-- order only.
namespace Windows.DriverSequence

open Kernel (Arrival Request Verdict)
open Transition (Steps run)

structure Thread where
  request : Request
  signed : Bool

structure System where
  counter : Nat
  -- The calls that have not sent their requests yet, in the order in which they drew their numbers.
  threads : List Thread
  driver : Kernel.State
  verdicts : List Verdict

inductive Action where
  -- The sequence number of the request is replaced by the one that is drawn.
  | draw (q : DriverRequest)
  | sign (i : Nat)
  | issue (i : Nat) (now : UInt64)
  -- The transport fails before the request gets to the driver.
  | fail (i : Nat)
  | restart (nowMs : Int)

def step (key : List UInt8) (s : System) : Action → Option System
  | .draw q =>
    let sequence := nextSequence s.counter
    let request := { q with sequence := .ofNat sequence }.fill
    some { s with counter := sequence, threads := s.threads ++ [⟨request, false⟩] }
  | .sign i =>
    s.threads[i]?.bind fun t =>
      if t.signed then none
      else
        match signDriverRequest key t.request with
        | .error _ => some { s with threads := s.threads.eraseIdx i }
        | .ok request => some { s with threads := s.threads.set i ⟨request, true⟩ }
  | .issue i now =>
    s.threads[i]?.bind fun t =>
      if t.signed then
        let r := Kernel.execute s.driver ⟨now, t.request⟩
        some { s with
          threads := s.threads.eraseIdx i
          driver := r.2
          verdicts := s.verdicts ++ [r.1] }
      else none
  | .fail i => some { s with threads := s.threads.eraseIdx i }
  | .restart nowMs => some { s with counter := initialSequenceSeed nowMs, threads := [] }

structure Initial (s : System) : Prop where
  counter : s.counter < 2 ^ 63
  threads : s.threads = []
  last : s.driver.lastSeq ≤ s.counter
  verdicts : s.verdicts = []

-- The requests get to the driver in the order in which their numbers were drawn, the counter stays
-- among the signed numbers, and the clock has not been set back when the agent is started again.
def InOrder (s : System) : Action → Prop
  | .draw _ => s.counter + 1 < 2 ^ 63
  | .sign _ => True
  | .issue i _ => ∀ t ∈ s.threads[i]?, ∀ u ∈ s.threads.eraseIdx i,
    t.request.sequence < u.request.sequence
  | .fail _ => True
  | .restart nowMs =>
    s.driver.lastSeq ≤ initialSequenceSeed nowMs ∧ initialSequenceSeed nowMs < 2 ^ 63

def replay : Verdict :=
  .rejected 2001 "seq_replay"

structure Ordered (s : System) : Prop where
  counter : s.counter < 2 ^ 63
  last : s.driver.lastSeq ≤ s.counter
  threads : ∀ t ∈ s.threads,
    s.driver.lastSeq < t.request.sequence ∧ t.request.sequence ≤ s.counter
  verdicts : ∀ v ∈ s.verdicts, v ≠ replay

theorem Initial.ordered {s : System} (h : Initial s) : Ordered s where
  counter := h.counter
  last := h.last
  threads := by simp [h.threads]
  verdicts := by simp [h.verdicts]

theorem sequence_fill {q : DriverRequest} {n : Nat} (h : n < 2 ^ 63) :
    ({ q with sequence := .ofNat n } : DriverRequest).fill.sequence = (n : Int) := by
  change (UInt64.ofNat n).toInt64.toInt = n
  rw [UInt64.toInt64_ofNat', Int64.toInt_ofNat_of_lt h]

theorem sequence_of_signDriverRequest {key : List UInt8} {req req' : Request}
    (h : signDriverRequest key req = .ok req') : req'.sequence = req.sequence := by
  unfold signDriverRequest at h
  split at h
  case isTrue => cases h
  simp only at h
  split at h
  case isTrue => cases h
  split at h
  case isTrue => cases h
  cases h
  rfl

theorem fst_execute_ne_replay {s : Kernel.State} {a : Arrival} (h : s.lastSeq < a.sequence) :
    (Kernel.execute s a).1 ≠ replay := by
  have hu : Kernel.updateSequenceIfNew s.lastSeq a.request.sequence = some a.sequence :=
    if_neg (not_le.mpr h)
  simp only [Kernel.execute, hu]
  split
  case isTrue => simp [replay]
  split
  case isTrue => simp [replay]
  split
  case isTrue => simp [replay]
  case isFalse => exact Kernel.authenticate_ne_replay _ _

theorem lastSeq_execute_le {s : Kernel.State} {a : Arrival} (h : s.lastSeq < a.sequence) :
    (Kernel.execute s a).2.lastSeq ≤ a.sequence := by
  rw [Kernel.snd_execute]
  simp only [Arrival.last]
  split
  · exact max_le h.le le_rfl
  · exact h.le

section Step

variable {key : List UInt8} {s s' : System}

theorem Ordered.draw {q : DriverRequest} (h : Ordered s) (hc : InOrder s (.draw q))
    (hs : step key s (.draw q) = some s') : Ordered s' := by
  cases hs
  have hn : nextSequence s.counter = s.counter + 1 :=
    Nat.mod_eq_of_lt (Nat.lt_trans hc (by decide))
  have hl := h.last
  constructor <;> simp only [hn]
  case counter => exact hc
  case last => omega
  case threads =>
    intro t ht
    cases List.mem_append.mp ht
    case inl ht =>
      have ht := h.threads t ht
      omega
    case inr ht =>
      rw [List.mem_singleton.mp ht, sequence_fill hc]
      omega
  case verdicts => exact h.verdicts

theorem Ordered.sign {i : Nat} (h : Ordered s) (hs : step key s (.sign i) = some s') :
    Ordered s' := by
  obtain ⟨t, ht, hs⟩ := Option.bind_eq_some_iff.mp hs
  have hm := List.mem_of_getElem? ht
  split at hs
  case isTrue => cases hs
  split at hs
  case h_1 =>
    cases hs
    exact { h with threads := fun u hu => h.threads u (List.mem_of_mem_eraseIdx hu) }
  case h_2 hr =>
    cases hs
    refine { h with threads := fun u hu => ?_ }
    cases List.mem_or_eq_of_mem_set hu
    case inl hu => exact h.threads u hu
    case inr hu =>
      rw [hu, sequence_of_signDriverRequest hr]
      exact h.threads t hm

theorem Ordered.issue {i : Nat} {now : UInt64} (h : Ordered s) (hc : InOrder s (.issue i now))
    (hs : step key s (.issue i now) = some s') : Ordered s' := by
  obtain ⟨t, ht, hs⟩ := Option.bind_eq_some_iff.mp hs
  obtain ⟨hl, hr⟩ := h.threads t (List.mem_of_getElem? ht)
  have he := lastSeq_execute_le (a := ⟨now, t.request⟩) hl
  split at hs
  case isFalse => cases hs
  cases hs
  constructor
  case counter => exact h.counter
  case last => exact he.trans hr
  case threads =>
    intro u hu
    have hu' := h.threads u (List.mem_of_mem_eraseIdx hu)
    exact ⟨he.trans_lt (hc t ht u hu), hu'.right⟩
  case verdicts =>
    intro v hv
    cases List.mem_append.mp hv
    case inl hv => exact h.verdicts v hv
    case inr hv =>
      rw [List.mem_singleton.mp hv]
      exact fst_execute_ne_replay hl

theorem Ordered.step {a : Action} (h : Ordered s) (hc : InOrder s a)
    (hs : step key s a = some s') : Ordered s' := by
  cases a
  case draw q => exact h.draw hc hs
  case sign i => exact h.sign hs
  case issue i now => exact h.issue hc hs
  case fail i =>
    cases hs
    exact { h with threads := fun u hu => h.threads u (List.mem_of_mem_eraseIdx hu) }
  case restart nowMs =>
    cases hs
    exact ⟨hc.right, hc.left, by simp, h.verdicts⟩

end Step

-- If the requests get to the driver in the order of their numbers, none of them is a replay.
theorem not_replay_of_inOrder {key : List UInt8} {s s' : System} {as : List Action}
    (hi : Initial s) (h : Steps (step key) InOrder s as s') : replay ∉ s'.verdicts :=
  fun hv => (h.invariant Ordered.step hi.ordered).verdicts _ hv rfl

def idleSystem : System :=
  ⟨1700000000000, [], ⟨0, Kernel.hmacKey⟩, []⟩

def firstRun : List Action := [
  .draw pingDriverRequest, .draw pingDriverRequest, .sign 1, .sign 0, .issue 0 1700000000,
  .issue 0 1700000001]

instance (s : System) : DecidablePred (InOrder s)
  | .draw _ => inferInstanceAs <| Decidable <| s.counter + 1 < 2 ^ 63
  | .sign _ => isTrue trivial
  | .issue i _ =>
    inferInstanceAs <| Decidable <| ∀ t ∈ s.threads[i]?, ∀ u ∈ s.threads.eraseIdx i,
      t.request.sequence < u.request.sequence
  | .fail _ => isTrue trivial
  | .restart nowMs =>
    inferInstanceAs <| Decidable <|
      s.driver.lastSeq ≤ initialSequenceSeed nowMs ∧ initialSequenceSeed nowMs < 2 ^ 63

theorem not_replay_of_inOrder_firstRun :
    ∃ s, Steps (step Kernel.hmacKey) InOrder idleSystem firstRun s ∧ s.verdicts.length = 2 ∧
      replay ∉ s.verdicts := by
  have h : (run (Transition.restrict (step Kernel.hmacKey) InOrder) idleSystem firstRun).map
      (·.verdicts.length) = some 2 := by
    decide +kernel
  obtain ⟨s, hr, hl⟩ := Option.map_eq_some_iff.mp h
  exact ⟨s, .of_run hr, hl, not_replay_of_inOrder ⟨by decide, rfl, by decide, rfl⟩ (.of_run hr)⟩

def overtakingRun : List Action := [
  .draw pingDriverRequest, .draw pingDriverRequest, .sign 0, .sign 1, .issue 1 1700000000,
  .issue 0 1700000000]

theorem overtaken_replay :
    Initial idleSystem ∧ (run (step Kernel.hmacKey) idleSystem overtakingRun).map System.verdicts =
      some [.accepted, replay] := by
  refine ⟨⟨by decide, rfl, by decide, rfl⟩, ?_⟩
  decide +kernel

end Windows.DriverSequence
