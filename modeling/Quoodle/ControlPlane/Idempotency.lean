import Quoodle.ControlPlane.Commands

-- The delivery of one webhook with the result of a command, from the outbox of the gateway to the
-- row of the command.
namespace ControlPlane.Idempotency

variable {ρ : Type}

inductive Status where
  | pending | delivered | dlq
  deriving DecidableEq

-- The row of the outbox. When the next attempt is due is left open.
structure Outbox where
  status : Status
  attempts : Nat

namespace Outbox

def markDelivered (o : Outbox) : Outbox :=
  { o with status := .delivered }

-- The worker counts from the attempts that it has read with the row, `enqueue_and_send` from those
-- that the row has now.
def markRetry (maxAttempts : Nat) (o : Outbox) (fetched : Option Nat) : Outbox :=
  let nextAttempts := fetched.getD o.attempts + 1
  if nextAttempts ≥ maxAttempts then { o with status := .dlq }
  else ⟨.pending, nextAttempts⟩

end Outbox

inductive Phase (ρ : Type) where
  | found (command : Command ρ)
  | marked (t : Task ρ)
  | written

structure Config (ρ : Type) where
  maxAttempts : Nat
  -- The data of the event, unless they do not pass the validation.
  data : Option (ResultData ρ)

structure State (ρ : Type) where
  outbox : Outbox
  sending : List (Option Nat)
  row : Option (Command ρ)
  marked : Bool
  requests : List (Phase ρ)
  answers : List Nat
  -- How often the result was written to the row.
  applied : Nat

namespace State

def answer (s : State ρ) (status : Nat) : State ρ :=
  { s with answers := s.answers ++ [status] }

def enter (s : State ρ) (i : Nat) (p : Phase ρ) : State ρ :=
  { s with requests := s.requests.set i p }

def finish (s : State ρ) (i : Nat) (status : Nat) : State ρ :=
  { s with requests := s.requests.eraseIdx i, answers := s.answers ++ [status] }

def receive (cfg : Config ρ) (s : State ρ) : State ρ :=
  match cfg.data, s.row with
  | none, _ => s.answer 422
  | some _, none => s.answer 404
  | some _, some command => { s with requests := s.requests ++ [.found command] }

-- The rest of the handler up to its write. There is an exception if `completed_at` cannot be set.
def proceed (s : State ρ) (i : Nat) (data : ResultData ρ) (command : Command ρ) : State ρ :=
  match commandResultStore data false command with
  | some t => s.enter i (.marked t)
  | none => s.finish i (if command.IsTerminal then 200 else 500)

-- Every exception of the insertion counts as a duplicate.
def isDuplicate (s : State ρ) (fails : Bool) : Bool :=
  s.marked || fails

end State

inductive Action (ρ : Type) where
  | enqueueAndSend
  | retry
  | insert (i : Nat) (fails : Bool)
  | write (i : Nat)
  -- The outbound webhook is published, if that does not fail.
  | publish (i : Nat) (ok : Bool)
  | crash (i : Nat)
  | deliver (j : Nat) (response : Option Nat)
  | other (row : Command ρ)

def isSuccess (status : Nat) : Bool :=
  200 ≤ status && status < 300

def step [DecidableEq ρ] (cfg : Config ρ) (s : State ρ) : Action ρ → Option (State ρ)
  | .enqueueAndSend => some ({ s with sending := s.sending ++ [none] }.receive cfg)
  | .retry =>
    if s.outbox.status = .pending then
      some ({ s with sending := s.sending ++ [some s.outbox.attempts] }.receive cfg)
    else none
  | .insert i fails =>
    match cfg.data, s.requests[i]? with
    | some data, some (.found command) =>
      if s.isDuplicate fails then some (s.finish i 200)
      else some ({ s with marked := true }.proceed i data command)
    | _, _ => none
  | .write i =>
    match s.requests[i]? with
    | some (.marked t) =>
      some { s.enter i .written with
        row := s.row.map (t.write ⟨none, none⟩ 0)
        applied := s.applied + 1 }
    | _ => none
  | .publish i ok =>
    match s.requests[i]? with
    | some .written => some (s.finish i (if ok then 200 else 500))
    | _ => none
  | .crash i => if i < s.requests.length then some (s.finish i 500) else none
  | .deliver j response =>
    s.sending[j]?.bind fun fetched =>
      if ∀ status ∈ response, status ∈ s.answers then
        some { s with
          sending := s.sending.eraseIdx j
          outbox :=
            if response.any isSuccess then s.outbox.markDelivered
            else s.outbox.markRetry cfg.maxAttempts fetched }
      else none
  | .other row => some { s with row := s.row.map fun _ => row }

structure Initial (s : State ρ) : Prop where
  marked : s.marked = false
  requests : s.requests = []
  answers : s.answers = []
  applied : s.applied = 0

def Phase.isMarked : Phase ρ → Bool
  | .marked _ => true
  | _ => false

def Phase.Applicable (data : ResultData ρ) : Phase ρ → Prop
  | .found command =>
    ¬command.IsTerminal ∧ ((command.reported data).IsTerminal → data.timestamp ≠ none)
  | _ => True

-- The insertion fails only for an event that was processed. A request that has processed the event
-- writes the result before anything else happens to the event, and is able to do so.
def Undisturbed (cfg : Config ρ) (s : State ρ) : Action ρ → Prop
  | .insert i fails =>
    fails = false ∧ (∀ p ∈ s.requests, ¬p.isMarked) ∧
      (¬s.marked → ∀ p ∈ s.requests[i]?, ∀ data ∈ cfg.data, p.Applicable data)
  | .crash i => ∀ p ∈ s.requests[i]?, ¬p.isMarked
  | _ => True

def State.writing (s : State ρ) : Nat :=
  s.requests.countP Phase.isMarked

variable {cfg : Config ρ} {s s' : State ρ} {i : Nat} {p q : Phase ρ}

section Count

variable {α : Type} {f : α → Bool} {xs : List α} {x : α}

theorem countP_eraseIdx (h : xs[i]? = some x) :
    (xs.eraseIdx i).countP f + (f x).toNat = xs.countP f := by
  obtain ⟨hi, rfl⟩ := List.getElem?_eq_some_iff.mp h
  rw [← (List.getElem_cons_eraseIdx_perm hi).countP_eq, List.countP_cons]
  cases f xs[i] <;> rfl

theorem countP_set (h : xs[i]? = some x) (y : α) :
    (xs.set i y).countP f + (f x).toNat = xs.countP f + (f y).toNat := by
  have hy : (xs.set i y)[i]? = some y := by
    rw [List.getElem?_set_self', h]
    rfl
  have hc := countP_eraseIdx (f := f) hy
  rw [List.eraseIdx_set_eq] at hc
  rw [← countP_eraseIdx (f := f) h, ← hc]
  omega

end Count

namespace State

theorem writing_receive : (s.receive cfg).writing = s.writing := by
  unfold receive
  split
  case h_3 => simp [writing, Phase.isMarked]
  all_goals rfl

theorem writing_finish (h : s.requests[i]? = some p) (status : Nat) :
    (s.finish i status).writing + p.isMarked.toNat = s.writing :=
  countP_eraseIdx h

theorem writing_enter (h : s.requests[i]? = some p) (q : Phase ρ) :
    (s.enter i q).writing + p.isMarked.toNat = s.writing + q.isMarked.toNat :=
  countP_set h q

def Single (s : State ρ) : Prop :=
  s.applied + s.writing ≤ s.marked.toNat

theorem single_finish (hs : s.Single) (h : s.requests[i]? = some p) (status : Nat) :
    (s.finish i status).Single := by
  have hw := writing_finish h status
  unfold Single at hs ⊢
  simp only [finish] at hw ⊢
  omega

theorem single_proceed (hs : s.Single) (hm : s.marked = false) {command : Command ρ}
    (h : s.requests[i]? = some (.found command)) (data : ResultData ρ) :
    ({ s with marked := true }.proceed i data command).Single := by
  simp only [Single, hm, Bool.toNat_false] at hs
  simp only [Single, proceed]
  split
  case h_1 t _ =>
    have hw := writing_enter h (.marked t)
    simp only [Phase.isMarked, Bool.toNat_true, Bool.toNat_false] at hw
    change s.applied + (s.enter i (.marked t)).writing ≤ 1
    omega
  have hw := writing_finish h 200
  change s.applied + (s.finish i 200).writing ≤ 1
  omega

theorem single_receive (hs : s.Single) : (s.receive cfg).Single := by
  unfold Single at hs ⊢
  rw [writing_receive]
  unfold receive
  split <;> exact hs

end State

theorem single_step [DecidableEq ρ] {a : Action ρ} (h : s.Single) (hs : step cfg s a = some s') :
    s'.Single := by
  cases a
  case enqueueAndSend =>
    cases hs
    exact State.single_receive h
  case retry =>
    obtain ⟨_, hs⟩ := Option.ite_none_right_eq_some.mp hs
    cases hs
    exact State.single_receive h
  case insert i fails =>
    simp only [step] at hs
    split at hs
    case h_2 => cases hs
    case h_1 data command _ hi =>
      split at hs <;> cases hs
      case isTrue => exact State.single_finish h hi 200
      case isFalse hd =>
        have hm : s.marked = false := by simp_all [State.isDuplicate]
        exact State.single_proceed h hm hi data
  case write i =>
    simp only [step] at hs
    split at hs <;> cases hs
    case h_1 t hi =>
      have hw := State.writing_enter hi .written
      simp only [Phase.isMarked, Bool.toNat_true, Bool.toNat_false] at hw
      unfold State.Single at h ⊢
      change s.applied + 1 + (s.enter i .written).writing ≤ s.marked.toNat
      omega
  case publish i ok =>
    simp only [step] at hs
    split at hs <;> cases hs
    case h_1 hi => exact State.single_finish h hi _
  case crash i =>
    obtain ⟨hi, hs⟩ := Option.ite_none_right_eq_some.mp hs
    cases hs
    exact State.single_finish h (List.getElem?_eq_getElem hi) 500
  case deliver j response =>
    obtain ⟨fetched, _, hs⟩ := Option.bind_eq_some_iff.mp hs
    obtain ⟨_, hs⟩ := Option.ite_none_right_eq_some.mp hs
    cases hs
    exact h
  case other row =>
    cases hs
    exact h

-- Once the event is processed, the result is written or about to be.
structure Kept (s : State ρ) : Prop where
  marked : s.marked.toNat ≤ s.applied + s.writing
  written : .written ∈ s.requests → 1 ≤ s.applied
  answers : ∀ status ∈ s.answers, isSuccess status → 1 ≤ s.applied

namespace Kept

theorem finish (h : Kept s) (hi : s.requests[i]? = some p) (hp : ¬p.isMarked) {status : Nat}
    (hs : isSuccess status → 1 ≤ s.applied) : Kept (s.finish i status) where
  marked := by
    have hw := State.writing_finish hi status
    have hm := h.marked
    simp only [hp, Bool.toNat_false] at hw
    change s.marked.toNat ≤ s.applied + (s.finish i status).writing
    omega
  written hw := h.written (List.mem_of_mem_eraseIdx hw)
  answers st hm hst := by
    cases List.mem_append.mp hm
    case inl hm => exact h.answers st hm hst
    case inr hm => exact hs (List.mem_singleton.mp hm ▸ hst)

theorem receive (h : Kept s) : Kept (s.receive cfg) := by
  have ha {status : Nat} (hn : ¬isSuccess status) : Kept (s.answer status) := by
    refine ⟨h.marked, h.written, fun st hm hs => ?_⟩
    cases List.mem_append.mp hm
    case inl hm => exact h.answers st hm hs
    case inr hm => exact absurd (List.mem_singleton.mp hm ▸ hs) hn
  unfold State.receive
  split
  case h_1 | h_2 => exact ha (by decide)
  case h_3 command _ _ =>
    refine ⟨?_, fun hw => h.written (by simpa using hw), h.answers⟩
    simpa [State.writing, Phase.isMarked] using h.marked

theorem insert (h : Kept s) {data : ResultData ρ} {command : Command ρ}
    (hi : s.requests[i]? = some (.found command))
    (ha : (Phase.found command).Applicable data) : Kept ({ s with marked := true }.proceed i data command) := by
  have ht : commandResultStore data false command =
      some (.update command (command.reported data)) := by
    have hn : ¬((command.reported data).IsTerminal ∧ data.timestamp = none) :=
      fun hn => ha.right hn.left hn.right
    simp only [commandResultStore, if_neg ha.left, if_neg hn, Bool.false_eq_true, if_false]
  simp only [State.proceed, ht]
  refine ⟨?_, fun hw => h.written ?_, h.answers⟩
  · have hw := State.writing_enter hi (.marked (.update command (command.reported data)))
    simp only [Phase.isMarked, Bool.toNat_true, Bool.toNat_false] at hw
    change 1 ≤ s.applied + (s.enter i _).writing
    omega
  · cases List.mem_or_eq_of_mem_set hw
    case inl hw => exact hw
    case inr hw => cases hw

theorem write (h : Kept s) {t : Task ρ} (hi : s.requests[i]? = some (.marked t))
    (row : Option (Command ρ)) :
    Kept { s.enter i .written with row := row, applied := s.applied + 1 } := by
  refine ⟨?_, fun _ => Nat.le_add_left .., fun _ _ _ => Nat.le_add_left ..⟩
  have hm := h.marked
  have hw := State.writing_enter hi .written
  simp only [Phase.isMarked, Bool.toNat_true, Bool.toNat_false] at hw
  change s.marked.toNat ≤ s.applied + 1 + (s.enter i .written).writing
  omega

theorem step [DecidableEq ρ] {a : Action ρ} (h : Kept s) (ha : Undisturbed cfg s a)
    (hs : step cfg s a = some s') : Kept s' := by
  cases a
  case enqueueAndSend =>
    cases hs
    exact receive ⟨h.marked, h.written, h.answers⟩
  case retry =>
    obtain ⟨_, hs⟩ := Option.ite_none_right_eq_some.mp hs
    cases hs
    exact receive ⟨h.marked, h.written, h.answers⟩
  case insert i fails =>
    obtain ⟨rfl, hn, ha⟩ := ha
    simp only [Idempotency.step] at hs
    split at hs
    case h_2 => cases hs
    case h_1 data command hd hi =>
      have hw : s.writing = 0 := List.countP_eq_zero.mpr hn
      split at hs <;> cases hs
      case isTrue hm =>
        have hm : s.marked := by simpa [State.isDuplicate] using hm
        have hk := h.marked
        rw [hm, hw, Bool.toNat_true] at hk
        exact h.finish hi (by simp [Phase.isMarked]) fun _ => hk
      case isFalse hm =>
        have hm : s.marked = false := by simpa [State.isDuplicate] using hm
        exact h.insert hi (ha (by simp [hm]) _ hi data hd)
  case write i =>
    simp only [Idempotency.step] at hs
    split at hs <;> cases hs
    case h_1 t hi => exact h.write hi _
  case publish i ok =>
    simp only [Idempotency.step] at hs
    split at hs <;> cases hs
    case h_1 hi =>
      exact h.finish hi (by simp [Phase.isMarked]) fun _ => h.written (List.mem_of_getElem? hi)
  case crash i =>
    obtain ⟨hi, hs⟩ := Option.ite_none_right_eq_some.mp hs
    cases hs
    exact h.finish (List.getElem?_eq_getElem hi) (ha _ (List.getElem?_eq_getElem hi)) nofun
  case deliver j response =>
    obtain ⟨fetched, _, hs⟩ := Option.bind_eq_some_iff.mp hs
    obtain ⟨_, hs⟩ := Option.ite_none_right_eq_some.mp hs
    cases hs
    exact ⟨h.marked, h.written, h.answers⟩
  case other row =>
    cases hs
    exact ⟨h.marked, h.written, h.answers⟩

theorem of_initial (h : Initial s) : Kept s := by
  refine ⟨?_, ?_, ?_⟩ <;> simp [h.marked, h.requests, h.answers]

end Kept

theorem single_of_initial (h : Initial s) : s.Single := by
  simp [State.Single, State.writing, h.marked, h.requests, h.applied]

-- The result is never applied twice, and is applied once there is an answer that says so.
theorem applied_of_isSuccess [DecidableEq ρ] (hi : Initial s) :
    (∀ as s', Transition.run (step cfg) s as = some s' → s'.applied ≤ 1) ∧
      ∀ as s', Transition.Steps (step cfg) (Undisturbed cfg) s as s' →
        (∃ status ∈ s'.answers, isSuccess status) → s'.applied = 1 := by
  have hle {s' : State ρ} (h : s'.Single) : s'.applied ≤ 1 :=
    (Nat.le_add_right ..).trans (h.trans (Bool.toNat_le _))
  have hg := single_of_initial hi
  refine ⟨fun as s' h => hle (Transition.run_invariant single_step h hg), fun as s' h hs => ?_⟩
  have hk := h.invariant Kept.step (.of_initial hi)
  obtain ⟨status, hm, hs⟩ := hs
  refine le_antisymm (hle ?_) (hk.answers status hm hs)
  exact h.invariant (fun hi _ hs => single_step hi hs) hg

instance (data : ResultData ρ) : DecidablePred (Phase.Applicable data)
  | .found command => inferInstanceAs <| Decidable <|
    ¬command.IsTerminal ∧ ((command.reported data).IsTerminal → data.timestamp ≠ none)
  | .marked _ | .written => isTrue trivial

instance (cfg : Config ρ) (s : State ρ) : DecidablePred (Undisturbed cfg s)
  | .insert i fails => inferInstanceAs <| Decidable <|
    fails = false ∧ (∀ p ∈ s.requests, ¬p.isMarked) ∧
      (¬s.marked → ∀ p ∈ s.requests[i]?, ∀ data ∈ cfg.data, p.Applicable data)
  | .crash i => inferInstanceAs (Decidable (∀ p ∈ s.requests[i]?, ¬p.isMarked))
  | .enqueueAndSend | .retry | .write _ | .publish _ _ | .deliver _ _ | .other _ => isTrue trivial

def exampleConfig : Config String :=
  ⟨6, some completedReport⟩

def pendingEvent : State String :=
  ⟨⟨.pending, 0⟩, [], some queuedCommand, false, [], [], 0⟩

-- The answer to the first attempt is lost. The second finds the event among those that were processed.
theorem applied_of_isSuccess_retried :
    ∃ s, Transition.Steps (step exampleConfig) (Undisturbed exampleConfig) pendingEvent
        [.enqueueAndSend, .insert 0 false, .write 0, .publish 0 true, .deliver 0 none, .retry,
          .insert 0 false, .deliver 0 (some 200)] s ∧
      s.answers = [200, 200] ∧ s.outbox.status = .delivered ∧ s.applied = 1 := by
  have h : Transition.Steps (step exampleConfig) (Undisturbed exampleConfig) pendingEvent
      [.enqueueAndSend, .insert 0 false, .write 0, .publish 0 true, .deliver 0 none, .retry,
        .insert 0 false, .deliver 0 (some 200)] _ := .of_run rfl
  have hs := (applied_of_isSuccess ⟨rfl, rfl, rfl, rfl⟩).right _ _ h ⟨200, by decide, rfl⟩
  exact ⟨_, h, rfl, rfl, hs⟩

-- There is an exception between the insertion and the write, and the second attempt succeeds.
theorem not_applied_after_crash :
    ∃ s, Transition.run (step exampleConfig) pendingEvent
        [.enqueueAndSend, .insert 0 false, .crash 0, .deliver 0 (some 500), .retry,
          .insert 0 false, .deliver 0 (some 200)] = some s ∧
      s.answers = [500, 200] ∧ s.outbox.status = .delivered ∧ s.applied = 0 ∧
      s.row = some queuedCommand :=
  ⟨_, rfl, rfl, rfl, rfl, rfl⟩

end ControlPlane.Idempotency
