import Quoodle.Data.Overlap
import Quoodle.Data.Rows
import Quoodle.ControlPlane.OutboundWebhooks

-- Deliveries that overlap with what operators do to the endpoints.
namespace ControlPlane.OutboundWebhooks

open Overlap (Holds Preserves)
open Transition (Steps)

structure Database (π : Type) where
  deliveries : List (Row π)
  endpoints : List Endpoint

inductive Task (π : Type) where
  | sending (f : Flight π)
  -- The delivery was saved, the endpoint is not yet.
  | storing (loaded changed : Endpoint)

structure Edit where
  url : String
  retryPolicy : RetryPolicy
  timeoutMs : Nat
  signingSecretEncrypted : Option (List UInt8)

inductive Change (π : Type) where
  | setStatus (endpointId : String) (status : EndpointStatus)
  | edit (endpointId : String) (e : Edit)
  | destroy (endpointId : String)
  | store (e : Endpoint)
  | publish (row : Row π)

section Merge

theorem of_merge {α : Type} [DecidableEq α] {P : α → Prop} {loaded changed current : α}
    (h : P changed) (h' : P current) : P (Rows.merge loaded changed current) := by
  unfold Rows.merge
  split
  case isTrue => exact h'
  case isFalse => exact h

variable {π : Type}

-- Only the columns that were changed in memory are written.
def Row.merge (loaded changed current : Row π) : Row π where
  id := current.id
  endpointId := current.endpointId
  eventId := current.eventId
  payloadJson := current.payloadJson
  attempt := Rows.merge loaded.attempt changed.attempt current.attempt
  maxAttempts := Rows.merge loaded.maxAttempts changed.maxAttempts current.maxAttempts
  status := Rows.merge loaded.status changed.status current.status
  nextAttemptAt := Rows.merge loaded.nextAttemptAt changed.nextAttemptAt current.nextAttemptAt
  httpStatus := Rows.merge loaded.httpStatus changed.httpStatus current.httpStatus
  latencyMs := Rows.merge loaded.latencyMs changed.latencyMs current.latencyMs
  responseBody := Rows.merge loaded.responseBody changed.responseBody current.responseBody
  lastError := Rows.merge loaded.lastError changed.lastError current.lastError
  sentAt := Rows.merge loaded.sentAt changed.sentAt current.sentAt
  deliveredAt := Rows.merge loaded.deliveredAt changed.deliveredAt current.deliveredAt
  storable :=
    have h := changed.storable
    have h' := current.storable
    ⟨of_merge (P := (· < 2 ^ 16)) h.attempt h'.attempt,
      of_merge (P := (· < 2 ^ 16)) h.maxAttempts h'.maxAttempts,
      of_merge (P := (∀ t ∈ ·, IsTimestamp t)) h.nextAttemptAt h'.nextAttemptAt,
      of_merge (P := (∀ n ∈ ·, n < 2 ^ 16)) h.httpStatus h'.httpStatus,
      of_merge (P := (∀ n ∈ ·, n < 2 ^ 32)) h.latencyMs h'.latencyMs,
      of_merge (P := (∀ bs ∈ ·, IsText bs)) h.responseBody h'.responseBody,
      of_merge (P := (∀ bs ∈ ·, IsText bs)) h.lastError h'.lastError,
      of_merge (P := (∀ t ∈ ·, IsTimestamp t)) h.sentAt h'.sentAt,
      of_merge (P := (∀ t ∈ ·, IsTimestamp t)) h.deliveredAt h'.deliveredAt⟩

end Merge

namespace Database

variable {π : Type} (db : Database π)

def endpoint (id : String) : Option Endpoint :=
  Rows.find Endpoint.id db.endpoints id

def updateEndpoint (id : String) (f : Endpoint → Endpoint) : Database π :=
  { db with endpoints := Rows.update Endpoint.id db.endpoints id f }

def saveDelivery (loaded changed : Row π) : Database π :=
  { db with
    deliveries := Rows.update (·.id) db.deliveries loaded.id (Row.merge loaded changed) }

def saveEndpoint (loaded changed : Endpoint) : Database π :=
  db.updateEndpoint loaded.id fun e =>
    e.withStatus (Rows.merge loaded.status changed.status e.status)

end Database

section System

variable {π : Type} (p : Platform π)

def begin (db : Database π) (deliveryId : String) (now : Int) : Database π × Option (Task π) :=
  match Rows.find (·.id) db.deliveries deliveryId with
  | none => (db, none)
  | some row =>
    match startDelivery p now row (db.endpoint row.endpointId) with
    | .ended row' => (db.saveDelivery row row', none)
    | .thrown row' => (db.saveDelivery row row', none)
    | .sending f => (db.saveDelivery row f.row, some (.sending f))

def resume (db : Database π) (c : Circumstances) : Task π → Database π × Option (Task π)
  | .sending f =>
    let finished := finishDelivery p c f
    match finished.result with
    | none => (db, none)
    | some _ => (db.saveDelivery f.row finished.row, some (.storing f.endpoint finished.endpoint))
  | .storing loaded changed => (db.saveEndpoint loaded changed, none)

def Edit.apply (edit : Edit) (e : Endpoint) : Endpoint where
  id := e.id
  url := edit.url
  status := e.status
  retryPolicy := edit.retryPolicy
  timeoutMs := edit.timeoutMs
  signingSecretEncrypted := edit.signingSecretEncrypted

def change (db : Database π) : Change π → Database π
  | .setStatus id status => db.updateEndpoint id (·.withStatus status)
  | .edit id e => db.updateEndpoint id e.apply
  -- The deliveries of an endpoint are deleted with it.
  | .destroy id =>
    ⟨db.deliveries.filter (·.endpointId ≠ id), Rows.delete Endpoint.id db.endpoints id⟩
  | .store e => { db with endpoints := db.endpoints ++ [e] }
  | .publish row => { db with deliveries := db.deliveries ++ [row] }

def system : Overlap.System (Database π) (Task π) (String × Int) Circumstances (Change π) where
  begin db i := begin p db i.1 i.2
  resume db t c := resume p db c t
  change := change

abbrev State (π : Type) := Overlap.State (Database π) (Task π)

abbrev Action (π : Type) := Overlap.Action (String × Int) Circumstances (Change π)

end System

section Property

variable {π : Type} (id : String)

-- All but what an operator does to the status of the endpoint.
def LeavesStatus : Action π → Prop
  | .change (.setStatus id' _) => id' ≠ id
  | .change (.destroy id') => id' ≠ id
  | _ => True

def IsPaused (db : Database π) : Prop :=
  ∃ e, db.endpoint id = some e ∧ e.status = .paused

instance {db : Database π} : Decidable (IsPaused id db) :=
  match h : db.endpoint id with
  | none => isFalse fun ⟨_, he, _⟩ => by simp [h] at he
  | some e => decidable_of_iff (e.status = .paused) (by simp [IsPaused, h])

def pause (s : State π) : State π :=
  { s with shared := change s.shared (.setStatus id .paused) }

def StaysPaused (p : Platform π) (s : State π) : Prop :=
  ∀ as s', Steps (Overlap.step (system p)) (fun _ a => LeavesStatus id a) (pause id s) as s' →
    IsPaused id s'.shared

-- The delivery is about another endpoint, or it will not write a status.
def Task.IsHarmless : Task π → Prop
  | sending f =>
    f.endpoint.id ≠ id ∨ f.endpoint.status ≠ .failing ∧
      Overflows f.row.attempt f.row.maxAttempts f.endpoint.retryPolicy
  | storing loaded changed =>
    loaded.id ≠ id ∨ Rows.merge loaded.status changed.status .paused = .paused

end Property

section Databases

variable {π : Type} {db : Database π} {id id' : String} {e : Endpoint} {f : Endpoint → Endpoint}

theorem endpoint_updateEndpoint (hf : ∀ e, (f e).id = e.id) :
    (db.updateEndpoint id' f).endpoint id =
      if id' = id then (db.endpoint id).map f else db.endpoint id :=
  Rows.find_update fun e he => (hf e).trans he

theorem IsPaused.updateEndpoint (h : IsPaused id db) (hf : ∀ e, (f e).id = e.id)
    (hs : id' = id → ∀ e, e.status = .paused → (f e).status = .paused) :
    IsPaused id (db.updateEndpoint id' f) := by
  obtain ⟨e, he, hp⟩ := h
  rw [IsPaused, endpoint_updateEndpoint hf]
  split
  case isTrue hi => exact ⟨f e, by rw [he]; rfl, hs hi e hp⟩
  case isFalse hi => exact ⟨e, he, hp⟩

end Databases

section Preservation

variable {π : Type} {p : Platform π} {db : Database π} {id : String} {t : Task π} {now : Int}
variable {f : Flight π} {c : Circumstances}

theorem giveUp_ne_sending {row : Row π} {error : String} : giveUp p row error ≠ .sending f := by
  rw [giveUp]
  split <;> simp

theorem endpoint_of_startDelivery {row : Row π} {endpoint : Option Endpoint}
    (h : startDelivery p now row endpoint = .sending f) :
    endpoint = some f.endpoint ∧ f.endpoint.status ≠ .paused := by
  unfold startDelivery at h
  split at h
  case isTrue => cases h
  cases endpoint
  case none => exact absurd h giveUp_ne_sending
  case some e =>
    dsimp only at h
    split at h
    case isTrue => exact absurd h giveUp_ne_sending
    case isFalse hu =>
      split at h
      case h_1 => cases h
      split at h
      case h_1 => exact absurd h giveUp_ne_sending
      split at h
      case h_1 => cases h
      cases h
      exact ⟨rfl, hu⟩

theorem status_finishDelivery (hs : f.endpoint.status ≠ .failing)
    (ho : Overflows f.row.attempt f.row.maxAttempts f.endpoint.retryPolicy)
    (h : (finishDelivery p c f).result.isSome) :
    (finishDelivery p c f).endpoint.status = f.endpoint.status := by
  by_cases hr : c.answer.Successful ∧ c.answer.IsStorable
  case pos =>
    obtain ⟨row', _, _, hf⟩ := finishDelivery_of_successful (p := p) (f := f) hr.1 hr.2
    rw [hf, Endpoint.withStatus, if_neg hs]
  case neg =>
    have hx : ¬ c.answer.IsStorable ∨ ¬ c.answer.Successful ∧ _ :=
      (not_and_or.mp hr).symm.imp_right fun hn => ⟨hn, ho⟩
    rw [finishDelivery_of_refused hx] at h
    cases h

theorem begin_sound {deliveryId : String} (h : IsPaused id db) :
    IsPaused id (begin p db deliveryId now).1 ∧
      ∀ t ∈ (begin p db deliveryId now).2, t.IsHarmless id := by
  obtain ⟨e, he, hp⟩ := h
  rw [begin]
  split
  case h_1 => exact ⟨⟨e, he, hp⟩, by simp⟩
  case h_2 row hr =>
    split
    case h_1 | h_2 => exact ⟨⟨e, he, hp⟩, by simp⟩
    case h_3 f hf =>
      refine ⟨⟨e, he, hp⟩, ?_⟩
      rintro _ ⟨⟩
      obtain ⟨hf, hn⟩ := endpoint_of_startDelivery hf
      refine .inl fun hi => hn ?_
      have hk := Rows.key_of_find hf
      rw [← hk, hi, he, Option.some_inj] at hf
      exact hf ▸ hp

theorem resume_sound (h : IsPaused id db) (ht : t.IsHarmless id) :
    IsPaused id (resume p db c t).1 ∧ ∀ t' ∈ (resume p db c t).2, t'.IsHarmless id := by
  cases t
  case sending f =>
    rw [resume]
    split
    case h_1 => exact ⟨h, by simp⟩
    case h_2 r hr =>
      refine ⟨h, ?_⟩
      rintro _ ⟨⟩
      refine ht.imp_right fun ⟨hs, ho⟩ => ?_
      rw [status_finishDelivery hs ho (by rw [hr]; rfl), Rows.merge_self]
  case storing loaded changed =>
    refine ⟨h.updateEndpoint (fun _ => rfl) fun hi e hp => ?_, by simp [resume]⟩
    rw [Endpoint.withStatus, hp]
    exact ht.resolve_left fun hn => hn hi

theorem change_sound {e : Change π} (h : IsPaused id db) (he : LeavesStatus id (.change e)) :
    IsPaused id (change db e) := by
  cases e
  case setStatus id' status => exact h.updateEndpoint (fun _ => rfl) fun hi => absurd hi he
  case edit id' e => exact h.updateEndpoint (fun _ => rfl) fun _ _ hp => hp
  case destroy id' =>
    obtain ⟨e, he', hp⟩ := h
    refine ⟨e, ?_, hp⟩
    rw [change, Database.endpoint, Rows.find_delete, if_neg he]
    exact he'
  case store e =>
    obtain ⟨e', he', hp⟩ := h
    refine ⟨e', ?_, hp⟩
    rw [change, Database.endpoint, Rows.find_append]
    rw [Database.endpoint] at he'
    rw [he', Option.some_or]
  case publish row => exact h

theorem preserves_isPaused :
    Preserves (system p) (fun _ a => LeavesStatus id a) (IsPaused id) fun _ t => t.IsHarmless id where
  begin h _ := begin_sound h.shared
  resume h ht _ := resume_sound h.shared (h.tasks ht)
  change h he := change_sound h.shared he
  others _ _ _ _ ht := ht

end Preservation

section Pause

variable {π : Type} {p : Platform π} {db : Database π} {s : State π} {id : String} {e : Endpoint}
variable {k : Nat} {t : Task π} {c : Circumstances}

theorem isPaused_pause (he : s.shared.endpoint id = some e) : IsPaused id (pause id s).shared := by
  have hu : (pause id s).shared.endpoint id = if id = id then _ else _ :=
    endpoint_updateEndpoint fun _ => rfl
  rw [if_pos rfl, he] at hu
  exact ⟨_, hu, rfl⟩

theorem staysPaused_of_harmless (he : s.shared.endpoint id = some e)
    (h : ∀ k t, s.tasks k = some t → t.IsHarmless id) : StaysPaused id p s := by
  intro as s' hs
  have hh : Holds (IsPaused id) (fun _ t => t.IsHarmless id) (pause id s) :=
    ⟨isPaused_pause he, fun ht => h _ _ ht⟩
  exact (hh.steps preserves_isPaused hs).shared

theorem not_isPaused_saveEndpoint {loaded changed : Endpoint} (h : IsPaused id db)
    (hi : loaded.id = id) (hm : Rows.merge loaded.status changed.status .paused ≠ .paused) :
    ¬ IsPaused id (db.saveEndpoint loaded changed) := by
  obtain ⟨e, he, hp⟩ := h
  rintro ⟨e', he', hp'⟩
  have hu : (db.saveEndpoint loaded changed).endpoint id = if loaded.id = id then _ else _ :=
    endpoint_updateEndpoint fun _ => rfl
  rw [if_pos hi, he, Option.map_some, he', Option.some_inj] at hu
  rw [hu, Endpoint.withStatus, hp] at hp'
  exact hm hp'

theorem step_resume_eq (h : s.tasks k = some t) :
    Overlap.step (system p) s (.resume k c) = some (s.put k (resume p s.shared c t)) := by
  simp only [Overlap.step, h]
  rfl

-- Any answer that can be recorded.
def answered (a : Answer) : Circumstances where
  now := 1
  latencyMs := 0
  answer := a
  random := ⟨0, Nat.zero_lt_succ 3⟩
  random' := ⟨0, Nat.zero_lt_succ 3⟩
  now_pos := by decide
  now_lt := by decide
  latency_lt := by decide

-- There is an answer after which a delivery in flight writes another status.
theorem exists_answer {f : Flight π}
    (h : ¬ (f.endpoint.status ≠ .failing ∧
      Overflows f.row.attempt f.row.maxAttempts f.endpoint.retryPolicy)) :
    ∃ c, (finishDelivery p c f).result.isSome ∧
      Rows.merge f.endpoint.status (finishDelivery p c f).endpoint.status .paused ≠ .paused := by
  by_cases hs : f.endpoint.status = .failing
  case pos =>
    have ha : (answered (.response ⟨200, [], by decide⟩)).answer.Successful := by decide
    have ht : (answered (.response ⟨200, [], by decide⟩)).answer.IsStorable := by decide
    obtain ⟨row', _, _, hf⟩ := finishDelivery_of_successful (p := p) (f := f) ha ht
    refine ⟨_, by rw [hf]; rfl, ?_⟩
    simp [hf, Endpoint.withStatus, hs, Rows.merge]
  case neg =>
    have ha : ¬ (answered (.exception [])).answer.Successful := by decide
    have ht : (answered (.exception [])).answer.IsStorable := by decide
    obtain ⟨row', random, _, _, hf⟩ :=
      finishDelivery_of_failed (p := p) (f := f) ha ht fun ho => h ⟨hs, ho⟩
    refine ⟨_, by rw [hf]; rfl, ?_⟩
    simp [hf, Endpoint.withStatus, Ne.symm hs, Rows.merge]

theorem harmless_of_staysPaused (he : s.shared.endpoint id = some e) (h : StaysPaused id p s)
    (ht : s.tasks k = some t) : t.IsHarmless id := by
  have hp : IsPaused id (pause id s).shared := isPaused_pause he
  replace ht : (pause id s).tasks k = some t := ht
  cases t
  case storing loaded changed =>
    by_contra hx
    obtain ⟨hi, hm⟩ := not_or.mp hx
    have hr := h [.resume k (answered (.exception []))] _
      (.step trivial (step_resume_eq ht) .refl)
    exact not_isPaused_saveEndpoint hp (not_not.mp hi) hm hr
  case sending f =>
    by_contra hx
    obtain ⟨hi, ho⟩ := not_or.mp hx
    obtain ⟨c, hc, hm⟩ := exists_answer (p := p) ho
    obtain ⟨r, hc⟩ := Option.isSome_iff_exists.mp hc
    have hf : resume p (pause id s).shared c (.sending f) =
        ((pause id s).shared.saveDelivery f.row (finishDelivery p c f).row,
          some (.storing f.endpoint (finishDelivery p c f).endpoint)) := by
      simp only [resume, hc]
    have h₁ := step_resume_eq (p := p) (c := c) ht
    rw [hf] at h₁
    have hr := h [.resume k c, .resume k c] _
      (.step trivial h₁ (.step trivial (step_resume_eq Overlap.State.tasks_put_self) .refl))
    exact not_isPaused_saveEndpoint hp (not_not.mp hi) hm hr

-- An endpoint that an operator pauses stays paused, whatever happens next, if and only if no
-- delivery to it is on its way that will write a status.
theorem staysPaused_iff_harmless (he : s.shared.endpoint id = some e) :
    StaysPaused id p s ↔ ∀ k t, s.tasks k = some t → t.IsHarmless id :=
  ⟨fun h _ _ => harmless_of_staysPaused he h, staysPaused_of_harmless he⟩

end Pause

section Example

def exampleDatabase : Database Unit :=
  ⟨[exampleRow], [exampleEndpoint]⟩

theorem staysPaused_of_idle :
    exampleDatabase.endpoint "endpoint" = some exampleEndpoint ∧
      StaysPaused "endpoint" examplePlatform (.idle exampleDatabase) := by
  have he : exampleDatabase.endpoint "endpoint" = some exampleEndpoint := by decide
  refine ⟨he, (staysPaused_iff_harmless he).mpr ?_⟩
  rintro k t ⟨⟩

def overlappedActions : List (Action Unit) :=
  [.begin 0 ("delivery", 1776500000), .change (.setStatus "endpoint" .paused),
    .resume 0 (answered (.response ⟨503, [], by decide⟩)),
    .resume 0 (answered (.response ⟨503, [], by decide⟩))]

-- The endpoint is paused while it is being waited for. When it fails to answer, it is no longer
-- paused.
theorem failing_after_pause :
    (∃ s, Transition.run (Overlap.step (system examplePlatform)) (.idle exampleDatabase)
      (overlappedActions.take 2) = some s ∧ IsPaused "endpoint" s.shared) ∧
    ∃ s, Transition.run (Overlap.step (system examplePlatform)) (.idle exampleDatabase)
      overlappedActions = some s ∧ ¬ IsPaused "endpoint" s.shared := by
  constructor
  case left | right =>
    apply Transition.exists_of_any
    decide

end Example

end ControlPlane.OutboundWebhooks
