import Quoodle.Data.Transition

-- The `commands` table, and the handlers that write to it.
namespace ControlPlane

inductive CommandState where
  | queued | dispatched | sent | ackReceived | completed | failed | expired | rejected
  deriving DecidableEq

namespace CommandState

def name : CommandState → String
  | queued => "queued"
  | dispatched => "dispatched"
  | sent => "sent"
  | ackReceived => "ack_received"
  | completed => "completed"
  | failed => "failed"
  | expired => "expired"
  | rejected => "rejected"

def terminal : List CommandState :=
  [completed, failed, expired, rejected]

end CommandState

-- A row of the table. Columns that none of the handlers below reads are left out. Times are in
-- seconds, and `ρ` is the type of results.
structure Command (ρ : Type) where
  id : String
  deviceId : String
  state : CommandState
  executionState : String
  reason : Option String
  result : Option ρ
  errorCode : Option Int
  errorMessage : Option String
  dispatchedAt : Option Int
  completedAt : Option Int
  expiresAt : Option Int
  deriving DecidableEq

variable {ρ : Type} {c : Command ρ} {response : DispatchResponse}

-- What a webhook reports once the request has been validated. There is no time if the timestamp
-- cannot be read as one.
structure ResultData (ρ : Type) where
  commandId : String
  deviceId : String
  traceId : String
  executionState : String
  result : ρ
  errorCode : Option Int
  errorMessage : Option String
  timestamp : Option Int

structure AckData where
  commandId : String
  deviceId : String
  status : String
  reason : Option String
  timestamp : Option Int

-- The answer of the gateway to a dispatched command, as far as it is one.
structure DispatchResponse where
  status : Option String
  reason : Option String

namespace Command

def IsTerminal (c : Command ρ) : Prop :=
  c.state ∈ CommandState.terminal

instance : DecidablePred (@IsTerminal ρ) :=
  fun _ => inferInstanceAs (Decidable (_ ∈ _))

-- Models `update` on a model that was read as `snapshot` and whose attributes are now those of
-- `new`. Attributes that have not changed since they were read are not written to the row.
def save [DecidableEq ρ] (row snapshot new : Command ρ) : Command ρ where
  id := row.id
  deviceId := row.deviceId
  state := dirty row.state snapshot.state new.state
  executionState := dirty row.executionState snapshot.executionState new.executionState
  reason := dirty row.reason snapshot.reason new.reason
  result := dirty row.result snapshot.result new.result
  errorCode := dirty row.errorCode snapshot.errorCode new.errorCode
  errorMessage := dirty row.errorMessage snapshot.errorMessage new.errorMessage
  dispatchedAt := dirty row.dispatchedAt snapshot.dispatchedAt new.dispatchedAt
  completedAt := dirty row.completedAt snapshot.completedAt new.completedAt
  expiresAt := row.expiresAt
where
  dirty {α : Type} [DecidableEq α] (stored read written : α) : α :=
    if written = read then stored else written

def dispatched (c : Command ρ) (response : DispatchResponse) (now : Int) : Command ρ :=
  if response.status = some "queued_offline" then
    { c with
      state := .queued
      executionState := "queued"
      dispatchedAt := none
      reason := some (response.reason.getD "device not connected") }
  else
    let state : CommandState :=
      match response.status with
      | some "dispatched" => .dispatched
      | some "blocked" => .rejected
      | _ => .queued
    { c with
      state
      executionState := state.name
      dispatchedAt := if state = .dispatched then some now else none
      reason := response.reason.or <|
        if response.status = some "blocked" then some "device_quarantined" else none }

def reported (c : Command ρ) (data : ResultData ρ) : Command ρ :=
  let state :=
    match data.executionState with
    | "completed" => .completed
    | "failed" => .failed
    | "executing" => .ackReceived
    | "partial" => .ackReceived
    | _ => c.state
  { c with
    state
    executionState := data.executionState
    reason := data.errorMessage
    result := some data.result
    errorCode := data.errorCode
    errorMessage := data.errorMessage
    completedAt := if state ∈ [.completed, .failed] then data.timestamp else c.completedAt }

-- The attributes that `CommandAckWebhookController` sets for a status other than `received`.
def refused (c : Command ρ) (data : AckData) : Command ρ :=
  { c with
    state := .failed
    executionState := "failed"
    reason := data.reason
    completedAt := data.timestamp }

def acknowledged (c : Command ρ) (reason : Option String) : Command ρ :=
  if c.state ∈ [.queued, .dispatched, .sent] ∧
      c.executionState ∉ ["completed", "failed", "expired"] then
    { c with state := .ackReceived, reason }
  else c

-- The attributes that are set when a command expires. An empty reason counts as none.
def expired (c : Command ρ) (now : Int) : Command ρ :=
  let reason := if c.state = .queued then "dispatch_timeout" else "execution_timeout"
  { c with
    state := .expired
    executionState := "expired"
    reason := if c.reason ∈ [none, some "", some "0"] then some reason else c.reason
    completedAt := some now }

end Command

inductive Task (ρ : Type) where
  -- `DispatchCommandToFastApi` waits for the answer of the gateway.
  | dispatch (snapshot : Command ρ)
  | update (snapshot new : Command ρ)
  -- The update whose condition is part of the SQL statement.
  | acknowledge (reason : Option String)

def Task.IsGuarded : Task ρ → Prop
  | acknowledge _ => True
  | _ => False

instance : DecidablePred (@Task.IsGuarded ρ)
  | .acknowledge _ => isTrue trivial
  | .dispatch _ => isFalse id
  | .update _ _ => isFalse id

-- The following functions model the handlers up to their last write, given the row that they read.
-- There is no task if the handler returns, or fails, without writing.

def commandResultStore (data : ResultData ρ) (isDuplicate : Bool) (command : Command ρ) :
    Option (Task ρ) :=
  if isDuplicate then none
  else if command.IsTerminal then none
  -- Setting `completed_at` fails.
  else if (command.reported data).IsTerminal ∧ data.timestamp = none then none
  else some (.update command (command.reported data))

def commandAckStore (data : AckData) (isDuplicate : Bool) (command : Command ρ) :
    Option (Task ρ) :=
  if isDuplicate then none
  else if command.IsTerminal then none
  else if command.executionState ∈ ["completed", "failed", "expired"] then none
  else if data.status = "received" then some (.acknowledge data.reason)
  else if data.timestamp = none then none
  else some (.update command (command.refused data))

def expireCommandJob (now : Int) (command : Command ρ) : Option (Task ρ) :=
  if command.IsTerminal then none
  else
    match command.expiresAt with
    | none => none
    | some expiresAt =>
      if now < expiresAt then none else some (.update command (command.expired now))

def expireIfNeeded (grace now : Int) (command : Command ρ) : Option (Task ρ) :=
  if command.IsTerminal then none
  else
    match command.expiresAt with
    | none => none
    | some expiresAt =>
      if now > expiresAt + grace then some (.update command (command.expired now)) else none

inductive Handler (ρ : Type) where
  | dispatchCommandToFastApi
  | commandResultStore (data : ResultData ρ) (isDuplicate : Bool)
  | commandAckStore (data : AckData) (isDuplicate : Bool)
  | expireCommandJob (now : Int)
  | expireIfNeeded (grace now : Int)

def Handler.read (command : Command ρ) : Handler ρ → Option (Task ρ)
  | dispatchCommandToFastApi => some (.dispatch command)
  | commandResultStore data isDuplicate => ControlPlane.commandResultStore data isDuplicate command
  | commandAckStore data isDuplicate => ControlPlane.commandAckStore data isDuplicate command
  | expireCommandJob now => ControlPlane.expireCommandJob now command
  | expireIfNeeded grace now => ControlPlane.expireIfNeeded grace now command

-- The last write of a handler. Only the one of a dispatch depends on the gateway's answer.
def Task.write [DecidableEq ρ] (response : DispatchResponse) (now : Int) (row : Command ρ) :
    Task ρ → Command ρ
  | dispatch snapshot => row.save snapshot (snapshot.dispatched response now)
  | update snapshot new => row.save snapshot new
  | acknowledge reason => row.acknowledged reason

structure Execution (ρ : Type) where
  row : Command ρ
  tasks : List (Task ρ)

inductive Action (ρ : Type) where
  | read (h : Handler ρ)
  | write (i : Nat) (response : DispatchResponse) (now : Int)
  | abort (i : Nat)

def step [DecidableEq ρ] (s : Execution ρ) : Action ρ → Option (Execution ρ)
  | .read h =>
    match h.read s.row with
    | some t => some { s with tasks := s.tasks ++ [t] }
    | none => some s
  | .write i response now =>
    s.tasks[i]?.map fun t => ⟨t.write response now s.row, s.tasks.eraseIdx i⟩
  | .abort i =>
    if i < s.tasks.length then some { s with tasks := s.tasks.eraseIdx i } else none

def Task.Ends (response : DispatchResponse) : Task ρ → Prop
  | dispatch _ => response.status = some "blocked"
  | update _ new => new.IsTerminal
  | acknowledge _ => False

instance (response : DispatchResponse) : DecidablePred (@Task.Ends ρ response)
  | .dispatch _ => inferInstanceAs (Decidable (_ = _))
  | .update _ new => inferInstanceAs (Decidable new.IsTerminal)
  | .acknowledge _ => isFalse id

-- A handler does not end a command while another one is about to write to it, unless that write is
-- guarded, and commands that have ended are not dispatched.
def Exclusive (s : Execution ρ) : Action ρ → Prop
  | .read .dispatchCommandToFastApi => ¬s.row.IsTerminal
  | .read _ => True
  | .write i response _ =>
    ∀ t ∈ s.tasks[i]?, t.Ends response → ∀ u ∈ s.tasks.eraseIdx i, u.IsGuarded
  | .abort _ => True

def Settled (s : Execution ρ) : Prop :=
  s.row.IsTerminal → ∀ t ∈ s.tasks, t.IsGuarded

theorem Handler.read_of_isTerminal {h : Handler ρ}
    (hh : h ≠ .dispatchCommandToFastApi) (hc : c.IsTerminal) : h.read c = none := by
  cases h
  case dispatchCommandToFastApi => contradiction
  case commandResultStore => simp [Handler.read, ControlPlane.commandResultStore, hc]
  case commandAckStore => simp [Handler.read, ControlPlane.commandAckStore, hc]
  case expireCommandJob => simp [Handler.read, ControlPlane.expireCommandJob, hc]
  case expireIfNeeded => simp [Handler.read, ControlPlane.expireIfNeeded, hc]

theorem Command.acknowledged_of_isTerminal (h : c.IsTerminal)
    (reason : Option String) : c.acknowledged reason = c := by
  refine if_neg fun ⟨hs, _⟩ => ?_
  unfold IsTerminal at h
  revert h hs
  cases c.state <;> decide

theorem Task.write_of_isTerminal [DecidableEq ρ] {t : Task ρ} (hc : c.IsTerminal)
    (ht : t.IsGuarded) (response : DispatchResponse) (now : Int) : t.write response now c = c := by
  cases t
  case acknowledge reason => exact c.acknowledged_of_isTerminal hc reason
  all_goals exact ht.elim

theorem Command.isTerminal_of_save [DecidableEq ρ] {row snapshot new : Command ρ}
    (h : (row.save snapshot new).IsTerminal) : row.IsTerminal ∨ new.IsTerminal := by
  simp only [IsTerminal, save, save.dirty] at h
  split at h
  case isTrue => exact .inl h
  case isFalse => exact .inr h

theorem Command.status_of_dispatched {now : Int}
    (h : (c.dispatched response now).IsTerminal) : response.status = some "blocked" := by
  simp only [IsTerminal, dispatched] at h
  repeat' split at h
  all_goals first | assumption | simp [CommandState.terminal] at h

theorem Task.ends_of_write [DecidableEq ρ] {t : Task ρ} {now : Int} (hc : ¬c.IsTerminal)
    (h : (t.write response now c).IsTerminal) : t.Ends response := by
  cases t
  case dispatch =>
    exact Command.status_of_dispatched <| (Command.isTerminal_of_save h).resolve_left hc
  case update => exact (Command.isTerminal_of_save h).resolve_left hc
  case acknowledge reason =>
    simp only [write, Command.acknowledged] at h
    split at h
    case isTrue => simp [Command.IsTerminal, CommandState.terminal] at h
    case isFalse => exact hc h

section Steps

variable [DecidableEq ρ] {s s' : Execution ρ} {a : Action ρ}

theorem Settled.step (h : Settled s) (ha : Exclusive s a) (hs : step s a = some s') :
    Settled s' := by
  cases a
  case read hd =>
    simp only [ControlPlane.step] at hs
    split at hs <;> cases hs
    case h_2 => exact h
    case h_1 t ht =>
      intro hc
      exfalso
      by_cases he : hd = .dispatchCommandToFastApi
      case pos => subst he; exact ha hc
      case neg => simp [Handler.read_of_isTerminal he hc] at ht
  case write i response now =>
    have ⟨t, ht, hs⟩ := Option.map_eq_some_iff.mp hs
    subst hs
    intro hc
    by_cases hr : s.row.IsTerminal
    case pos => exact fun u hu => h hr u (List.mem_of_mem_eraseIdx hu)
    case neg => exact ha t ht (Task.ends_of_write hr hc)
  case abort i =>
    have ⟨_, hs⟩ := Option.ite_none_right_eq_some.mp hs
    cases hs
    exact fun hc t ht => h hc t (List.mem_of_mem_eraseIdx ht)

theorem row_of_isTerminal (h : Settled s) (hc : s.row.IsTerminal) (hs : step s a = some s') :
    s'.row = s.row := by
  cases a
  case read hd =>
    simp only [ControlPlane.step] at hs
    split at hs <;> cases hs <;> rfl
  case write i response now =>
    have ⟨t, ht, hs⟩ := Option.map_eq_some_iff.mp hs
    subst hs
    exact Task.write_of_isTerminal hc (h hc t (List.mem_of_getElem? ht)) response now
  case abort i =>
    have ⟨_, hs⟩ := Option.ite_none_right_eq_some.mp hs
    cases hs
    rfl

end Steps

-- A command that has ended stays as it is.
theorem row_eq_of_isTerminal [DecidableEq ρ] {s s₁ s₂ : Execution ρ} {as bs : List (Action ρ)}
    (hi : s.tasks = []) (h₁ : Transition.Steps step Exclusive s as s₁) (hc : s₁.row.IsTerminal)
    (h₂ : Transition.Steps step Exclusive s₁ bs s₂) : s₂.row = s₁.row := by
  have hs : Settled s₁ := h₁.invariant Settled.step fun _ => by simp [hi]
  refine (h₂.invariant (I := fun s => Settled s ∧ s.row = s₁.row) ?_ ⟨hs, rfl⟩).right
  intro s _ _ ⟨hi, hr⟩ ha hs
  exact ⟨hi.step ha hs, (row_of_isTerminal hi (hr ▸ hc) hs).trans hr⟩

instance (s : Execution ρ) : DecidablePred (Exclusive s)
  | .read .dispatchCommandToFastApi => inferInstanceAs (Decidable ¬s.row.IsTerminal)
  | .read (.commandResultStore _ _) | .read (.commandAckStore _ _) | .read (.expireCommandJob _)
  | .read (.expireIfNeeded _ _) | .abort _ => isTrue trivial
  | .write i response _ =>
    inferInstanceAs <| Decidable <| ∀ t ∈ s.tasks[i]?,
      t.Ends response → ∀ u ∈ s.tasks.eraseIdx i, u.IsGuarded

def queuedCommand : Command String :=
  ⟨"c-1", "dev-1", .queued, "queued", none, none, none, none, none, none, some 300⟩

def completedReport : ResultData String :=
  ⟨"c-1", "dev-1", "t-1", "completed", "done", none, none, some 20⟩

def completedCommand : Command String :=
  ⟨"c-1", "dev-1", .completed, "completed", none, some "done", none, none, some 10, some 20, some 300⟩

-- One handler after the other: the command is dispatched and completed, and expires no more.
theorem row_eq_of_isTerminal_completed :
    Transition.Steps step Exclusive ⟨queuedCommand, []⟩
        [.read .dispatchCommandToFastApi, .write 0 ⟨some "dispatched", none⟩ 10,
          .read (.commandResultStore completedReport false), .write 0 ⟨none, none⟩ 20]
        ⟨completedCommand, []⟩ ∧
      ∃ s, Transition.Steps step Exclusive ⟨completedCommand, []⟩
          [.read (.expireCommandJob 400)] s ∧ s.row = completedCommand := by
  have h₁ : Transition.Steps step Exclusive ⟨queuedCommand, []⟩
      [.read .dispatchCommandToFastApi, .write 0 ⟨some "dispatched", none⟩ 10,
        .read (.commandResultStore completedReport false), .write 0 ⟨none, none⟩ 20]
      ⟨completedCommand, []⟩ := .of_run rfl
  have h₂ : Transition.Steps step Exclusive ⟨completedCommand, []⟩
      [.read (.expireCommandJob 400)] _ := .of_run rfl
  exact ⟨h₁, _, h₂, row_eq_of_isTerminal rfl h₁ (by decide) h₂⟩

-- The agent reports the result before the dispatch has got its answer from the gateway.
theorem dispatch_overwrites_completed :
    ∃ s₁ s₂, Transition.run step ⟨queuedCommand, []⟩
        [.read .dispatchCommandToFastApi, .read (.commandResultStore completedReport false),
          .write 1 ⟨none, none⟩ 20] = some s₁ ∧
      s₁.row.state = .completed ∧
      step s₁ (.write 0 ⟨some "dispatched", none⟩ 21) = some s₂ ∧
      s₂.row.state = .dispatched ∧ s₂.row.executionState = "dispatched" :=
  ⟨_, _, rfl, rfl, rfl, rfl, rfl⟩

end ControlPlane
