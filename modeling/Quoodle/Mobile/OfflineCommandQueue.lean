import Quoodle.Data.Overlap

-- The queue in which the mobile client keeps commands that are still to be dispatched. Everything
-- between two points at which a function waits is one step.
namespace Mobile.OfflineCommandQueue

inductive Status where
  | pending | syncing | success | failed | retrying
  deriving DecidableEq

structure QueuedCommand (π : Type) where
  id : String
  deviceId : String
  deviceName : String
  method : String
  params : π
  queuedAt : Int
  status : Status
  errorMessage : Option String
  retryCount : Nat
  lastAttemptAt : Option Int
  completedAt : Option Int
  deriving DecidableEq

inductive Outcome where
  | response (status reason : String)
  | thrown (text : String)

variable {π : Type}

structure Config (π : Type) where
  -- Whether `configureDispatcher` was called.
  isConfigured : Bool
  -- `normalizeCommandForControlPlane`, which may throw an error.
  normalize : String → π → Except String (String × π)

structure Call where
  id : String
  -- Whether another dispatch of the command was in flight.
  isInFlight : Bool
  -- Whether an earlier dispatch of the command was accepted.
  isAccepted : Bool

-- How far `initialize` has come. It does something only once after a start of the app.
inductive Stage where
  | created | loading | checking | initialized
  deriving DecidableEq

-- Whether the stored commands were loaded and changes of the connectivity are listened to.
def Stage.isListening : Stage → Bool
  | .created | .loading => false
  | .checking | .initialized => true

structure Queue (π : Type) where
  commands : List (QueuedCommand π)
  isOnline : Bool
  isSyncing : Bool
  stage : Stage
  stored : Option (List (QueuedCommand π))
  -- What was enqueued so far, over all starts of the app: the clock and the method.
  enqueued : List (Int × String)
  calls : List Call
  inFlight : List String
  accepted : List String

inductive Operation (π : Type) where
  | enqueue (deviceId deviceName method : String) (params : π)
  | retry (id : String)
  | remove (id : String)
  | clearCompleted
  | connectivity (isOnline : Bool)

-- What follows once the queue is stored. A sync may be one of those that `_autoSync` goes through.
inductive Next (π : Type) where
  | enqueued (command : QueuedCommand π)
  | retried (index : Nat)
  | synced (rest : Option (List (QueuedCommand π)))
  | done

inductive Phase (π : Type) where
  | saving (next : Next π)
  | saved (next : Next π)
  | dispatching (command : QueuedCommand π) (index : Nat) (rest : Option (List (QueuedCommand π)))
  -- `_autoSync` waits before it goes on.
  | waiting (rest : List (QueuedCommand π))

-- What a step is given: the clock, whether the storage could be written, and the outcome of a
-- dispatch.
structure Env where
  now : Int
  stores : Bool
  outcome : Outcome

inductive Startup where
  | start
  | load (isReadable : Bool)
  | check (isOnline : Bool)

def maxRetries : Nat :=
  3

def commandId (now : Int) (method : String) : String :=
  toString now ++ "_" ++ method

def messageForDispatchFailureReason : String → String
  | "device_not_found" => "Target device was not found."
  | "unknown_command" => "Command type is not supported."
  | "not_supported_runtime" => "Runtime does not support this command yet."
  | "invalid_params" => "Command parameters are invalid."
  | "compliance_failed" => "Device compliance checks failed. Command denied."
  | "rate_limited" => "Too many requests. Please try again shortly."
  | _ => "Command rejected by policy or backend validation."

def dropFirst (part : List Char) : List Char → List Char
  | [] => []
  | c :: cs =>
    if part.isPrefixOf (c :: cs) then (c :: cs).drop part.length else c :: dropFirst part cs

def errorText (text : String) : String :=
  String.ofList (dropFirst "Exception: ".toList text.toList)

namespace QueuedCommand

-- The old message stays, since `copyWith` takes `null` for an argument that is not given.
def succeed (c : QueuedCommand π) (now : Int) : QueuedCommand π :=
  { c with status := .success, completedAt := some now }

def fail (c : QueuedCommand π) (message : String) : QueuedCommand π :=
  { c with
    status := if c.retryCount + 1 ≥ maxRetries then .failed else .pending
    errorMessage := some message
    retryCount := c.retryCount + 1 }

def isDue (c : QueuedCommand π) : Bool :=
  c.status = .pending || c.status = .retrying

def load (c : QueuedCommand π) : QueuedCommand π :=
  if c.status = .syncing then { c with status := .pending } else c

end QueuedCommand

def Outcome.settle (outcome : Outcome) (now : Int) (c : QueuedCommand π) : QueuedCommand π :=
  match outcome with
  | .thrown text => c.fail (errorText text)
  | .response status reason =>
    if status = "accepted" then c.succeed now
    else c.fail (messageForDispatchFailureReason reason)

def Outcome.isAccepted : Outcome → Bool
  | .response status _ => status = "accepted"
  | .thrown _ => false

namespace Queue

variable (q : Queue π)

def indexOf (id : String) : Option Nat :=
  q.commands.findIdx? (·.id = id)

def modify (index : Nat) (f : QueuedCommand π → QueuedCommand π) : Queue π :=
  { q with commands := q.commands.modify index f }

def dispatched (id : String) : Queue π :=
  { q with
    calls := q.calls ++ [⟨id, id ∈ q.inFlight, id ∈ q.accepted⟩]
    inFlight := q.inFlight ++ [id] }

def finished (id : String) (isAccepted : Bool) : Queue π :=
  { q with
    inFlight := q.inFlight.erase id
    accepted := if isAccepted then q.accepted ++ [id] else q.accepted }

end Queue

section Source

variable (cfg : Config π)

-- Models `_syncCommand` up to the call of the dispatcher.
def syncCommand (q : Queue π) (now : Int) (command : QueuedCommand π)
    (rest : Option (List (QueuedCommand π))) : Queue π × Option (Phase π) :=
  match q.indexOf command.id with
  | none => (q, rest.map .waiting)
  | some index =>
    let q := q.modify index fun c => { c with status := .syncing, lastAttemptAt := some now }
    if !cfg.isConfigured then
      (q.modify index (·.fail "Queue dispatch is not configured."), some (.saving (.synced rest)))
    else
      match cfg.normalize command.method command.params with
      | .error text => (q.modify index (·.fail (errorText text)), some (.saving (.synced rest)))
      | .ok _ => (q.dispatched command.id, some (.dispatching command index rest))

def autoSync (q : Queue π) (now : Int) : List (QueuedCommand π) → Queue π × Option (Phase π)
  | [] => ({ q with isSyncing := false }, none)
  | command :: rest =>
    if q.isOnline then syncCommand cfg q now command (some rest)
    else ({ q with isSyncing := false }, none)

def newCommand (now : Int) (deviceId deviceName method : String) (params : π) : QueuedCommand π :=
  ⟨commandId now method, deviceId, deviceName, method, params, now, .pending, none, 0, none, none⟩

def begin (q : Queue π) (i : Operation π × Int) : Queue π × Option (Phase π) :=
  match i with
  | (.enqueue deviceId deviceName method params, now) =>
    let command := newCommand now deviceId deviceName method params
    ({ q with
        commands := command :: q.commands
        enqueued := q.enqueued ++ [(now, method)] },
      some (.saving (.enqueued command)))
  | (.retry id, _) =>
    match q.indexOf id with
    | none => (q, none)
    | some index =>
      if (q.commands[index]?).any (·.retryCount ≥ maxRetries) then (q, none)
      else
        (q.modify index fun c => { c with status := .retrying }, some (.saving (.retried index)))
  | (.remove id, _) =>
    ({ q with commands := q.commands.filter (·.id ≠ id) }, some (.saving .done))
  | (.clearCompleted, _) =>
    ({ q with commands := q.commands.filter (·.status ≠ .success) }, some (.saving .done))
  | (.connectivity isOnline, now) =>
    if !q.stage.isListening then (q, none)
    else if !q.isOnline && isOnline && !q.isSyncing then
      autoSync cfg { q with isOnline, isSyncing := true } now (q.commands.filter (·.isDue))
    else ({ q with isOnline }, none)

def resume (q : Queue π) (p : Phase π) (env : Env) : Queue π × Option (Phase π) :=
  match p with
  | .saving next =>
    (if env.stores then { q with stored := some q.commands } else q, some (.saved next))
  | .saved (.enqueued command) =>
    if q.isOnline then syncCommand cfg q env.now command none else (q, none)
  | .saved (.retried index) =>
    if q.isOnline then
      match q.commands[index]? with
      | some command => syncCommand cfg q env.now command none
      -- The access is out of range, and the error ends the call.
      | none => (q, none)
    else (q, none)
  | .saved (.synced rest) => (q, rest.map .waiting)
  | .saved .done => (q, none)
  | .waiting rest => autoSync cfg q env.now rest
  | .dispatching command index rest =>
    let q' := q.finished command.id env.outcome.isAccepted
    if index < q.commands.length then
      (q'.modify index (env.outcome.settle env.now), some (.saving (.synced rest)))
    -- The error is caught, and the access is out of range again.
    else (q', none)

-- Models `initialize` and `_loadFromStorage`.
def startup (q : Queue π) : Startup → Queue π
  | .start => if q.stage = .created then { q with stage := .loading } else q
  | .load isReadable =>
    if q.stage = .loading then
      match q.stored with
      | some commands =>
        { q with
          commands := if isReadable then commands.map (·.load) else q.commands
          stage := .checking }
      | none => { q with stage := .checking }
    else q
  | .check isOnline =>
    if q.stage = .checking then { q with isOnline, stage := .initialized } else q

def system : Overlap.System (Queue π) (Phase π) (Operation π × Int) Env Startup where
  begin := begin cfg
  resume := resume cfg
  change := startup

end Source

abbrev State (π : Type) := Overlap.State (Queue π) (Phase π)

inductive Action (π : Type) where
  | begin (k : Nat) (operation : Operation π) (now : Int)
  | resume (k : Nat) (env : Env)
  | startup (e : Startup)
  | kill

def Queue.killed (q : Queue π) : Queue π :=
  { q with commands := [], isOnline := true, isSyncing := false, stage := .created }

def step (cfg : Config π) (s : State π) : Action π → Option (State π)
  | .begin k operation now => Overlap.step (system cfg) s (.begin k (operation, now))
  | .resume k env => Overlap.step (system cfg) s (.resume k env)
  | .startup e => Overlap.step (system cfg) s (.change e)
  | .kill => some (.idle s.shared.killed)

def Queue.fresh : Queue π :=
  ⟨[], true, false, .created, none, [], [], [], []⟩

end Mobile.OfflineCommandQueue
