import Quoodle.Data.Paging
import Quoodle.Data.StableSort
import Quoodle.ControlPlane.Accounts

-- The feed of audit events, which are put together from three tables.
namespace ControlPlane.AuditFeed

open Accounts (lower)
open StableSort (sortBy)

inductive EventType where
  | userAction | commandExecution | policyChange | systemEvent
  deriving DecidableEq

def EventType.name : EventType → String
  | .userAction => "user_action"
  | .commandExecution => "command_execution"
  | .policyChange => "policy_change"
  | .systemEvent => "system_event"

def EventType.ofName (text : String) : Option EventType :=
  [.userAction, .commandExecution, .policyChange, .systemEvent].find? (·.name = text)

inductive Outcome where
  | success | failure | pending
  deriving DecidableEq

def Outcome.name : Outcome → String
  | .success => "success"
  | .failure => "failure"
  | .pending => "pending"

def Outcome.ofName (text : String) : Option Outcome :=
  [.success, .failure, .pending].find? (·.name = text)

inductive Source where
  | commands | alerts | auditTrail
  deriving DecidableEq

def Source.name : Source → String
  | .commands => "commands"
  | .alerts => "alerts"
  | .auditTrail => "audit_trail"

structure Actor where
  email : String
  role : String

-- Times are in seconds.
structure Command where
  id : String
  deviceId : String
  user : Option Actor
  method : String
  state : Option String
  errorMessage : Option String
  completedAt : Option Int
  queuedAt : Option Int
  createdAt : Option Int

structure Alert where
  id : String
  alertId : String
  deviceId : Option String
  severity : String
  message : String
  timestamp : Option Int
  acknowledged : Bool

structure AuditTrail where
  id : String
  auditId : String
  actor : String
  actorId : String
  deviceId : Option String
  eventType : String
  timestamp : Option Int

structure Database where
  devices : List Device
  commands : List Command
  alerts : List Alert
  trail : List AuditTrail

inductive Extra where
  | command (state method : String)
  | alert (acknowledged : Bool) (alertId : String)
  | none
  deriving DecidableEq

structure Event where
  id : String
  timestamp : Option String
  actor : String
  actorRole : String
  eventType : EventType
  action : String
  target : String
  detail : String
  outcome : Outcome
  source : Source
  deviceId : Option String
  severity : Option String
  extra : Extra
  deriving DecidableEq

structure Filters where
  page : Nat
  perPage : Nat
  q : String
  type : Option EventType
  outcome : Option Outcome
  actor : String
  deviceId : String
  -- In milliseconds.
  start : Option Int
  stop : Option Int
  sourceLimit : Nat
  forExport : Bool
  exportLimit : Nat
  complianceOnly : Bool

-- The parameters of a request. Numbers are what the texts are read as.
structure Params where
  page : Option Int
  perPage : Option Int
  q : Option String
  type : Option String
  outcome : Option String
  actor : Option String
  deviceId : Option String
  start : Option String
  stop : Option String

structure Overrides extends Params where
  sourceLimit : Option Int
  forExport : Option Bool
  exportLimit : Option Int
  complianceOnly : Option Bool

structure Dates where
  toIso8601String : Int → String
  strtotime : String → Option Int
  -- In milliseconds.
  parseCarbon : String → Option Int

structure Summary where
  totalEvents : Nat
  successCount : Nat
  failureCount : Nat
  activeActors : Nat

structure Meta where
  currentPage : Nat
  lastPage : Nat
  perPage : Nat
  total : Nat

structure Response where
  events : List Event
  summary : Summary
  pages : Meta

section Texts

def upper (s : String) : String :=
  String.ofList (s.toList.map Char.toUpper)

def ucfirst (s : String) : String :=
  String.ofList (s.toList.modifyHead Char.toUpper)

def contains (s needle : String) : Bool :=
  needle.toList <:+: s.toList

def containsAny (s : String) (needles : List String) : Bool :=
  needles.any (contains s ·)

end Texts

section Source

variable (dates : Dates)

def clamp (n low high : Int) : Nat :=
  (min (max n low) high).toNat

def normalizedFilters (request : Params) (overrides : Overrides) : Filters where
  page := (max 1 ((overrides.page.or request.page).getD 1)).toNat
  perPage := clamp ((overrides.perPage.or request.perPage).getD 50) 1 200
  q := trim ((overrides.q.or request.q).getD "")
  type := EventType.ofName (lower (trim ((overrides.type.or request.type).getD "all")))
  outcome :=
    Outcome.ofName (lower (trim ((overrides.outcome.or request.outcome).getD "all")))
  actor := trim ((overrides.actor.or request.actor).getD "")
  deviceId := trim ((overrides.deviceId.or request.deviceId).getD "")
  start := parse (trim ((overrides.start.or request.start).getD ""))
  -- The whole day is meant.
  stop := (parse (trim ((overrides.stop.or request.stop).getD ""))).map (· + 86399000)
  sourceLimit := clamp (overrides.sourceLimit.getD 2000) 200 5000
  forExport := overrides.forExport.getD false
  exportLimit := clamp (overrides.exportLimit.getD 5000) 1 10000
  complianceOnly := overrides.complianceOnly.getD false
where
  parse (text : String) : Option Int :=
    if text = "" then none else dates.parseCarbon text

def parseIsoMillis (value : Option String) : Int :=
  match value with
  | none => 0
  | some text => if isBlank text then 0 else ((dates.strtotime text).map (· * 1000)).getD 0

def canonicalEventType (raw : String) : EventType :=
  match EventType.ofName raw with
  | some type => type
  | none =>
    if contains raw "policy" then .policyChange
    else if contains raw "command" then .commandExecution
    else if containsAny raw ["login", "user", "ack"] then .userAction
    else .systemEvent

def inferAuditTrailOutcome (rawEvent : String) : Outcome :=
  let event := lower rawEvent
  if containsAny event ["fail", "error", "reject", "deny", "blocked"] then .failure
  else if containsAny event
    ["success", "ok", "complete", "updated", "synced", "ack", "login", "allow"] then .success
  else .pending

def inferActorRole (actor : String) : String :=
  let value := lower (trim actor)
  if value = "system" ∨ value = "" then "System"
  else if contains value "admin" then "Admin"
  else if contains value "viewer" then "Viewer"
  else "Operator"

def commandEvent (c : Command) : Event :=
  let state := lower (c.state.getD "queued")
  let actor := (c.user.map (·.email)).getD "system"
  { id        := "cmd-" ++ c.id
    timestamp := (c.completedAt.or (c.queuedAt.or c.createdAt)).map dates.toIso8601String
    actor := actor
    actorRole := (((c.user.map (·.role)).filter isTruthy).map ucfirst).getD (inferActorRole actor)
    eventType := .commandExecution
    action := "COMMAND_" ++ upper state
    target := c.deviceId
    detail := trim c.method ++ " (" ++ c.id ++ ")" ++
      ((c.errorMessage.filter (!isBlank ·)).map (" - " ++ trim ·)).getD ""
    outcome :=
      if state = "completed" then .success
      else if state ∈ ["failed", "expired", "rejected"] then .failure
      else .pending
    source := .commands
    deviceId := some c.deviceId
    severity := none
    extra := .command state c.method }

def alertEvent (a : Alert) : Event :=
  let severity := lower (trim a.severity)
  { id        := "alt-" ++ a.id
    timestamp := a.timestamp.map dates.toIso8601String
    actor := "system"
    actorRole := "System"
    eventType := .systemEvent
    action := if a.acknowledged then "ALERT_ACKNOWLEDGED" else "ALERT_RAISED"
    target := (orElse a.deviceId (some a.alertId)).getD ""
    detail := a.message
    outcome :=
      if a.acknowledged then .success
      else if severity ∈ ["critical", "high"] then .failure
      else .pending
    source := .alerts
    deviceId := a.deviceId
    severity := some severity
    extra := .alert a.acknowledged a.alertId }

def auditTrailEvent (e : AuditTrail) : Event :=
  let rawEvent := lower (trim e.eventType)
  let actor := if isBlank e.actor then "system" else e.actor
  { id        := "atr-" ++ e.id
    timestamp := e.timestamp.map dates.toIso8601String
    actor := actor
    actorRole := inferActorRole actor
    eventType := canonicalEventType rawEvent
    action := upper (String.ofList ((if rawEvent ≠ "" then rawEvent else "event").toList.map
      fun c => if c = '-' ∨ c = ' ' then '_' else c))
    target := (orElse e.deviceId (some e.auditId)).getD ""
    detail := if rawEvent ≠ "" then rawEvent ++ " event" else "audit event"
    outcome := inferAuditTrailOutcome rawEvent
    source := .auditTrail
    deviceId := e.deviceId
    severity := none
    extra := .none }

def isComplianceRelevant (e : Event) : Bool :=
  e.eventType = .policyChange ||
    containsAny (lower (" ".intercalate [e.action, e.detail, e.target]))
      ["compliance", "policy", "attestation", "kernel", "quarantine", "heartbeat", "sync",
        "certificate", "drift"]

def eventMatchesFilters (f : Filters) (e : Event) : Bool :=
  let ms := parseIsoMillis dates e.timestamp
  !f.start.any (fun t => 0 < ms && ms < t) &&
  !f.stop.any (fun t => 0 < ms && t < ms) &&
  f.type.all (e.eventType = ·) &&
  f.outcome.all (e.outcome = ·) &&
  (f.actor = "" || contains (lower e.actor) (lower f.actor)) &&
  (f.deviceId = "" || e.deviceId.getD "" = f.deviceId) &&
  (!f.complianceOnly || isComplianceRelevant e) &&
  (f.q = "" || contains (lower (" ".intercalate
    [e.actor, e.action, e.target, e.detail, e.eventType.name, e.source.name])) (lower f.q))

variable (db : Database) (user : User) (f : Filters)

def visibleDeviceIds : List String :=
  (db.devices.filter fun d => user.role = "admin" || d.userId = some user.id).map (·.deviceId)

-- The newest rows come first, and those without a time last.
def order (time : Option Int) (id : String) : Lex (WithBot Int × String) :=
  toLex (time, id)

def visibleCommand (c : Command) : Bool :=
  user.role = "admin" ||
    db.devices.any fun d => d.deviceId = c.deviceId && d.userId = some user.id

def commandRows : List Command :=
  sortBy (fun c => order c.queuedAt c.id) <| db.commands.filter fun c =>
    visibleCommand db user c && (f.deviceId = "" || c.deviceId = f.deviceId)

def commandEvents : List Event :=
  if f.type.all (· = .commandExecution) then
    ((commandRows db user f).take f.sourceLimit).map (commandEvent dates)
  else []

def visibleAlert (a : Alert) : Bool :=
  user.role = "admin" || a.deviceId.any (· ∈ visibleDeviceIds db user)

def alertRows : List Alert :=
  sortBy (fun a => order a.timestamp a.id) <| db.alerts.filter fun a =>
    visibleAlert db user a && (f.deviceId = "" || a.deviceId = some f.deviceId)

def alertEvents : List Event :=
  if user.role = "viewer" then []
  else if f.type.all fun type => type = .systemEvent || type = .userAction then
    if user.role ≠ "admin" ∧ visibleDeviceIds db user = [] then []
    else ((alertRows db user f).take f.sourceLimit).map (alertEvent dates)
  else []

def visibleEntry (e : AuditTrail) : Bool :=
  user.role = "admin" || e.deviceId.any (· ∈ visibleDeviceIds db user) ||
    e.deviceId = none && e.actorId = user.id

def auditTrailRows : List AuditTrail :=
  sortBy (fun e => order e.timestamp e.id) <| db.trail.filter fun e =>
    visibleEntry db user e && (f.deviceId = "" || e.deviceId = some f.deviceId)

def auditTrailEvents : List Event :=
  ((auditTrailRows db user f).take f.sourceLimit).map (auditTrailEvent dates)

def filtered : List Event :=
  sortBy (fun e => parseIsoMillis dates e.timestamp) <|
    (commandEvents dates db user f ++ alertEvents dates db user f ++
      auditTrailEvents dates db user f) |>.filter (eventMatchesFilters dates f)

def summary (events : List Event) : Summary where
  totalEvents := events.length
  successCount := events.countP (·.outcome = .success)
  failureCount := events.countP (·.outcome = .failure)
  activeActors := ((events.map (·.actor)).filter (!isBlank ·)).dedup.length

def listFiltered (events : List Event) : Response :=
  if f.forExport then
    let limited := events.take (max 1 f.exportLimit)
    ⟨limited, summary events, ⟨1, 1, limited.length, limited.length⟩⟩
  else
    let perPage := max 1 f.perPage
    let lastPage := max 1 (Paging.pageCount events.length perPage)
    let currentPage := min (max 1 f.page) lastPage
    ⟨Paging.slice events perPage (currentPage - 1), summary events,
      ⟨currentPage, lastPage, perPage, events.length⟩⟩

end Source

def list (dates : Dates) (db : Database) (user : Option User) (request : Params)
    (overrides : Overrides) : Response :=
  match user with
  | none => ⟨[], ⟨0, 0, 0, 0⟩, ⟨1, 1, 0, 0⟩⟩
  | some user =>
    let f := normalizedFilters dates request overrides
    listFiltered f (filtered dates db user f)

def allPages (dates : Dates) (db : Database) (user : User) (request : Params)
    (overrides : Overrides) : List Response :=
  let page (i : Nat) := list dates db (some user) { request with page := some (i + 1) }
    { overrides with page := none, forExport := none }
  (List.range (page 0).pages.lastPage).map page

def visibleEvents (dates : Dates) (db : Database) (user : User) : List Event :=
  (db.commands.filter (visibleCommand db user)).map (commandEvent dates) ++
  (db.alerts.filter fun a => user.role ≠ "viewer" && visibleAlert db user a).map
    (alertEvent dates) ++
  (db.trail.filter (visibleEntry db user)).map (auditTrailEvent dates)

def missed (dates : Dates) (db : Database) (user : User) (f : Filters) : List Event :=
  ((commandRows db user f).drop f.sourceLimit).map (commandEvent dates) ++
  (if user.role = "viewer" then []
    else ((alertRows db user f).drop f.sourceLimit).map (alertEvent dates)) ++
  ((auditTrailRows db user f).drop f.sourceLimit).map (auditTrailEvent dates)
    |>.filter (eventMatchesFilters dates f)

variable {dates : Dates} {db : Database} {user : User} {f : Filters}

section Sources

variable {e : Event}

theorem type_of_matches {type : EventType} (h : eventMatchesFilters dates f e)
    (hf : f.type = some type) : e.eventType = type := by
  simp only [eventMatchesFilters, Bool.and_eq_true, hf, Option.all_some, decide_eq_true_eq] at h
  exact h.1.1.1.1.1.2

theorem deviceId_of_matches (h : eventMatchesFilters dates f e) :
    f.deviceId = "" ∨ e.deviceId = some f.deviceId := by
  simp only [eventMatchesFilters, Bool.and_eq_true, Bool.or_eq_true, decide_eq_true_eq] at h
  cases h.1.1.2
  case inl hd => exact .inl hd
  case inr hd =>
    cases he : e.deviceId
    case none => exact .inl (by rw [← hd, he]; rfl)
    case some deviceId => exact .inr (by rw [← hd, he]; rfl)

-- What is cut off of the rows of a table, together with what is not, makes up all the rows that
-- matter.
theorem perm_rows {ρ κ : Type} [LinearOrder κ] {key : ρ → κ} {rows : List ρ} {p q : ρ → Bool}
    {event : ρ → Event} {m : Event → Bool} (n : Nat)
    (h : ∀ r, p r → m (event r) → q r) :
    ((((sortBy key (rows.filter fun r => p r && q r)).take n).map event).filter m ++
      (((sortBy key (rows.filter fun r => p r && q r)).drop n).map event).filter m).Perm
        (((rows.filter p).map event).filter m) := by
  rw [← List.filter_append, ← List.map_append, List.take_append_drop]
  have hp := ((StableSort.perm_sortBy key (rows.filter fun r => p r && q r)).map event).filter m
  refine hp.trans (.of_eq ?_)
  simp only [List.filter_map, List.filter_filter]
  congr 1
  refine List.filter_congr fun r _ => ?_
  simp only [Function.comp_apply]
  cases hm : m (event r) <;> cases hr : p r <;> simp
  exact h r hr hm

variable (dates db user f)

theorem perm_commandEvents :
    ((commandEvents dates db user f).filter (eventMatchesFilters dates f) ++
      (((commandRows db user f).drop f.sourceLimit).map (commandEvent dates)).filter
        (eventMatchesFilters dates f)).Perm
      (((db.commands.filter (visibleCommand db user)).map (commandEvent dates)).filter
        (eventMatchesFilters dates f)) := by
  have hs : (commandEvents dates db user f).filter (eventMatchesFilters dates f) =
      (((commandRows db user f).take f.sourceLimit).map (commandEvent dates)).filter
        (eventMatchesFilters dates f) := by
    unfold commandEvents
    split
    case isTrue => rfl
    case isFalse hn =>
      -- There is nothing to be found among events of another type.
      refine (List.filter_eq_nil_iff.mpr fun e he hm => hn ?_).symm
      obtain ⟨c, _, rfl⟩ := List.mem_map.mp he
      refine Option.all_eq_true _ _ |>.mpr fun type ht => decide_eq_true ?_
      exact (type_of_matches hm ht).symm
  rw [hs]
  refine perm_rows f.sourceLimit fun c _ hm => ?_
  simpa [commandEvent] using deviceId_of_matches hm

theorem perm_alertEvents :
    ((alertEvents dates db user f).filter (eventMatchesFilters dates f) ++
      (if user.role = "viewer" then []
        else ((alertRows db user f).drop f.sourceLimit).map (alertEvent dates)).filter
        (eventMatchesFilters dates f)).Perm
      (((db.alerts.filter fun a => user.role ≠ "viewer" && visibleAlert db user a).map
        (alertEvent dates)).filter (eventMatchesFilters dates f)) := by
  by_cases hv : user.role = "viewer"
  case pos => simp [alertEvents, hv]
  have hs : (alertEvents dates db user f).filter (eventMatchesFilters dates f) =
      (((alertRows db user f).take f.sourceLimit).map (alertEvent dates)).filter
        (eventMatchesFilters dates f) := by
    rw [alertEvents, if_neg hv]
    split
    case isFalse hn =>
      refine (List.filter_eq_nil_iff.mpr fun e he hm => hn ?_).symm
      obtain ⟨a, _, rfl⟩ := List.mem_map.mp he
      refine Option.all_eq_true _ _ |>.mpr fun type ht => ?_
      simp [← type_of_matches hm ht, alertEvent]
    split
    case isFalse => rfl
    case isTrue he =>
      have hr : alertRows db user f = [] := by
        simp [alertRows, visibleAlert, he.left, he.right, sortBy]
      simp [hr]
  have hp : (fun a => user.role ≠ "viewer" && visibleAlert db user a) = visibleAlert db user := by
    simp [hv]
  rw [hs, if_neg hv, hp]
  refine perm_rows f.sourceLimit fun a _ hm => ?_
  simpa [alertEvent] using deviceId_of_matches hm

theorem perm_auditTrailEvents :
    ((auditTrailEvents dates db user f).filter (eventMatchesFilters dates f) ++
      (((auditTrailRows db user f).drop f.sourceLimit).map (auditTrailEvent dates)).filter
        (eventMatchesFilters dates f)).Perm
      (((db.trail.filter (visibleEntry db user)).map (auditTrailEvent dates)).filter
        (eventMatchesFilters dates f)) := by
  refine perm_rows f.sourceLimit fun e _ hm => ?_
  simpa [auditTrailEvent] using deviceId_of_matches hm

theorem perm_filtered :
    (filtered dates db user f ++ missed dates db user f).Perm
      ((visibleEvents dates db user).filter (eventMatchesFilters dates f)) := by
  refine List.perm_iff_count.mpr fun e => ?_
  have hf := (StableSort.perm_sortBy (fun e => parseIsoMillis dates e.timestamp)
    ((commandEvents dates db user f ++ alertEvents dates db user f ++
      auditTrailEvents dates db user f).filter (eventMatchesFilters dates f))).count_eq e
  have hc := (perm_commandEvents dates db user f).count_eq e
  have ha := (perm_alertEvents dates db user f).count_eq e
  have ht := (perm_auditTrailEvents dates db user f).count_eq e
  simp only [List.filter_append, List.count_append] at hf hc ha ht
  simp only [filtered, missed, visibleEvents, List.filter_append, List.count_append]
  omega

end Sources

section Pages

variable {events : List Event}

theorem totalEvents_listFiltered :
    (listFiltered f events).summary.totalEvents = events.length := by
  unfold listFiltered
  split <;> rfl

theorem flatMap_listFiltered (hf : f.forExport = false) :
    (List.range (listFiltered f events).pages.lastPage).flatMap
      (fun i => (listFiltered { f with page := i + 1 } events).events) = events := by
  have hl : (listFiltered f events).pages.lastPage =
      max 1 (Paging.pageCount events.length (max 1 f.perPage)) := by
    simp [listFiltered, hf]
  have hs (i : Nat) (hi : i ∈ List.range (listFiltered f events).pages.lastPage) :
      (listFiltered { f with page := i + 1 } events).events =
        Paging.slice events (max 1 f.perPage) i := by
    rw [List.mem_range, hl] at hi
    have hc : min (max 1 (i + 1)) (max 1 (Paging.pageCount events.length (max 1 f.perPage))) - 1 =
        i := by omega
    simp only [listFiltered, hf, Bool.false_eq_true, if_false, hc]
  rw [List.flatMap_congr hs, hl]
  refine Paging.flatMap_slice_of_le ?_
  have hp : events.length ≤ Paging.pageCount events.length (max 1 f.perPage) * max 1 f.perPage :=
    Paging.le_pageCount_mul (by omega)
  exact hp.trans (Nat.mul_le_mul_right _ (le_max_right ..))

theorem filtered_page (f : Filters) (forExport : Bool) (page : Nat) :
    filtered dates db user { f with forExport := forExport, page := page } =
      filtered dates db user f :=
  rfl

theorem list_page (request : Params) (overrides : Overrides) (i : Nat) :
    list dates db (some user) { request with page := some (i + 1) }
        { overrides with page := none, forExport := none } =
      listFiltered { normalizedFilters dates request overrides with
          forExport := false, page := i + 1 }
        (filtered dates db user (normalizedFilters dates request overrides)) := by
  have hp : (max 1 ((i : Int) + 1)).toNat = i + 1 := by omega
  have hn : normalizedFilters dates { request with page := some (i + 1) }
      { overrides with page := none, forExport := none } =
        { normalizedFilters dates request overrides with
          forExport := false, page := (max 1 ((i : Int) + 1)).toNat } := by
    simp only [normalizedFilters, Option.none_or, Option.getD_some, Option.getD_none]
  rw [list, hn, hp, filtered_page]

theorem flatMap_allPages (request : Params) (overrides : Overrides) :
    (allPages dates db user request overrides).flatMap Response.events =
      filtered dates db user (normalizedFilters dates request overrides) := by
  rw [allPages]
  simp only [list_page, List.flatMap_map]
  generalize filtered dates db user (normalizedFilters dates request overrides) = events
  generalize normalizedFilters dates request overrides = f
  exact flatMap_listFiltered (f := { f with forExport := false, page := 0 + 1 }) rfl

end Pages

-- The pages together show, the latest first, what the user may see and asks for, except for what
-- was cut off. Every page says how many events they are.
theorem allPages_list (dates : Dates) (db : Database) (user : User) (request : Params)
    (overrides : Overrides) :
    let f := normalizedFilters dates request overrides
    let shown := (allPages dates db user request overrides).flatMap Response.events
    let wanted := (visibleEvents dates db user).filter (eventMatchesFilters dates f)
    (shown ++ missed dates db user f).Perm wanted ∧
      (shown.Perm wanted ↔ missed dates db user f = []) ∧
      shown.Pairwise (fun e e' =>
        parseIsoMillis dates e'.timestamp ≤ parseIsoMillis dates e.timestamp) ∧
      ∀ r ∈ allPages dates db user request overrides, r.summary.totalEvents = shown.length := by
  intro f shown wanted
  have hs : shown = filtered dates db user f := flatMap_allPages request overrides
  have hp : (shown ++ missed dates db user f).Perm wanted := hs ▸ perm_filtered dates db user f
  refine ⟨hp, ?_, ?_, ?_⟩
  · constructor
    case mp =>
      intro he
      have hl := hp.length_eq.trans he.length_eq.symm
      rw [List.length_append] at hl
      exact List.eq_nil_of_length_eq_zero (by omega)
    case mpr =>
      intro he
      rwa [he, List.append_nil] at hp
  · rw [hs]
    exact StableSort.pairwise_sortBy ..
  · intro r hr
    obtain ⟨i, _, rfl⟩ := List.mem_map.mp hr
    rw [list_page, hs]
    exact totalEvents_listFiltered

section Given

def noDates : Dates :=
  ⟨fun _ => "", fun _ => none, fun _ => none⟩

def manyCommands (n : Nat) : Database :=
  ⟨[], (List.range n).map fun i => ⟨String.ofList (Nat.toDigits 10 i), "laptop", none, "ping", none,
    none, none, some (n - i), none⟩, [], []⟩

def noParams : Params :=
  ⟨none, none, none, none, none, none, none, none, none⟩

def noOverrides : Overrides :=
  ⟨noParams, none, none, none, none⟩

theorem oldest_command_missed :
    (list noDates (manyCommands 2001) (some ⟨"root", "admin", false, none⟩) noParams
        noOverrides).summary.totalEvents = 2000 ∧
      ((visibleEvents noDates (manyCommands 2001) ⟨"root", "admin", false, none⟩).filter
        (eventMatchesFilters noDates (normalizedFilters noDates noParams noOverrides))).length =
          2001 := by
  decide +kernel

end Given

end ControlPlane.AuditFeed
