import Quoodle.Mobile.OfflineCommandQueue

-- Where the outcomes of dispatches are recorded.
namespace Mobile.OfflineCommandQueue

variable {π : Type} {cfg : Config π} {q : Queue π} {env : Env} {c : QueuedCommand π}

def QueuedCommand.report (c : QueuedCommand π) : Status × Nat × Option String :=
  (c.status, c.retryCount, c.errorMessage)

-- The end of a dispatch changes no entry but that of its command, and no access is out of range.
def Phase.IsOwn (cfg : Config π) (q : Queue π) (env : Env) : Phase π → Prop
  | .dispatching command index rest =>
    index < q.commands.length ∧ ∀ (i : Nat) (c : QueuedCommand π),
      q.commands[i]? = some c → c.id ≠ command.id →
        ((resume cfg q (.dispatching command index rest) env).1.commands[i]?).map (·.report) =
          some c.report
  | .saved (.retried index) => q.isOnline → index < q.commands.length
  | .saving _ | .saved (.enqueued _) | .saved (.synced _) | .saved .done | .waiting _ => True

def IsOwn (cfg : Config π) (s : State π) : Action π → Prop
  | .resume k env => ∀ p ∈ s.tasks k, p.IsOwn cfg s.shared env
  | .begin _ _ _ | .startup _ | .kill => True

@[simp]
theorem commands_finished {id : String} {isAccepted : Bool} :
    (q.finished id isAccepted).commands = q.commands :=
  rfl

theorem commands_resume_dispatching {command : QueuedCommand π} {index : Nat}
    {rest : Option (List (QueuedCommand π))} :
    (resume cfg q (.dispatching command index rest) env).1.commands =
      q.commands.modify index (env.outcome.settle env.now) := by
  by_cases h : index < q.commands.length
  case pos => simp only [resume, if_pos h, Queue.modify, commands_finished]
  simp only [resume, if_neg h, commands_finished]
  exact (List.modify_eq_self (not_lt.mp h)).symm

section Runs

variable {s s' : State π} {a : Action π} {p : Phase π} {now : Int}

-- Where a call writes or reads when it goes on, and the command that is to be there. A retry takes
-- whatever is there.
structure Place where
  index : Nat
  id : Option String

def Next.place : Next π → Option Place
  | .retried index => some ⟨index, none⟩
  | .enqueued _ | .synced _ | .done => none

def Phase.place : Phase π → Option Place
  | .dispatching command index _ => some ⟨index, some command.id⟩
  | .saving next | .saved next => next.place
  | .waiting _ => none

-- Nothing is inserted while a command is dispatched, and nothing is dropped up to an index that is
-- kept.
def Phase.Spared (q : Queue π) (p : Phase π) : Action π → Prop
  | .begin _ (.enqueue _ _ _ _) _ => ∀ l ∈ p.place, l.id = none
  | .begin _ (.remove id) _ => ∀ l ∈ p.place, ∀ c ∈ q.commands.take (l.index + 1), c.id ≠ id
  | .begin _ .clearCompleted _ =>
    ∀ l ∈ p.place, ∀ c ∈ q.commands.take (l.index + 1), c.status ≠ .success
  | .startup (.load _) => q.stage = .loading → p.place = none
  | .begin _ (.retry _) _ | .begin _ (.connectivity _) _ | .startup .start | .startup (.check _)
  | .resume _ _ | .kill => True

def Undisturbed (s : State π) (a : Action π) : Prop :=
  ∀ k, ∀ p ∈ s.tasks k, p.Spared s.shared a

def Queue.ids (q : Queue π) : List String :=
  q.commands.map (·.id)

def Phase.Kept (ids : List String) (p : Phase π) : Prop :=
  ∀ l ∈ p.place, ∃ id, ids[l.index]? = some id ∧ ∀ id' ∈ l.id, id = id'

theorem getElem?_filter_of_take {α : Type} {P : α → Bool} {cs : List α} {i : Nat}
    (h : ∀ c ∈ cs.take (i + 1), P c) : (cs.filter P)[i]? = cs[i]? := by
  induction cs generalizing i
  case nil => rfl
  case cons c cs hi =>
    obtain ⟨hc, hs⟩ := List.forall_mem_cons.mp (List.take_succ_cons ▸ h)
    rw [List.filter_cons_of_pos hc]
    cases i
    case zero => rfl
    case succ i => exact hi hs

namespace Phase.Kept

variable {ids : List String}

theorem of_place_eq_none (h : p.place = none) : p.Kept ids := by
  simp [Kept, h]

theorem isOwn (h : p.Kept q.ids) : p.IsOwn cfg q env := by
  cases p
  case saving next => trivial
  case waiting rest => trivial
  case dispatching command index rest =>
    obtain ⟨id, hi, he⟩ := h _ rfl
    obtain ⟨c, hc, rfl⟩ := Option.map_eq_some_iff.mp (List.getElem?_map.symm.trans hi)
    refine ⟨(List.getElem?_eq_some_iff.mp hc).choose, fun i c' hc' hn => ?_⟩
    have hne : index ≠ i := by
      rintro rfl
      exact hn (Option.some.inj (hc'.symm.trans hc) ▸ he _ rfl)
    rw [commands_resume_dispatching, List.getElem?_modify_ne _ _ hne, hc', Option.map_some]
  case saved next =>
    cases next
    case retried index =>
      obtain ⟨id, hi, -⟩ := h _ rfl
      obtain ⟨hl, -⟩ := List.getElem?_eq_some_iff.mp hi
      exact fun _ => by simpa [Queue.ids] using hl
    all_goals trivial

theorem congr {ids' : List String} (h : p.Kept ids)
    (hi : ∀ l ∈ p.place, ids'[l.index]? = ids[l.index]?) : p.Kept ids' := by
  intro l hl
  rw [hi l hl]
  exact h l hl

theorem cons (h : p.Kept ids) (hn : ∀ l ∈ p.place, l.id = none) (id : String) :
    p.Kept (id :: ids) := by
  intro l hl
  obtain ⟨_, hi, -⟩ := h l hl
  have hlt : l.index < (id :: ids).length :=
    Nat.lt_succ_of_lt (List.getElem?_eq_some_iff.mp hi).choose
  exact ⟨_, List.getElem?_eq_getElem hlt, by simp [hn l hl]⟩

theorem filter {P : QueuedCommand π → Bool} (h : p.Kept q.ids)
    (hf : ∀ l ∈ p.place, ∀ c ∈ q.commands.take (l.index + 1), P c) :
    p.Kept (Queue.ids { q with commands := q.commands.filter P }) := by
  refine h.congr fun l hl => ?_
  simp only [Queue.ids, List.getElem?_map, getElem?_filter_of_take (hf l hl)]

end Phase.Kept

theorem ids_modify {index : Nat} {f : QueuedCommand π → QueuedCommand π}
    (hf : ∀ c, (f c).id = c.id) : (q.modify index f).ids = q.ids := by
  refine List.ext_getElem? fun i => ?_
  simp only [Queue.ids, Queue.modify, List.getElem?_map, List.getElem?_modify]
  split
  case isTrue => simp [Function.comp_def, hf]
  case isFalse => simp

theorem id_settle (outcome : Outcome) (c : QueuedCommand π) : (outcome.settle now c).id = c.id := by
  cases outcome
  case thrown => rfl
  case response =>
    rw [Outcome.settle]
    split <;> rfl

-- A step that leaves the entries where they are, after which the call keeps a right index.
structure Stays (q : Queue π) (r : Queue π × Option (Phase π)) : Prop where
  ids : r.1.ids = q.ids
  phase : ∀ p ∈ r.2, p.Kept q.ids

theorem stays_none {q' : Queue π} (h : q'.ids = q.ids) : Stays q (q', none) :=
  ⟨h, by simp⟩

theorem stays_some {q' : Queue π} (h : q'.ids = q.ids) (hp : p.Kept q.ids) : Stays q (q', some p) :=
  ⟨h, by rintro _ ⟨⟩; exact hp⟩

theorem stays_waiting (rest : Option (List (QueuedCommand π))) : Stays q (q, rest.map .waiting) := by
  cases rest
  case none => exact stays_none rfl
  case some rest => exact stays_some rfl (.of_place_eq_none rfl)

theorem stays_syncCommand (cfg : Config π) (q : Queue π) (now : Int) (command : QueuedCommand π)
    (rest : Option (List (QueuedCommand π))) : Stays q (syncCommand cfg q now command rest) := by
  unfold syncCommand
  split
  case h_1 => exact stays_waiting rest
  case h_2 index hi =>
    have hm {f : QueuedCommand π → QueuedCommand π} (hf : ∀ c, (f c).id = c.id) :
        ((q.modify index fun c => { c with status := .syncing, lastAttemptAt := some now }).modify
          index f).ids = q.ids :=
      (ids_modify hf).trans (ids_modify fun _ => rfl)
    dsimp only
    split
    case isTrue => exact stays_some (hm fun _ => rfl) (.of_place_eq_none rfl)
    split
    case h_1 => exact stays_some (hm fun _ => rfl) (.of_place_eq_none rfl)
    obtain ⟨hl, hc, -⟩ := List.findIdx?_eq_some_iff_getElem.mp hi
    refine stays_some (ids_modify fun _ => rfl) ?_
    rintro _ ⟨⟩
    exact ⟨command.id, by simp [Queue.ids, hl, of_decide_eq_true hc], by simp⟩

theorem stays_autoSync (cfg : Config π) (q : Queue π) (now : Int) (rest : List (QueuedCommand π)) :
    Stays q (autoSync cfg q now rest) := by
  cases rest
  case nil => exact stays_none rfl
  case cons command rest =>
    rw [autoSync]
    split
    case isTrue => exact stays_syncCommand ..
    case isFalse => exact stays_none rfl

theorem stays_resume (h : p.Kept q.ids) (env : Env) : Stays q (resume cfg q p env) := by
  cases p
  case waiting rest => exact stays_autoSync ..
  case saving next => exact stays_some (by split <;> rfl) h
  case dispatching command index rest =>
    simp only [resume]
    split
    case isTrue => exact stays_some (ids_modify (id_settle _)) (.of_place_eq_none rfl)
    case isFalse => exact stays_none rfl
  case saved next =>
    cases next <;> simp only [resume]
    case done => exact stays_none rfl
    case synced rest => exact stays_waiting rest
    case enqueued command =>
      split
      case isTrue => exact stays_syncCommand ..
      case isFalse => exact stays_none rfl
    case retried index =>
      repeat' split
      case h_1 => exact stays_syncCommand ..
      all_goals exact stays_none rfl

theorem stays_begin_retry (cfg : Config π) (q : Queue π) (id : String) (now : Int) :
    Stays q (begin cfg q (.retry id, now)) := by
  simp only [begin]
  split
  case h_1 => exact stays_none rfl
  case h_2 index hi =>
    split
    case isTrue => exact stays_none rfl
    obtain ⟨hl, -⟩ := List.findIdx?_eq_some_iff_getElem.mp hi
    refine stays_some (ids_modify fun _ => rfl) ?_
    rintro _ ⟨⟩
    exact ⟨q.commands[index].id, by simp [Queue.ids, hl], by simp⟩

theorem stays_begin_connectivity (cfg : Config π) (q : Queue π) (isOnline : Bool) (now : Int) :
    Stays q (begin cfg q (.connectivity isOnline, now)) := by
  simp only [begin]
  split
  case isTrue => exact stays_none rfl
  split
  case isTrue =>
    obtain ⟨hi, hp⟩ := stays_autoSync cfg { q with isOnline, isSyncing := true } now
      (q.commands.filter (·.isDue))
    exact ⟨hi, hp⟩
  case isFalse => exact stays_none rfl

theorem kept_begin {k : Nat} {operation : Operation π} (cfg : Config π) (now : Int) :
    (∀ p ∈ (begin cfg q (operation, now)).2, p.Kept (begin cfg q (operation, now)).1.ids) ∧
      ∀ p : Phase π, p.Kept q.ids → p.Spared q (.begin k operation now) →
        p.Kept (begin cfg q (operation, now)).1.ids := by
  cases operation
  case retry id =>
    have h := stays_begin_retry cfg q id now
    exact ⟨h.ids ▸ h.phase, fun p hp _ => h.ids ▸ hp⟩
  case connectivity isOnline =>
    have h := stays_begin_connectivity cfg q isOnline now
    exact ⟨h.ids ▸ h.phase, fun p hp _ => h.ids ▸ hp⟩
  case enqueue =>
    exact ⟨by rintro _ ⟨⟩; exact .of_place_eq_none rfl, fun p hp hd => hp.cons hd _⟩
  all_goals
    refine ⟨by rintro _ ⟨⟩; exact .of_place_eq_none rfl, fun p hp hd => ?_⟩
    exact hp.filter fun l hl c hc => decide_eq_true (hd l hl c hc)

theorem kept_startup {e : Startup} (h : p.Kept q.ids) (hs : p.Spared q (.startup e)) :
    p.Kept (startup q e).ids := by
  cases e <;> rw [startup] <;> split
  case load.isTrue isReadable hl => exact .of_place_eq_none (hs hl)
  all_goals exact h

def AllKept (s : State π) : Prop :=
  Overlap.Holds (fun _ => True) (fun q p => p.Kept q.ids) s

theorem AllKept.step (h : AllKept s) (hu : Undisturbed s a) (hs : step cfg s a = some s') :
    AllKept s' := by
  cases a
  case begin k operation now =>
    obtain ⟨-, rfl⟩ := Overlap.step_begin hs
    obtain ⟨hp, ho⟩ := kept_begin (k := k) cfg now
    exact .put trivial hp fun ht => ho _ (h.tasks ht) (hu _ _ ht)
  case resume k env =>
    obtain ⟨t, ht, rfl⟩ := Overlap.step_resume hs
    obtain ⟨hi, hp⟩ : Stays s.shared (resume cfg s.shared t env) := stays_resume (h.tasks ht) env
    exact .put trivial (fun p hm => hi ▸ hp p hm) fun ht => hi ▸ h.tasks ht
  case startup e =>
    obtain rfl := Overlap.step_change hs
    exact ⟨trivial, fun ht => kept_startup (h.tasks ht) (hu _ _ ht)⟩
  case kill =>
    obtain rfl := Option.some.inj hs
    exact .idle trivial

-- The ends of all dispatches are recorded where they belong as long as nothing is inserted while a
-- command is dispatched, and nothing is dropped up to an index that is kept.
theorem isOwn_of_undisturbed {as : List (Action π)}
    (h : Transition.Steps (step cfg) Undisturbed (.idle q) as s) (a : Action π) :
    IsOwn cfg s a := by
  have hk : AllKept s := h.invariant (fun h hc hs => h.step hc hs) (.idle trivial)
  cases a
  case resume k env => exact fun p hp => (hk.tasks hp).isOwn
  all_goals trivial

end Runs

def exampleConfig : Config Unit :=
  ⟨true, fun method params => .ok (method, params)⟩

def exampleState : State Unit :=
  .idle .fresh

def exampleEnqueue (k : Nat) (now : Int) : Action Unit :=
  .begin k (.enqueue "dev-1" "laptop" "ping" ()) now

def accept (k : Nat) : Action Unit :=
  .resume k ⟨0, true, .response "accepted" ""⟩

def statuses (s : State Unit) : List (String × Status) :=
  s.shared.commands.map fun c => (c.id, c.status)

-- The command behind the one that is dispatched is removed meanwhile.
theorem isOwn_of_undisturbed_remove :
    ∃ s, Transition.Steps (step exampleConfig) Undisturbed exampleState
        [exampleEnqueue 0 1, exampleEnqueue 1 2, accept 1, accept 1, .begin 2 (.remove "1_ping") 3]
        s ∧
      statuses s = [("2_ping", .syncing)] ∧ IsOwn exampleConfig s (accept 1) ∧
      (step exampleConfig s (accept 1)).map statuses = some [("2_ping", .success)] := by
  have h : ∃ s, Transition.Steps (step exampleConfig) Undisturbed exampleState
      [exampleEnqueue 0 1, exampleEnqueue 1 2, accept 1, accept 1, .begin 2 (.remove "1_ping") 3]
      s ∧ statuses s = [("2_ping", .syncing)] ∧
        (step exampleConfig s (accept 1)).map statuses = some [("2_ping", .success)] := by
    refine ⟨_, .step ?_ rfl (.step ?_ rfl (.step ?_ rfl (.step ?_ rfl (.step ?_ rfl .refl)))),
      by decide, by decide⟩
    · rintro k p ⟨⟩
    · rintro (_ | k) p ⟨⟩
      rintro _ ⟨⟩
    · exact fun _ _ _ => trivial
    · exact fun _ _ _ => trivial
    · rintro (_ | _ | k) p ⟨⟩ <;> rintro _ ⟨⟩
      decide
  obtain ⟨s, hs, hb, ha⟩ := h
  exact ⟨s, hs, hb, isOwn_of_undisturbed hs _, ha⟩

-- After these steps, the end of the first dispatch is not recorded where it belongs.
def Misplaced (as : List (Action Unit)) (before after : List (String × Status)) : Prop :=
  ∃ s, Transition.run (step exampleConfig) exampleState as = some s ∧
    ¬IsOwn exampleConfig s (accept 0) ∧ statuses s = before ∧
    (step exampleConfig s (accept 0)).map statuses = some after

-- The first command is dispatched. Then another one is put in front of it, which gets the success, or
-- it is removed, and the access is out of range.
theorem recorded_elsewhere :
    Misplaced [exampleEnqueue 0 1, accept 0, accept 0, exampleEnqueue 1 2]
        [("2_ping", .pending), ("1_ping", .syncing)]
        [("2_ping", .success), ("1_ping", .syncing)] ∧
      Misplaced [exampleEnqueue 0 1, accept 0, accept 0, .begin 1 (.remove "1_ping") 2] [] [] := by
  refine ⟨⟨_, rfl, fun h => ?_, by decide, by decide⟩, ⟨_, rfl, fun h => ?_, by decide, by decide⟩⟩
  · obtain ⟨-, ho⟩ := h _ rfl
    exact absurd (ho 0 _ rfl (by decide)) (by decide)
  · obtain ⟨hl, -⟩ := h _ rfl
    exact absurd hl (by decide)

end Mobile.OfflineCommandQueue
