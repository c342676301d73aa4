import Quoodle.Data.Calendar
import Quoodle.Data.Paging
import Quoodle.Data.StableSort
import Quoodle.ControlPlane.Devices

-- The list of commands, which is read page by page.
namespace ControlPlane.CommandQuery

open StableSort (sortBy)

structure Command where
  id : String
  deviceId : String
  state : String
  originChannel : Option String
  -- In microseconds.
  queuedAt : Option Int
  deriving DecidableEq

structure TeamMemberDeviceAccess where
  userId : String
  deviceId : String

structure Database where
  devices : List Device
  accesses : List TeamMemberDeviceAccess
  commands : List Command

-- How times are written and read. What is written has no fractions of a second.
structure Dates where
  toIso8601String : Int → String
  parse : String → Option Int
  parse_to : ∀ s, parse (toIso8601String s) = some (s * 1000000)
  not_blank : ∀ s, isBlank (toIso8601String s) = false

-- The parameters of a request. The limit is what its text is read as.
structure Query where
  limit : Option Int
  state : Option String
  deviceId : Option String
  originChannel : Option String
  origin : Option String
  before : Option String

section Source

variable (db : Database) (user : Option User)

def visibleDevice (d : Device) : Bool :=
  match user with
  | none => false
  | some u =>
    let granted := (db.accesses.filter (·.userId = u.id)).map (·.deviceId) |>.filter (!isBlank ·)
    u.role = "admin" || d.userId = some u.id || d.deviceId ∈ granted

def visibleCommand (c : Command) : Bool :=
  db.devices.any fun d => visibleDevice db user d && d.deviceId = c.deviceId

-- The parts of a text between commas, without those that count as false.
def parts (text : String) : List String :=
  (text.toList.splitOn ',').map (fun cs => trim (String.ofList cs)) |>.filter isTruthy

def given (param : Option String) : Option String :=
  param.filter (!isBlank ·)

def oneOf (param : Option String) (value : Option String) : Bool :=
  match given param with
  | none => true
  | some text => parts text = [] || value.any (· ∈ parts text)

def Query.matches (q : Query) (c : Command) : Bool :=
  oneOf q.state (some c.state) && (given q.deviceId).all (· = c.deviceId) &&
    oneOf (q.originChannel.or q.origin) c.originChannel

def order (c : Command) : Lex (WithBot Int × String) :=
  toLex (c.queuedAt, c.id)

def Query.size (q : Query) : Nat :=
  (min (max (q.limit.getD 50) 1) 200).toNat

variable (dates : Dates)

-- The database compares with whole seconds. A text that cannot be read is ignored.
def Dates.before (text : String) : Option Int :=
  (given (some text)).bind dates.parse |>.map (· / 1000000 * 1000000)

def Before (text : String) (c : Command) : Prop :=
  match dates.before text with
  | none => True
  | some t => ∃ queued ∈ c.queuedAt, queued < t

instance : DecidableRel (Before dates) := fun text c =>
  match h : dates.before text with
  | none => isTrue (by rw [Before, h]; trivial)
  | some t => decidable_of_iff (∃ queued ∈ c.queuedAt, queued < t) (by rw [Before, h])

def nextBefore (c : Command) : Option String :=
  c.queuedAt.map fun queued => dates.toIso8601String (queued / 1000000)

def index (q : Query) : List Command × Option String :=
  let commands := db.commands.filter fun c =>
    visibleCommand db user c && q.matches c && decide (∀ text ∈ q.before, Before dates text c)
  let page := (sortBy order commands).take q.size
  (page, page.getLast?.bind (nextBefore dates))

def browse (q : Query) : Nat → Option String → Option (List Command)
  | 0, _ => none
  | fuel + 1, before =>
    match index db user dates { q with before := before } with
    | ([], _) => some []
    | (page, none) => some page
    | (page, some next) => (browse q fuel (some next)).map (page ++ ·)

end Source

def listing (db : Database) (user : Option User) (q : Query) : List Command :=
  sortBy order (db.commands.filter fun c => visibleCommand db user c && q.matches c)

-- What comes behind the end of a page was queued in an earlier second than what comes before it.
def Apart (commands : List Command) (n : Nat) : Prop :=
  ∀ i c, commands[i]? = some c → n ∣ i + 1 → ∀ c' ∈ commands.drop (i + 1),
    ∃ queued ∈ c.queuedAt, ∃ queued' ∈ c'.queuedAt, queued' / 1000000 < queued / 1000000

variable {db : Database} {user : Option User} {dates : Dates} {q : Query}

section Cursor

theorem before_toIso8601String (s : Int) :
    dates.before (dates.toIso8601String s) = some (s * 1000000) := by
  have hg : given (some (dates.toIso8601String s)) = some (dates.toIso8601String s) := by
    simp [given, dates.not_blank]
  rw [Dates.before, hg, Option.bind_some, dates.parse_to, Option.map_some]
  congr 1
  omega

variable {c c' : Command}

theorem before_nextBefore {text : String} (h : text ∈ nextBefore dates c) : Before dates text c' ↔
      ∃ queued ∈ c.queuedAt, ∃ queued' ∈ c'.queuedAt, queued' / 1000000 < queued / 1000000 := by
  obtain ⟨queued, hq, rfl⟩ := Option.map_eq_some_iff.mp h
  simp only [Before, before_toIso8601String, Option.mem_def, hq, Option.some.injEq,
    exists_eq_left']
  refine exists_congr fun queued' => and_congr_right fun _ => ?_
  omega

theorem queuedAt_le_of_order_le (h : order c ≤ order c') {queued queued' : Int}
    (hq : c.queuedAt = some queued) (hq' : c'.queuedAt = some queued') : queued ≤ queued' := by
  have hle : (ofLex (order c)).1 ≤ (ofLex (order c')).1 := by
    cases Prod.Lex.le_iff.mp h
    case inl hlt => exact hlt.le
    case inr heq => exact heq.left.le
  simp only [order, ofLex_toLex, hq, hq'] at hle
  exact WithBot.coe_le_coe.mp hle

theorem not_before_of_order_le {text : String} (h : order c' ≤ order c)
    (ht : text ∈ nextBefore dates c') : ¬Before dates text c := by
  rw [before_nextBefore ht]
  intro ⟨queued', hq', queued, hq, hlt⟩
  have hle := queuedAt_le_of_order_le h hq' hq
  omega

theorem Before.trans {text text' : String} (h : Before dates text c)
    (ht : text' ∈ nextBefore dates c) (h' : Before dates text' c') : Before dates text c' := by
  obtain ⟨queued, hq, queued', hq', hlt⟩ := (before_nextBefore ht).mp h'
  unfold Before at h ⊢
  split
  case h_1 => trivial
  case h_2 t hb =>
    rw [hb] at h
    obtain ⟨_, hm, h⟩ := h
    obtain rfl := Option.some.inj (hq.symm.trans hm)
    exact ⟨queued', hq', by omega⟩

theorem ordered_listing : Paging.Ordered (Before dates) (nextBefore dates) (listing db user q) where
  before := (StableSort.pairwise_sortBy order _).imp fun h _ => not_before_of_order_le h
  self := fun _ _ => not_before_of_order_le le_rfl
  trans := Before.trans

theorem separated_iff_apart {commands : List Command} {n : Nat} :
    Paging.Separated (Before dates) (nextBefore dates) commands n ↔ Apart commands n := by
  refine forall₄_congr fun i c _ _ => forall₂_congr fun c' _ => ?_
  constructor
  case mp =>
    intro ⟨text, ht, hb⟩
    exact (before_nextBefore ht).mp hb
  case mpr =>
    intro ⟨queued, hq, hb⟩
    have ht : dates.toIso8601String (queued / 1000000) ∈ nextBefore dates c :=
      Option.map_eq_some_iff.mpr ⟨queued, hq, rfl⟩
    exact ⟨_, ht, (before_nextBefore ht).mpr ⟨queued, hq, hb⟩⟩

end Cursor

section Browse

theorem size_pos : 0 < q.size := by
  unfold Query.size
  omega

variable {before : Option String}

-- The cursor is one more filter on the same list.
theorem index_eq : index db user dates { q with before := before } =
      (let page := (Paging.rest (Before dates) (listing db user q) before).take q.size
      (page, page.getLast?.bind (nextBefore dates))) := by
  have hp : (fun c => visibleCommand db user c && q.matches c &&
      decide (∀ text ∈ before, Before dates text c)) = fun c =>
        decide (∀ text ∈ before, Before dates text c) && (visibleCommand db user c && q.matches c) :=
    funext fun c => Bool.and_comm ..
  have hs : sortBy order (db.commands.filter fun c => visibleCommand db user c && q.matches c &&
      decide (∀ text ∈ before, Before dates text c)) =
        Paging.rest (Before dates) (listing db user q) before := by
    rw [hp, ← List.filter_filter, ← StableSort.filter_sortBy]
    cases before
    case none | some text => simp [Paging.rest, listing]
  rw [← hs]
  rfl

theorem browse_eq_follow {fuel : Nat} :
    browse db user dates q fuel before = Paging.follow (Before dates) (nextBefore dates)
      (listing db user q) q.size fuel before := by
  induction fuel generalizing before
  case zero => rfl
  case succ fuel hi =>
    rw [browse, Paging.follow, index_eq]
    generalize (Paging.rest (Before dates) (listing db user q) before).take q.size = page
    cases page
    case nil => rfl
    case cons c page =>
      have hs : (c :: page).getLast?.isSome := List.getLast?_isSome.mpr (List.cons_ne_nil c page)
      obtain ⟨last, hl⟩ := Option.isSome_iff_exists.mp hs
      simp only [hl, Option.bind_some]
      cases hn : nextBefore dates last
      case none => rfl
      case some next => simp only [hi]

end Browse

-- The pages come to an end and show nothing twice. They show everything just when the commands on
-- either side of the end of a page can be told apart by the second in which they were queued.
theorem browse_eq_listing_iff (dates : Dates) (db : Database) (user : Option User) (q : Query)
    (more : Nat) :
    (∃ commands, browse db user dates q (db.commands.length + 1 + more) none = some commands ∧
      commands.Sublist (listing db user q)) ∧
    (browse db user dates q (db.commands.length + 1 + more) none = some (listing db user q) ↔
      Apart (listing db user q) q.size) := by
  have hl : (listing db user q).length < db.commands.length + 1 + more := by
    have hs : (listing db user q).length = _ := (StableSort.perm_sortBy order _).length_eq
    have hf := List.length_filter_le (fun c => visibleCommand db user c && q.matches c) db.commands
    omega
  rw [browse_eq_follow, ← separated_iff_apart]
  exact ⟨Paging.exists_follow ordered_listing size_pos hl,
    Paging.follow_eq_some_iff ordered_listing size_pos hl⟩

section Given

def isoFormat : List Calendar.Directive :=
  Calendar.isoDateTime ++ "+00:00".toList.map .literal

def scanIso (text : List Char) : Option Int :=
  match Calendar.scan isoFormat ⟨0, 0, 0, 0, 0, 0⟩ text with
  | some (d, []) => some d.toSeconds
  | _ => none

-- Times that four digits of a year are too few for are written as numbers of seconds.
def isoDates : Dates where
  toIso8601String s :=
    let text := Calendar.print isoFormat (.ofSeconds s)
    .ofList (if scanIso text = some s ∧ !isBlank (.ofList text) then text else '@' :: Json.intText s)
  parse text :=
    ((scanIso text.toList).or (Json.readInt (text.toList.drop 1))).map (· * 1000000)
  parse_to s := by
    have ha (cs : List Char) : scanIso ('@' :: cs) = none := rfl
    rw [String.toList_ofList]
    split
    case isTrue h => simp [h.left]
    case isFalse => simp [ha, Json.readInt_intText]
  not_blank s := by
    simp only []
    split
    case isTrue h => simpa using h.right
    case isFalse => simp [isBlank, isSpace]

def laptop : Device :=
  { Device.new "laptop" none .active none with userId := some "owner" }

def earlier : Command :=
  ⟨"c-1", "laptop", "queued", none, some 5300000⟩

def later : Command :=
  ⟨"c-2", "laptop", "queued", none, some 5600000⟩

-- The two commands are queued in the same second, and each page has one of them.
theorem earlier_command_missed :
    listing ⟨[laptop], [], [earlier, later]⟩ (some ⟨"owner", "viewer", false, none⟩)
        ⟨some 1, none, none, none, none, none⟩ = [later, earlier] ∧
      browse ⟨[laptop], [], [earlier, later]⟩ (some ⟨"owner", "viewer", false, none⟩) isoDates
        ⟨some 1, none, none, none, none, none⟩ 3 none = some [later] := by
  decide +kernel

end Given

end ControlPlane.CommandQuery
