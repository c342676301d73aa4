import Quoodle.Agent.Outbox

-- The outbox of the agent and the file from which it is loaded again.
namespace Agent.Outbox

open Json.Nlohmann

namespace Item

def toJson (item : Item) : Json Number :=
  .obj ([
    ("type", .str item.type),
    ("message_id", .str item.messageId),
    ("timestamp", .str item.timestamp),
    ("command_id", .str item.commandId),
    ("device_id", .str item.deviceId),
    ("ack_status", .str item.ackStatus),
    ("ack_reason", .str item.ackReason),
    ("result", item.result.toJson)
  ] ++ match item.payload with | .null => [] | payload => [("payload", payload)])

def fromJson (entry : Json Number) : Item where
  type := getStringOrDefault entry "type" ""
  messageId := getStringOrDefault entry "message_id" ""
  timestamp := getStringOrDefault entry "timestamp" ""
  commandId := getStringOrDefault entry "command_id" ""
  deviceId := getStringOrDefault entry "device_id" ""
  ackStatus := getStringOrDefault entry "ack_status" ""
  ackReason := getStringOrDefault entry "ack_reason" ""
  result := (member entry "result").elim noResult ExecutionResult.fromJson
  payload := (member entry "payload").getD .null

def isTelemetry (item : Item) : Bool :=
  item.type = "TELEMETRY"

-- The JSON values of an item are kept in maps.
structure Held (item : Item) : Prop where
  result : Stored item.result.result
  payload : Stored item.payload

theorem stored_null : Stored (.null : Json Number) := by
  simp [Stored]

variable {item : Item}

theorem distinct_toJson (h : item.Held) : item.toJson.Distinct := by
  have hr := ExecutionResult.distinct_toJson h.result
  have hp := h.payload.distinct
  unfold toJson
  refine Json.Distinct.obj_iff.mpr ⟨?_, ?_⟩
  case refine_1 => split <;> simp [Json.keys]
  case refine_2 => split <;> simp_all

theorem fromJson_toJson (h : item.Held) : fromJson (ofJson item.toJson) = item := by
  have hd := distinct_toJson h
  have hr : member item.toJson "result" = some item.result.toJson := by
    simp [toJson, member, List.lookup]
  have hp : ((member item.toJson "payload").map ofJson).getD .null = item.payload := by
    have ho := h.payload.ofJson_eq
    unfold toJson
    split
    case h_1 hn => simp [member, List.lookup, hn]
    case h_2 => simp [member, List.lookup, ho]
  simp only [fromJson, getStringOrDefault_ofJson hd, member_ofJson hd, hr, hp, Option.map_some,
    Option.elim_some, ExecutionResult.fromJson_toJson h.result]
  simp [getStringOrDefault, toJson, member, List.lookup]

end Item

def fileText (pending : List Item) : List Char :=
  Json.print .minimal Number.format (ofJson (.arr (pending.map Item.toJson)))

-- Models `Load` in a new process. Without a file, or if it cannot be read, there is nothing pending.
def load : Option (List Char) → List Item
  | none => []
  | some text =>
    match parse text with
    | some (.arr entries) => entries.map Item.fromJson
    | _ => []

theorem load_fileText {pending : List Item} (h : ∀ i ∈ pending, i.Held) :
    load (some (fileText pending)) = pending := by
  have hp : parse (fileText pending) = some (ofJson (.arr (pending.map Item.toJson))) :=
    parse_print (stored_ofJson _)
  simp only [load, hp, ofJson_arr, List.map_map]
  exact (List.map_congr_left fun i hi => Item.fromJson_toJson (h i hi)).trans (List.map_id _)

structure Box where
  pending : List Item
  file : Option (List Char)

inductive Op where
  | enqueueAck (stamp : Stamp) (commandId deviceId status reason : String)
  | enqueueResult (stamp : Stamp) (commandId deviceId : String) (result : ExecutionResult)
    (stored : Stored result.result)
  | enqueueTelemetry (stamp : Stamp) (deviceId : String) (body : Json Number) (stored : Stored body)
  | enqueueUpdateStatus (stamp : Stamp) (deviceId : String) (body : Json Number)
    (stored : Stored body)
  | popFront
  | restart

namespace Box

def empty : Box :=
  ⟨[], none⟩

variable (b : Box)

def save (pending : List Item) : Box :=
  ⟨pending, some (fileText pending)⟩

def enqueue (item : Item) : Box :=
  save (b.pending ++ [item])

def enqueueTelemetry (item : Item) : Box :=
  save (b.pending.filter (!·.isTelemetry) ++ [item])

def popFront : Box :=
  match b.pending with
  | [] => b
  | _ :: rest => save rest

def step : Op → Box
  | .enqueueAck stamp commandId deviceId status reason =>
    b.enqueue (ackItem stamp commandId deviceId status reason)
  | .enqueueResult stamp commandId deviceId result _ =>
    b.enqueue (resultItem stamp commandId deviceId result)
  | .enqueueTelemetry stamp deviceId body _ =>
    b.enqueueTelemetry (telemetryItem stamp deviceId body)
  | .enqueueUpdateStatus stamp deviceId body _ =>
    b.enqueue (updateStatusItem stamp deviceId body)
  | .popFront => b.popFront
  | .restart => { b with pending := load b.file }

def run (ops : List Op) : Box :=
  ops.foldl step b

end Box

-- The item that an operation is called with.
def Op.item : Op → Option Item
  | enqueueAck stamp commandId deviceId status reason =>
    some (ackItem stamp commandId deviceId status reason)
  | enqueueResult stamp commandId deviceId result _ =>
    some (resultItem stamp commandId deviceId result)
  | enqueueTelemetry stamp deviceId body _ => some (telemetryItem stamp deviceId body)
  | enqueueUpdateStatus stamp deviceId body _ => some (updateStatusItem stamp deviceId body)
  | popFront | restart => none

namespace Box

variable (b : Box)

def front : Op → Option Item
  | .popFront => b.pending.head?
  | _ => none

def popped : Box → List Op → List Item
  | _, [] => []
  | b, o :: ops => (b.front o).toList ++ popped (b.step o) ops

-- What is pending can be loaded again. All but telemetry is taken out in the order in which it was
-- put in, and of telemetry only the newest is pending.
structure Durable (enqueued popped : List Item) : Prop where
  held : ∀ i ∈ b.pending, i.Held
  reload : load b.file = b.pending
  order : enqueued.filter (!·.isTelemetry) = (popped ++ b.pending).filter (!·.isTelemetry)
  newest : b.pending.filter (·.isTelemetry) = [] ∨ ∃ i,
    b.pending.filter (·.isTelemetry) = [i] ∧ (enqueued.filter (·.isTelemetry)).getLast? = some i

namespace Durable

variable {b : Box} {item : Item} {enqueued popped : List Item}

theorem enqueue (h : b.Durable enqueued popped) (hi : item.Held) (ht : item.isTelemetry = false) :
    (b.enqueue item).Durable (enqueued ++ [item]) popped := by
  have hh : ∀ i ∈ b.pending ++ [item], i.Held := by
    simpa [or_imp, forall_and] using ⟨h.held, hi⟩
  refine ⟨hh, load_fileText hh, ?_, ?_⟩
  · simp [Box.enqueue, save, h.order, ht]
  · simpa [Box.enqueue, save, ht] using h.newest

theorem enqueueTelemetry (h : b.Durable enqueued popped) (hi : item.Held) (ht : item.isTelemetry) :
    (b.enqueueTelemetry item).Durable (enqueued ++ [item]) popped := by
  have hh : ∀ i ∈ b.pending.filter (!·.isTelemetry) ++ [item], i.Held := by
    intro i hm
    cases List.mem_append.mp hm
    case inl hm => exact h.held i (List.mem_of_mem_filter hm)
    case inr hm => exact List.mem_singleton.mp hm ▸ hi
  refine ⟨hh, load_fileText hh, ?_, .inr ⟨item, ?_, ?_⟩⟩
  · simp [Box.enqueueTelemetry, save, h.order, ht]
  · simp [Box.enqueueTelemetry, save, ht]
  · simp [ht]

theorem popFront (h : b.Durable enqueued popped) :
    b.popFront.Durable enqueued (popped ++ b.pending.head?.toList) := by
  unfold Box.popFront
  split
  case h_1 hp => simpa [hp] using h
  case h_2 item rest hp =>
    have hh : ∀ i ∈ rest, i.Held := fun i hi => h.held i (hp ▸ List.mem_cons_of_mem item hi)
    refine ⟨hh, load_fileText hh, ?_, ?_⟩
    · have ho := h.order
      rw [hp] at ho
      simpa [save, hp] using ho
    · have hn := h.newest
      rw [hp] at hn
      cases ht : item.isTelemetry
      case false => simpa [save, ht] using hn
      case true =>
        -- The only telemetry that may be pending has just been taken out.
        have hr : rest.filter (·.isTelemetry) = [] := by
          cases hn
          case inl hn => simp [ht] at hn
          case inr hn =>
            have ⟨i, hf, _⟩ := hn
            simp only [List.filter_cons, ht, if_true, List.cons.injEq] at hf
            exact hf.2
        exact .inl hr

theorem step (h : b.Durable enqueued popped) (o : Op) :
    (b.step o).Durable (enqueued ++ o.item.toList) (popped ++ (b.front o).toList) := by
  cases o
  case popFront => simpa [Op.item, Box.step, front] using h.popFront
  all_goals simp only [front, Option.toList_none, List.append_nil]
  case enqueueAck => exact h.enqueue ⟨Item.stored_null, Item.stored_null⟩ rfl
  case enqueueResult hs => exact h.enqueue ⟨hs, Item.stored_null⟩ rfl
  case enqueueTelemetry hs => exact h.enqueueTelemetry ⟨Item.stored_null, hs⟩ rfl
  case enqueueUpdateStatus hs => exact h.enqueue ⟨Item.stored_null, hs⟩ rfl
  case restart =>
    have hr : b.step .restart = b := by simp [Box.step, h.reload]
    simpa [hr, Op.item] using h

theorem run (h : b.Durable enqueued popped) (ops : List Op) :
    (b.run ops).Durable (enqueued ++ ops.filterMap Op.item) (popped ++ b.popped ops) := by
  induction ops generalizing b enqueued popped
  case nil => simpa [Box.run, Box.popped] using h
  case cons o ops hi =>
    have hs := hi (h.step o)
    have he : (o :: ops).filterMap Op.item = o.item.toList ++ ops.filterMap Op.item := by
      cases ho : o.item <;> simp [ho]
    rwa [List.append_assoc, List.append_assoc, ← he] at hs

end Durable

-- No operation can make the outbox lose its order, or what it has saved.
theorem durable_run (ops : List Op) :
    (Box.empty.run ops).Durable (ops.filterMap Op.item) (Box.empty.popped ops) := by
  have h : Box.empty.Durable [] [] := ⟨nofun, rfl, rfl, .inl rfl⟩
  simpa using h.run ops

def sampleOps : List Op := [
  .enqueueAck ⟨"m-1", "t-1"⟩ "c-1" "dev-1" "accepted" "",
  .enqueueTelemetry ⟨"m-2", "t-2"⟩ "dev-1" .null Item.stored_null,
  .enqueueResult ⟨"m-3", "t-3"⟩ "c-1" "dev-1" noResult Item.stored_null,
  .enqueueTelemetry ⟨"m-4", "t-4"⟩ "dev-1" .null Item.stored_null,
  .popFront
]

-- The acknowledgement is taken out, and a new process finds the result and the newer telemetry.
theorem durable_run_sampleOps :
    Box.empty.popped sampleOps = [ackItem ⟨"m-1", "t-1"⟩ "c-1" "dev-1" "accepted" ""] ∧
      (Box.empty.run (sampleOps ++ [.restart])).pending = [
        resultItem ⟨"m-3", "t-3"⟩ "c-1" "dev-1" noResult,
        telemetryItem ⟨"m-4", "t-4"⟩ "dev-1" .null] := by
  have hr (b : Box) : (b.run [.restart]).pending = load b.file := rfl
  refine ⟨rfl, ?_⟩
  rw [run, List.foldl_append, ← run, ← run, hr, (durable_run sampleOps).reload]
  rfl

end Box

end Agent.Outbox
