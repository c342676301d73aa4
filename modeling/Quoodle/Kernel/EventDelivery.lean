import Quoodle.Data.RingBuffer
import Quoodle.Kernel.EventPipeline

-- How events get from the execute requests to the requests that wait for them.
namespace Kernel.EventPipeline

-- QUOODLE_EVENT_RING_SIZE
def ringSize : Nat :=
  16

instance : NeZero ringSize :=
  ⟨by decide⟩

structure KernelEvent where
  eventId : UInt64
  eventType : UInt32
  timestampUnix : UInt64
  payloadJson : List UInt8
  deriving Inhabited

-- sizeof(QUOODLE_KERNEL_EVENT)
def kernelEventSize : Nat :=
  544

structure WaitRequest where
  id : Nat
  outputBufferLength : Nat
  -- Whether the buffer can be accessed at all.
  hasOutputBuffer : Bool

def WaitRequest.retrieveOutputBuffer (r : WaitRequest) (size : Nat) : Bool :=
  r.hasOutputBuffer && size ≤ r.outputBufferLength

inductive Status where
  | success
  | bufferTooSmall
  | invalidParameter
  | failed
  deriving DecidableEq

structure Completion where
  request : Nat
  status : Status
  event : Option KernelEvent

structure Pipeline where
  eventCounter : UInt64
  dropped : UInt64
  validationRejects : UInt64
  runtimeInternalErrors : UInt64
  ring : RingBuffer KernelEvent ringSize
  waitQueue : List WaitRequest
  emitted : List KernelEvent
  completed : List Completion

namespace Pipeline

variable (p : Pipeline)

def delivered : List KernelEvent :=
  p.completed.filterMap (·.event)

def counters : Counters where
  queueDepth := .ofNat p.ring.count
  dropped := p.dropped
  validationRejects := p.validationRejects
  runtimeInternalErrors := p.runtimeInternalErrors

def complete (request : Nat) (status : Status) (event : Option KernelEvent) : Pipeline :=
  { p with completed := p.completed ++ [⟨request, status, event⟩] }

-- Models `qep_push_kernel_event`.
def pushKernelEvent (evt : KernelEvent) : Pipeline :=
  { p with
    dropped := if p.ring.count = ringSize then p.dropped + 1 else p.dropped
    ring := p.ring.push evt }

def deliverOrQueueKernelEvent (evt : KernelEvent) : Pipeline :=
  match p.waitQueue with
  | [] => p.pushKernelEvent evt
  | request :: queue =>
    let p := { p with waitQueue := queue }
    if request.retrieveOutputBuffer kernelEventSize then p.complete request.id .success (some evt)
    else
      let p := { p with runtimeInternalErrors := p.runtimeInternalErrors + 1 }
      (p.complete request.id .invalidParameter none).pushKernelEvent evt

def initKernelEvent (eventType : UInt32) (timestampUnix : UInt64) (payload : List UInt8) :
    KernelEvent × Pipeline :=
  let evt := ⟨p.eventCounter + 1, eventType, timestampUnix, payload⟩
  (evt, { p with eventCounter := p.eventCounter + 1, emitted := p.emitted ++ [evt] })

def emit (eventType : UInt32) (timestampUnix : UInt64) (payload : List UInt8) : Pipeline :=
  let (evt, p) := p.initKernelEvent eventType timestampUnix payload
  p.deliverOrQueueKernelEvent evt

-- Models `QuoodleEvtIoDeviceControl` for requests that wait for an event. The last argument says
-- whether the request can be forwarded to the queue.
def waitEvent (request : WaitRequest) (forwards : Bool) : Pipeline :=
  if request.outputBufferLength < kernelEventSize then p.complete request.id .bufferTooSmall none
  else if !request.retrieveOutputBuffer kernelEventSize then
    p.complete request.id .invalidParameter none
  else
    match p.ring.pop with
    | some (evt, ring) => { p with ring }.complete request.id .success (some evt)
    | none =>
      if forwards then { p with waitQueue := p.waitQueue ++ [request] }
      else p.complete request.id .failed none

def initial : Pipeline :=
  ⟨0, 0, 0, 0, .empty, [], [], []⟩

end Pipeline

def eventTypes : List (UInt32 × UInt32) := [
  (30, 4),
  (31, 3),
  (32, 3),
  (13, 5),
  (20, 5),
  (21, 5),
  (22, 5)
]

def eventTypeForOpcode (opcode : UInt32) : UInt32 :=
  (eventTypes.lookup opcode).getD 1

def Verdict.isValidationReject : Verdict → Bool
  | .accepted => false
  | .rejected _ errorMessage => errorMessage ≠ "invalid_opcode"

structure Driver where
  security : State
  pipeline : Pipeline

structure Execution where
  arrival : Arrival
  handled : Response
  durationMs : UInt64
  timestampUnix : UInt64

def Driver.execute (d : Driver) (x : Execution) : Driver :=
  let req := x.arrival.request
  let (verdict, security) := Kernel.execute d.security x.arrival
  let isReject := Verdict.isValidationReject verdict
  let p := d.pipeline
  let p := { p with validationRejects := p.validationRejects + if isReject then 1 else 0 }
  let text := payload (eventOf req.opcode x.handled x.durationMs verdict) p.counters (policyRef req)
  let eventType := if isReject then 2 else eventTypeForOpcode req.opcode
  { security, pipeline := p.emit eventType x.timestampUnix text }

inductive Action where
  | waitEvent (request : WaitRequest) (forwards : Bool)
  | execute (hasBuffers : Bool) (x : Execution)
  | cancel (request : Nat)

def Driver.step (d : Driver) : Action → Driver
  | .waitEvent request forwards => { d with pipeline := d.pipeline.waitEvent request forwards }
  | .execute hasBuffers x => if hasBuffers then d.execute x else d
  | .cancel request =>
    { d with pipeline :=
      { d.pipeline with waitQueue := d.pipeline.waitQueue.filter (·.id ≠ request) } }

def Driver.run (d : Driver) (as : List Action) : Driver :=
  as.foldl Driver.step d

structure Accounts (p : Pipeline) (log : List (KernelEvent × Bool)) : Prop where
  emitted : p.emitted = log.map (·.1) ++ p.ring.toList
  delivered : p.delivered = (log.filter (·.2)).map (·.1)
  dropped : p.dropped = .ofNat (log.countP (!·.2))

structure Accounted (p : Pipeline) : Prop where
  waiting : p.waitQueue = [] ∨ p.ring.toList = []
  size : p.ring.toList.length ≤ ringSize
  accounts : ∃ log, Accounts p log
  numbered : p.emitted.map (·.eventId) = (List.range p.emitted.length).map fun i => .ofNat (i + 1)

def Ordered (p : Pipeline) : Prop :=
  (p.delivered.map (·.eventId)).Pairwise (· < ·)

structure Consistent (p : Pipeline) : Prop extends Accounted p where
  counter : p.eventCounter = .ofNat p.emitted.length
  buffers : ∀ r ∈ p.waitQueue, r.retrieveOutputBuffer kernelEventSize

section Steps

variable {p : Pipeline} {evt : KernelEvent} {log : List (KernelEvent × Bool)}

theorem size_ring : p.ring.toList.length ≤ ringSize :=
  RingBuffer.length_toList.trans_le p.ring.count_le

theorem delivered_complete {request : Nat} {status : Status} {event : Option KernelEvent} :
    (p.complete request status event).delivered = p.delivered ++ event.toList := by
  cases event <;> simp [Pipeline.delivered, Pipeline.complete]

theorem Accounts.deliver {p' : Pipeline} {request : Nat} {status : Status} (h : Accounts p log)
    (he : p'.emitted = log.map (·.1) ++ evt :: p'.ring.toList) (hc : p'.completed = p.completed)
    (hd : p'.dropped = p.dropped) :
    Accounts (p'.complete request status (some evt)) (log ++ [(evt, true)]) where
  emitted := by simp [Pipeline.complete, he]
  delivered := by
    have hp : p'.delivered = p.delivered := by rw [Pipeline.delivered, hc, Pipeline.delivered]
    simp [delivered_complete, hp, h.delivered]
  dropped := by simp [Pipeline.complete, hd, h.dropped]

theorem Accounts.push {p' : Pipeline} (h : Accounts p log) (hr : p'.ring = p.ring)
    (he : p'.emitted = p.emitted ++ [evt]) (hc : p'.completed = p.completed)
    (hd : p'.dropped = p.dropped) : ∃ log, Accounts (p'.pushKernelEvent evt) log := by
  have hp : (p'.pushKernelEvent evt).delivered = p.delivered := by
    rw [Pipeline.delivered, Pipeline.pushKernelEvent, hc, Pipeline.delivered]
  have ht : (p'.pushKernelEvent evt).ring.toList =
      Window.last ringSize (p.ring.toList ++ [evt]) := by
    rw [Pipeline.pushKernelEvent, hr, RingBuffer.toList_push]
  by_cases hf : p.ring.count = ringSize
  case neg =>
    have hl : (p.ring.toList ++ [evt]).length ≤ ringSize := by
      have := p.ring.count_le
      simp only [List.length_append, RingBuffer.length_toList, List.length_singleton]
      omega
    refine ⟨log, ?_, hp.trans h.delivered, ?_⟩
    · rw [ht, Window.last_of_length_le hl, ← List.append_assoc, ← h.emitted]
      exact he
    · simp [Pipeline.pushKernelEvent, hr, hf, hd, h.dropped]
  case pos =>
    obtain ⟨oldest, rest, ho⟩ : ∃ oldest rest, p.ring.toList = oldest :: rest := by
      refine List.exists_cons_of_length_pos ?_
      rw [RingBuffer.length_toList, hf]
      decide
    have hl : (p.ring.toList ++ [evt]).length - ringSize = 1 := by simp [hf]
    refine ⟨log ++ [(oldest, false)], ?_, ?_, ?_⟩
    · rw [ht, Window.last, hl, ho]
      rw [h.emitted, ho] at he
      simpa [Pipeline.pushKernelEvent] using he
    · simp [hp, h.delivered]
    · simp [Pipeline.pushKernelEvent, hr, hf, hd, h.dropped]

theorem ofNat_succ {n : Nat} : UInt64.ofNat (n + 1) = .ofNat n + 1 :=
  UInt64.ofNat_add n 1

namespace Consistent

theorem of_emitted {p' : Pipeline} (h : Consistent p) (hn : evt.eventId = p.eventCounter + 1)
    (he : p'.emitted = p.emitted ++ [evt]) (hc : p'.eventCounter = p.eventCounter + 1)
    (hw : p'.waitQueue = [] ∨ p'.ring.toList = []) (hs : p'.waitQueue ⊆ p.waitQueue)
    (ha : ∃ log, Accounts p' log) : Consistent p' where
  waiting := hw
  size := size_ring
  accounts := ha
  numbered := by
    rw [he, List.map_append, List.map_singleton, List.length_append, List.length_singleton,
      List.range_succ, List.map_append, List.map_singleton, h.numbered, hn, h.counter, ofNat_succ]
  counter := by
    rw [hc, he, List.length_append, List.length_singleton, ofNat_succ, h.counter]
  buffers := fun r hr => h.buffers r (hs hr)

theorem emit {eventType : UInt32} {timestampUnix : UInt64} {payload : List UInt8}
    (h : Consistent p) : Consistent (p.emit eventType timestampUnix payload) := by
  obtain ⟨log, ha⟩ := h.accounts
  cases hw : p.waitQueue
  case nil =>
    simp only [Pipeline.emit, Pipeline.initKernelEvent, Pipeline.deliverOrQueueKernelEvent, hw]
    exact h.of_emitted rfl rfl rfl (.inl rfl) (by simp [Pipeline.pushKernelEvent])
      (ha.push rfl rfl rfl rfl)
  case cons request queue =>
    have hr : p.ring.toList = [] := h.waiting.resolve_left (by simp [hw])
    have hb : request.retrieveOutputBuffer kernelEventSize := h.buffers request (by simp [hw])
    simp only [Pipeline.emit, Pipeline.initKernelEvent, Pipeline.deliverOrQueueKernelEvent, hw,
      if_pos hb]
    refine h.of_emitted rfl rfl rfl (.inr hr) ?_ ⟨_, ha.deliver ?_ rfl rfl⟩
    · simp [hw, Pipeline.complete]
    · simp [ha.emitted, hr]

theorem complete {request : Nat} {status : Status} (h : Consistent p) :
    Consistent (p.complete request status none) where
  waiting := h.waiting
  size := h.size
  accounts := by
    obtain ⟨log, ha⟩ := h.accounts
    exact ⟨log, ha.emitted, by simp [delivered_complete, ha.delivered], ha.dropped⟩
  numbered := h.numbered
  counter := h.counter
  buffers := h.buffers

theorem waitEvent {request : WaitRequest} {forwards : Bool} (h : Consistent p) :
    Consistent (p.waitEvent request forwards) := by
  simp only [Pipeline.waitEvent]
  split
  case isTrue => exact h.complete
  split
  case isTrue => exact h.complete
  case isFalse hb =>
    split
    case h_1 evt ring hp =>
      have hr : p.ring.toList = evt :: ring.toList := RingBuffer.toList_of_pop hp
      have hw : p.waitQueue = [] := h.waiting.resolve_right (by simp [hr])
      obtain ⟨log, ha⟩ := h.accounts
      exact {
        waiting := .inl hw
        size := size_ring
        accounts := ⟨_, ha.deliver (ha.emitted.trans (by rw [hr])) rfl rfl⟩
        numbered := h.numbered
        counter := h.counter
        buffers := h.buffers }
    case h_2 hp =>
      split
      case isFalse => exact h.complete
      obtain ⟨log, ha⟩ := h.accounts
      exact {
        waiting := .inr (RingBuffer.pop_eq_none_iff.mp hp)
        size := h.size
        accounts := ⟨log, ha.emitted, ha.delivered, ha.dropped⟩
        numbered := h.numbered
        counter := h.counter
        buffers := fun r hr => by
          cases List.mem_append.mp hr
          case inl hr => exact h.buffers r hr
          case inr hr =>
            rw [List.mem_singleton.mp hr]
            simpa using hb }

theorem step {d : Driver} {a : Action} (h : Consistent d.pipeline) :
    Consistent (d.step a).pipeline := by
  cases a
  case waitEvent request forwards => exact h.waitEvent
  case execute hasBuffers x =>
    cases hasBuffers
    case false => exact h
    case true =>
      obtain ⟨log, ha⟩ := h.accounts
      refine Consistent.emit ⟨⟨h.waiting, h.size, ?_, h.numbered⟩, h.counter, h.buffers⟩
      exact ⟨log, ha.emitted, ha.delivered, ha.dropped⟩
  case cancel request =>
    obtain ⟨log, ha⟩ := h.accounts
    refine ⟨⟨?_, h.size, ⟨log, ha.emitted, ha.delivered, ha.dropped⟩, h.numbered⟩, h.counter, ?_⟩
    · exact h.waiting.imp_left fun hw => by simp [Driver.step, hw]
    · exact fun r hr => h.buffers r (List.mem_of_mem_filter hr)

theorem initial : Consistent .initial where
  waiting := .inl rfl
  size := size_ring
  accounts := ⟨[], rfl, rfl, rfl⟩
  numbered := rfl
  counter := rfl
  buffers := by simp [Pipeline.initial]

theorem run {d : Driver} {as : List Action} (h : Consistent d.pipeline) :
    Consistent (d.run as).pipeline :=
  List.foldlRecOn (motive := fun d => Consistent d.pipeline) as Driver.step h fun _ h _ _ => step h

end Consistent

theorem Accounted.ordered (h : Accounted p) (hl : p.emitted.length < 2 ^ 64) : Ordered p := by
  obtain ⟨log, ha⟩ := h.accounts
  have hs : p.delivered.Sublist p.emitted := by
    rw [ha.delivered, ha.emitted]
    exact (List.filter_sublist.map _).trans (List.sublist_append_left ..)
  refine List.Pairwise.sublist (hs.map _) ?_
  rw [h.numbered, List.pairwise_map]
  refine List.Pairwise.imp_of_mem (fun {i j} hi hj hlt => ?_) List.pairwise_lt_range
  have hj : j + 1 < UInt64.size := (Nat.succ_le_of_lt (List.mem_range.mp hj)).trans_lt hl
  have hi : i + 1 < UInt64.size := (Nat.succ_lt_succ hlt).trans hj
  rw [UInt64.lt_iff_toNat_lt, UInt64.toNat_ofNat_of_lt' hi, UInt64.toNat_ofNat_of_lt' hj]
  omega

end Steps

-- In every run, all events are accounted for, and as long as their numbers do not wrap around, they
-- are delivered in order.
theorem accounted_run (security : State) (as : List Action) :
    Accounted (Driver.run ⟨security, .initial⟩ as).pipeline ∧
      ((Driver.run ⟨security, .initial⟩ as).pipeline.emitted.length < 2 ^ 64 →
        Ordered (Driver.run ⟨security, .initial⟩ as).pipeline) := by
  have hc : Consistent (Driver.run ⟨security, .initial⟩ as).pipeline := Consistent.initial.run
  exact ⟨hc.toAccounted, hc.toAccounted.ordered⟩

def exampleWait : WaitRequest :=
  ⟨0, kernelEventSize, true⟩

def exampleExecution : Execution :=
  ⟨unsignedPing, ⟨0, 0⟩, 0, 0⟩

def exampleRun : Pipeline :=
  (Driver.run ⟨⟨0, []⟩, .initial⟩
    (List.replicate 17 (.execute true exampleExecution) ++ [.waitEvent exampleWait true])).pipeline

theorem ordered_exampleRun :
    exampleRun.dropped = 1 ∧ exampleRun.delivered.map (·.eventId) = [2] ∧
      exampleRun.ring.toList.map (·.eventId) = (List.range' 3 15).map .ofNat ∧
      Accounted exampleRun ∧ Ordered exampleRun := by
  have hl : exampleRun.emitted.length < 2 ^ 64 := by decide +kernel
  obtain ⟨ha, ho⟩ := accounted_run ⟨0, []⟩
    (List.replicate 17 (.execute true exampleExecution) ++ [.waitEvent exampleWait true])
  exact ⟨by decide +kernel, by decide +kernel, by decide +kernel, ha, ho hl⟩

section Wrap

def turns (n : Nat) : List Action :=
  (List.replicate n [.waitEvent exampleWait true, .execute true exampleExecution]).flatten

structure Served (p : Pipeline) (n : Nat) : Prop where
  waitQueue : p.waitQueue = []
  ring : p.ring.toList = []
  emitted : p.emitted.length = n
  delivered : p.delivered.length = n

theorem served_turn {d : Driver} {n : Nat} (h : Served d.pipeline n) :
    Served ((d.step (.waitEvent exampleWait true)).step (.execute true exampleExecution)).pipeline
      (n + 1) := by
  have hb : exampleWait.retrieveOutputBuffer kernelEventSize := by decide
  have hl : ¬exampleWait.outputBufferLength < kernelEventSize := by decide
  have hp : d.pipeline.ring.pop = none := RingBuffer.pop_eq_none_iff.mpr h.ring
  have hw : d.pipeline.waitEvent exampleWait true =
      { d.pipeline with waitQueue := [exampleWait] } := by
    simp [Pipeline.waitEvent, hb, hl, hp, h.waitQueue]
  simp only [Driver.step, hw, if_true, Driver.execute, Pipeline.emit, Pipeline.initKernelEvent,
    Pipeline.deliverOrQueueKernelEvent, hb]
  refine ⟨rfl, h.ring, ?_, ?_⟩
  · simp [Pipeline.complete, h.emitted]
  · rw [delivered_complete, List.length_append, Option.length_toList, ← h.delivered]
    rfl

theorem served_turns {security : State} {n : Nat} :
    Served (Driver.run ⟨security, .initial⟩ (turns n)).pipeline n := by
  induction n
  case zero => exact ⟨rfl, rfl, rfl, rfl⟩
  case succ n hi =>
    have ht : turns (n + 1) =
        turns n ++ [.waitEvent exampleWait true, .execute true exampleExecution] := by
      simp [turns, List.replicate_succ']
    rw [ht, Driver.run, List.foldl_append, List.foldl_cons, List.foldl_cons, List.foldl_nil]
    exact served_turn hi

theorem not_ordered_of_served {p : Pipeline} {n : Nat} (h : Accounted p) (hs : Served p (n + 1))
    (hn : UInt64.ofNat (n + 1) = 0) : ¬Ordered p := by
  obtain ⟨log, ha⟩ := h.accounts
  have hd : p.delivered = p.emitted := by
    refine List.Sublist.eq_of_length ?_ (hs.delivered.trans hs.emitted.symm)
    rw [ha.delivered, ha.emitted]
    exact (List.filter_sublist.map _).trans (List.sublist_append_left ..)
  intro ho
  rw [Ordered, hd, h.numbered, hs.emitted, List.pairwise_map] at ho
  cases n
  case zero => exact absurd hn (by decide)
  case succ n =>
    have hl := List.pairwise_iff_getElem.mp ho 0 (n + 1) (by simp) (by simp) (by simp)
    simp only [List.getElem_range, hn] at hl
    exact absurd hl (by decide)

end Wrap

-- The event after 2^64 - 1 others has the number zero.
theorem order_lost : ∃ as, ¬Ordered (Driver.run ⟨⟨0, []⟩, .initial⟩ as).pipeline := by
  have hn : UInt64.ofNat (2 ^ 64 - 1 + 1) = 0 := by decide
  exact ⟨turns _, not_ordered_of_served Consistent.initial.run.toAccounted served_turns hn⟩

end Kernel.EventPipeline
