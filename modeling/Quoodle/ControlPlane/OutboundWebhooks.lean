import Quoodle.Data.Utf8Decode

-- The delivery of events to the webhooks of integrations, by a job that schedules itself again.
namespace ControlPlane.OutboundWebhooks

inductive DeliveryStatus where
  | pending
  | retrying
  | sent
  | deadLetter
  deriving DecidableEq

inductive EndpointStatus where
  | active
  | paused
  | failing
  deriving DecidableEq

inductive RetryPolicy where
  | exponential
  | linear
  | none
  deriving DecidableEq

structure Delivery (π : Type) where
  id : String
  endpointId : String
  eventId : String
  -- There is no payload if the column does not hold an array.
  payloadJson : Option π
  attempt : Nat
  maxAttempts : Nat
  status : DeliveryStatus
  nextAttemptAt : Option Int
  httpStatus : Option Nat
  latencyMs : Option Nat
  responseBody : Option (List UInt8)
  lastError : Option (List UInt8)
  sentAt : Option Int
  deliveredAt : Option Int

structure Endpoint where
  id : String
  url : String
  status : EndpointStatus
  retryPolicy : RetryPolicy
  timeoutMs : Nat
  -- There is no secret if the column cannot be decrypted.
  signingSecretEncrypted : Option (List UInt8)
  deriving DecidableEq

-- The columns of type `TEXT`, whose character set is `utf8mb4`.
def IsText (bs : List UInt8) : Prop :=
  bs.length < 2 ^ 16 ∧ (decodeUtf8 bs).isSome

instance {bs : List UInt8} : Decidable (IsText bs) :=
  inferInstanceAs (Decidable (_ ∧ _))

def IsTimestamp (t : Int) : Prop :=
  0 < t ∧ t < 2 ^ 31

instance {t : Int} : Decidable (IsTimestamp t) :=
  inferInstanceAs (Decidable (_ ∧ _))

-- The values that fit into their columns, if the database is MySQL. It refuses others, as it is used
-- in its strict mode.
structure Delivery.Storable {π : Type} (d : Delivery π) : Prop where
  attempt : d.attempt < 2 ^ 16
  maxAttempts : d.maxAttempts < 2 ^ 16
  nextAttemptAt : ∀ t ∈ d.nextAttemptAt, IsTimestamp t
  httpStatus : ∀ n ∈ d.httpStatus, n < 2 ^ 16
  latencyMs : ∀ n ∈ d.latencyMs, n < 2 ^ 32
  responseBody : ∀ bs ∈ d.responseBody, IsText bs
  lastError : ∀ bs ∈ d.lastError, IsText bs
  sentAt : ∀ t ∈ d.sentAt, IsTimestamp t
  deliveredAt : ∀ t ∈ d.deliveredAt, IsTimestamp t

instance {π : Type} {d : Delivery π} : Decidable d.Storable :=
  decidable_of_iff
    (d.attempt < 2 ^ 16 ∧ d.maxAttempts < 2 ^ 16 ∧ (∀ t ∈ d.nextAttemptAt, IsTimestamp t) ∧
      (∀ n ∈ d.httpStatus, n < 2 ^ 16) ∧ (∀ n ∈ d.latencyMs, n < 2 ^ 32) ∧
      (∀ bs ∈ d.responseBody, IsText bs) ∧ (∀ bs ∈ d.lastError, IsText bs) ∧
      (∀ t ∈ d.sentAt, IsTimestamp t) ∧ ∀ t ∈ d.deliveredAt, IsTimestamp t)
    ⟨fun ⟨h₁, h₂, h₃, h₄, h₅, h₆, h₇, h₈, h₉⟩ => ⟨h₁, h₂, h₃, h₄, h₅, h₆, h₇, h₈, h₉⟩,
      fun ⟨h₁, h₂, h₃, h₄, h₅, h₆, h₇, h₈, h₉⟩ => ⟨h₁, h₂, h₃, h₄, h₅, h₆, h₇, h₈, h₉⟩⟩

structure Row (π : Type) extends Delivery π where
  storable : toDelivery.Storable

structure Platform (π : Type) where
  jsonEncode : π → Option (List UInt8)
  emptyArray : π
  hashHmac : List UInt8 → List UInt8 → String
  iso8601 : Int → String
  -- The message of the exception for an update that the database refuses. It quotes the values as
  -- they are, so that a response that is no text makes the message one that is no text either.
  queryMessage : Delivery π → List UInt8
  quotes : ∀ {d bs}, d.responseBody = some bs → ¬ IsText bs → ¬ IsText (queryMessage d)

structure Response where
  status : Nat
  body : List UInt8
  status_lt : status < 600

def Response.Successful (r : Response) : Prop :=
  200 ≤ r.status ∧ r.status < 300

instance {r : Response} : Decidable r.Successful :=
  inferInstanceAs (Decidable (_ ∧ _))

inductive Answer where
  | response (r : Response)
  -- There was no response, or no request could be made.
  | exception (message : List UInt8)

def Answer.Successful : Answer → Prop
  | response r => r.Successful
  | exception _ => False

instance {a : Answer} : Decidable a.Successful :=
  match a with
  | .response _ => inferInstanceAs (Decidable (Response.Successful _))
  | .exception _ => inferInstanceAs (Decidable False)

-- What a run of the job meets. Random numbers are drawn once for each time a failure is recorded.
structure Circumstances where
  now : Int
  latencyMs : Nat
  answer : Answer
  random : Fin 4
  random' : Fin 4
  now_pos : 0 < now
  now_lt : now + 300 < 2 ^ 31
  latency_lt : latencyMs < 2 ^ 32

structure Request where
  url : String
  timeoutMs : Nat
  signature : String
  timestamp : String
  eventId : String
  deliveryId : String
  rawBody : List UInt8

structure Flight (π : Type) where
  row : Row π
  endpoint : Endpoint
  request : Request

structure Result where
  retry : Bool
  delaySeconds : Int

inductive Started (π : Type) where
  | ended (row : Row π)
  | thrown (row : Row π)
  | sending (flight : Flight π)

structure Finished (π : Type) where
  row : Row π
  endpoint : Endpoint
  -- There is no result if an exception is thrown.
  result : Option Result

section Source

variable {π : Type} (p : Platform π)

def Platform.encode (d : Delivery π) : Option (List UInt8) :=
  p.jsonEncode (d.payloadJson.getD p.emptyArray)

def Platform.sign (timestamp eventId : String) (rawBody secret : List UInt8) : String :=
  p.hashHmac (utf8 (timestamp ++ "." ++ eventId ++ ".").toList ++ rawBody) secret

-- An exception leaves the model in memory as it was changed.
def save (d : Delivery π) : Except (List UInt8 × Delivery π) (Row π) :=
  if h : d.Storable then .ok ⟨d, h⟩ else .error (p.queryMessage d, d)

def giveUp (row : Row π) (error : String) : Started π :=
  let changed :=
    { row.toDelivery with
      status := .deadLetter
      lastError := some (utf8 error.toList)
      nextAttemptAt := none }
  match save p changed with
  | .ok row' => .ended row'
  | .error _ => .thrown row

def request (now : Int) (d : Delivery π) (e : Endpoint) (rawBody secret : List UInt8) : Request where
  url := e.url
  timeoutMs := max 1000 e.timeoutMs
  signature := p.sign (p.iso8601 now) d.eventId rawBody secret
  timestamp := p.iso8601 now
  eventId := d.eventId
  deliveryId := d.id
  rawBody := rawBody

def attempted (now : Int) (d : Delivery π) : Delivery π :=
  { d with
    attempt := d.attempt + 1
    status := .retrying
    sentAt := some now }

def startDelivery (now : Int) (row : Row π) (endpoint : Option Endpoint) : Started π :=
  if row.status = .sent ∨ row.status = .deadLetter then
    .ended row
  else
    match endpoint with
    | none => giveUp p row "endpoint_not_found"
    | some e =>
      if e.status = .paused then
        giveUp p row "endpoint_paused"
      else
        match save p (attempted now row.toDelivery) with
        | .error _ => .thrown row
        | .ok row' =>
          match p.encode row'.toDelivery with
          | none => giveUp p row' "payload_encoding_failed"
          | some rawBody =>
            match e.signingSecretEncrypted with
            | none => .thrown row'
            | some secret => .sending ⟨row', e, request p now row'.toDelivery e rawBody secret⟩

-- `(int) pow(2, n)`. The powers from `2 ^ 63` on are floating point numbers, and their conversion
-- is modulo `2 ^ 64`.
def intPow (n : Nat) : Int :=
  (2 ^ n : Int).bmod (2 ^ 64)

def nextDelaySeconds (random : Fin 4) (attempt : Nat) : RetryPolicy → Int
  | .linear => 30
  | .none => 0
  | .exponential => min 300 (intPow (attempt - 1) + random)

def Endpoint.withStatus (e : Endpoint) (status : EndpointStatus) : Endpoint :=
  { e with status := status }

def IsTerminal (attempt maxAttempts : Nat) (policy : RetryPolicy) : Prop :=
  policy = .none ∨ max 1 maxAttempts ≤ attempt

instance {attempt maxAttempts : Nat} {policy : RetryPolicy} :
    Decidable (IsTerminal attempt maxAttempts policy) :=
  inferInstanceAs (Decidable (_ ∨ _))

section Failure

variable (now : Int) (latencyMs : Nat) (random : Fin 4) (d : Delivery π) (e : Endpoint)
variable (error : List UInt8) (statusCode : Option Nat) (responseBody : Option (List UInt8))

def failed (status : DeliveryStatus) (nextAttemptAt : Option Int) : Delivery π :=
  { d with
    status := status
    httpStatus := statusCode
    latencyMs := some latencyMs
    responseBody := responseBody
    lastError := some error
    nextAttemptAt := nextAttemptAt }

def markFailedAttempt : Except (List UInt8 × Delivery π) (Finished π) :=
  if IsTerminal d.attempt d.maxAttempts e.retryPolicy then do
    let row ← save p (failed latencyMs d error statusCode responseBody .deadLetter none)
    return ⟨row, e.withStatus .failing, some ⟨false, 0⟩⟩
  else do
    let delaySeconds := nextDelaySeconds random d.attempt e.retryPolicy
    let next := some (now + delaySeconds)
    let row ← save p (failed latencyMs d error statusCode responseBody .retrying next)
    return ⟨row, e.withStatus .failing, some ⟨true, delaySeconds⟩⟩

end Failure

def delivered (now : Int) (latencyMs : Nat) (d : Delivery π) (r : Response) : Delivery π :=
  { d with
    status := .sent
    httpStatus := some r.status
    latencyMs := some latencyMs
    responseBody := some (r.body.take 4000)
    lastError := none
    deliveredAt := some now
    nextAttemptAt := none }

def record (c : Circumstances) (f : Flight π) : Except (List UInt8 × Delivery π) (Finished π) :=
  match c.answer with
  | .exception message => .error (message, f.row.toDelivery)
  | .response r =>
    if r.Successful then do
      let row ← save p (delivered c.now c.latencyMs f.row.toDelivery r)
      let status := if f.endpoint.status = .failing then .active else f.endpoint.status
      return ⟨row, f.endpoint.withStatus status, some ⟨false, 0⟩⟩
    else
      markFailedAttempt p c.now c.latencyMs c.random f.row.toDelivery f.endpoint
        (utf8 ("http_" ++ toString r.status).toList) (some r.status) (some (r.body.take 4000))

def finishDelivery (c : Circumstances) (f : Flight π) : Finished π :=
  match record p c f with
  | .ok finished => finished
  | .error (message, d) =>
    match markFailedAttempt p c.now c.latencyMs c.random' d f.endpoint message none none with
    | .ok finished => finished
    | .error _ => ⟨f.row, f.endpoint, none⟩

end Source

structure Job extends Circumstances where
  endpoint : Option Endpoint

structure Delivered (π : Type) where
  row : Row π
  endpoint : Option Endpoint
  request : Option (Request × Answer)
  result : Option Result

structure Handled (π : Type) where
  row : Row π
  request : Option (Request × Answer)
  delay : Option Int

structure Chain (π : Type) where
  row : Row π
  scheduled : Bool
  requests : List (Request × Answer)
  delays : List Int

section Jobs

variable {π : Type} (p : Platform π)

def deliver (job : Job) (row : Row π) : Delivered π :=
  match startDelivery p job.now row job.endpoint with
  | .ended row' => ⟨row', job.endpoint, none, some ⟨false, 0⟩⟩
  | .thrown row' => ⟨row', job.endpoint, none, none⟩
  | .sending f =>
    let finished := finishDelivery p job.toCircumstances f
    ⟨finished.row, some finished.endpoint, some (f.request, job.answer), finished.result⟩

-- A job that throws an exception is not tried again.
def handle (job : Job) (row : Row π) : Handled π :=
  let out := deliver p job row
  let delay :=
    match out.result with
    | some ⟨true, delaySeconds⟩ => some (max 1 delaySeconds)
    | _ => none
  ⟨out.row, out.request, delay⟩

def Chain.start (row : Row π) : Chain π :=
  ⟨row, true, [], []⟩

def Chain.next (c : Chain π) (job : Job) : Chain π :=
  if c.scheduled then
    let handled := handle p job c.row
    ⟨handled.row, handled.delay.isSome, c.requests ++ handled.request.toList,
      c.delays ++ handled.delay.toList⟩
  else
    c

def chain (row : Row π) (jobs : Nat → Job) : Nat → Chain π
  | 0 => .start row
  | n + 1 => (chain row jobs n).next p (jobs n)

def runJobs (row : Row π) (jobs : List Job) : Row π :=
  jobs.foldl (fun row job => (handle p job row).row) row

structure Ended (row : Row π) (c : Chain π) : Prop where
  stopped : c.scheduled = false
  requests : c.requests.length ≤ max 1 row.maxAttempts
  delays : ∀ d ∈ c.delays, 1 ≤ d ∧ d ≤ 300
  status : c.row.status = .sent ∨ c.row.status = .deadLetter
  sent : c.row.status = .sent ↔ ∃ r ∈ c.requests, r.2.Successful
  later : ∀ jobs, (runJobs p c.row jobs).status = c.row.status

def Ends (row : Row π) (jobs : Nat → Job) : Prop :=
  ∃ n, Ended p row (chain p row jobs n)

end Jobs

def Answer.IsStorable : Answer → Prop
  | response r => IsText (r.body.take 4000)
  | exception message => IsText message

instance {a : Answer} : Decidable a.IsStorable :=
  match a with
  | .response _ => inferInstanceAs (Decidable (IsText _))
  | .exception _ => inferInstanceAs (Decidable (IsText _))

-- The delay after the attempt would lie before the beginning of time.
def Overflows (attempt maxAttempts : Nat) (policy : RetryPolicy) : Prop :=
  policy = .exponential ∧ attempt = 64 ∧ 64 < maxAttempts

instance {attempt maxAttempts : Nat} {policy : RetryPolicy} :
    Decidable (Overflows attempt maxAttempts policy) :=
  inferInstanceAs (Decidable (_ ∧ _))

section Condition

variable {π : Type} (p : Platform π) (row : Row π) (jobs : Nat → Job)

-- The job makes a request whose failure is followed by another one.
structure Repeats (attempt : Nat) (job : Job) (e : Endpoint) : Prop where
  endpoint : job.endpoint = some e
  unpaused : e.status ≠ .paused
  encoded : (p.encode row.toDelivery).isSome
  failed : ¬ job.answer.Successful
  unfinished : ¬ IsTerminal attempt row.maxAttempts e.retryPolicy

structure Recordable (attempt : Nat) (job : Job) (e : Endpoint) : Prop where
  counted : attempt < 2 ^ 16
  secret : (p.encode row.toDelivery).isSome → e.signingSecretEncrypted.isSome
  answer : (p.encode row.toDelivery).isSome → job.answer.IsStorable
  delay : (p.encode row.toDelivery).isSome → ¬ job.answer.Successful →
    ¬ Overflows attempt row.maxAttempts e.retryPolicy

structure AllRecordable : Prop where
  unsent : row.status ≠ .sent
  jobs : row.status ≠ .deadLetter →
    ∀ n, (∀ k < n, ∃ e, Repeats p row (row.attempt + k + 1) (jobs k) e) →
      ∀ e, (jobs n).endpoint = some e → e.status ≠ .paused →
        Recordable p row (row.attempt + n + 1) (jobs n) e

end Condition

section Delays

variable {n attempt maxAttempts : Nat} {random : Fin 4} {policy : RetryPolicy} {now : Int}

theorem intPow_of_lt (h : n < 63) : intPow n = 2 ^ n := by
  have hp : (0 : Int) < 2 ^ n := by positivity
  have hl : (2 : Int) ^ n < 2 ^ 63 := pow_lt_pow_right₀ (by decide) h
  exact Int.bmod_eq_of_le (by omega) (by omega)

theorem intPow_of_le (h : 64 ≤ n) : intPow n = 0 :=
  Int.bmod_eq_zero_of_dvd <| by
    exact_mod_cast pow_dvd_pow (2 : Int) h

-- Only the sixty-fourth attempt has a negative delay.
theorem nextDelaySeconds_mem (h : ¬ (policy = .exponential ∧ attempt = 64)) :
    0 ≤ nextDelaySeconds random attempt policy ∧ nextDelaySeconds random attempt policy ≤ 300 := by
  cases policy
  case linear | none => simp [nextDelaySeconds]
  case exponential =>
    have hn : 0 ≤ intPow (attempt - 1) := by
      have ha : attempt - 1 ≠ 63 := fun ha => h ⟨rfl, by omega⟩
      by_cases hl : attempt - 1 < 63
      case pos =>
        rw [intPow_of_lt hl]
        positivity
      case neg => rw [intPow_of_le (by omega)]
    refine ⟨le_min (by decide) ?_, min_le_left ..⟩
    omega

theorem isTimestamp_add_nextDelaySeconds (h₁ : 0 < now) (h₂ : now + 300 < 2 ^ 31) :
    IsTimestamp (now + nextDelaySeconds random attempt policy) ↔
      ¬ (policy = .exponential ∧ attempt = 64) := by
  constructor
  case mp =>
    rintro ⟨hp, _⟩ ⟨rfl, rfl⟩
    have hd : nextDelaySeconds random 64 .exponential ≤ intPow 63 + random := min_le_right ..
    have hi : intPow 63 = - 2 ^ 63 := by decide
    omega
  case mpr =>
    intro h
    have hd : 0 ≤ nextDelaySeconds random attempt policy ∧ _ := nextDelaySeconds_mem h
    exact ⟨by omega, by omega⟩

theorem overflows_iff (h : ¬ IsTerminal attempt maxAttempts policy) :
    Overflows attempt maxAttempts policy ↔ policy = .exponential ∧ attempt = 64 := by
  simp only [IsTerminal, not_or, not_le] at h
  refine ⟨fun ho => ⟨ho.1, ho.2.1⟩, fun ho => ⟨ho.1, ho.2, ?_⟩⟩
  have hm := h.2
  omega

theorem not_overflows (h : IsTerminal attempt maxAttempts policy) :
    ¬ Overflows attempt maxAttempts policy := by
  rintro ⟨rfl, rfl, hm⟩
  simp only [IsTerminal, reduceCtorEq, false_or] at h
  omega

end Delays

theorem isText_utf8 {cs : List Char} (h : (utf8 cs).length < 2 ^ 16) : IsText (utf8 cs) :=
  ⟨h, by rw [decodeUtf8_utf8, Option.isSome_some]⟩

theorem length_utf8_le (cs : List Char) : (utf8 cs).length ≤ 4 * cs.length := by
  induction cs
  case nil => simp
  case cons c cs hi =>
    have hc := c.utf8Size_le_four
    rw [utf8_cons, List.length_append, String.length_utf8EncodeChar, List.length_cons]
    omega

theorem isText_http {n : Nat} (h : n < 600) : IsText (utf8 ("http_" ++ toString n).toList) := by
  have hl := length_utf8_le ("http_" ++ toString n).toList
  have hn := Nat.repr_length n 3 (by omega) (by omega)
  have ht : ("http_" ++ toString n).toList.length = 5 + (Nat.repr n).length := by
    rw [String.toList_append, List.length_append]
    rfl
  exact isText_utf8 (by omega)

section Records

variable {π : Type} {p : Platform π} {d : Delivery π} {row : Row π}

theorem save_of_storable (h : d.Storable) : save p d = .ok ⟨d, h⟩ :=
  dif_pos h

theorem save_of_not_storable (h : ¬ d.Storable) : save p d = .error (p.queryMessage d, d) :=
  dif_neg h

theorem giveUp_eq_ended (row : Row π) {error : String} (h : (utf8 error.toList).length < 2 ^ 16) :
    ∃ row', giveUp p row error = .ended row' ∧ row'.status = .deadLetter := by
  have hs := row.storable
  have ht : ∀ bs ∈ some (utf8 error.toList), IsText bs := by
    rintro bs ⟨⟩
    exact isText_utf8 h
  have hc : Delivery.Storable
      { row.toDelivery with
        status := .deadLetter
        lastError := some (utf8 error.toList)
        nextAttemptAt := none } :=
    { hs with lastError := ht, nextAttemptAt := by simp }
  refine ⟨⟨_, hc⟩, ?_, rfl⟩
  simp only [giveUp, save_of_storable hc]

structure Kept (row : Row π) (d : Delivery π) : Prop where
  attempt : d.attempt = row.attempt
  maxAttempts : d.maxAttempts = row.maxAttempts
  payloadJson : d.payloadJson = row.payloadJson
  sentAt : d.sentAt = row.sentAt
  deliveredAt : ∀ t ∈ d.deliveredAt, IsTimestamp t

theorem Kept.refl : Kept row row.toDelivery :=
  ⟨rfl, rfl, rfl, rfl, row.storable.deliveredAt⟩

variable {now : Int} {latencyMs : Nat} {random : Fin 4} {e : Endpoint} {error : List UInt8}
variable {statusCode : Option Nat} {responseBody : Option (List UInt8)}
variable {status : DeliveryStatus} {policy : RetryPolicy} {next : Option Int}

theorem kept_failed (h : Kept row d) :
    Kept row (failed latencyMs d error statusCode responseBody status next) :=
  ⟨h.attempt, h.maxAttempts, h.payloadJson, h.sentAt, h.deliveredAt⟩

theorem storable_failed_iff (h : Kept row d)
    (hl : latencyMs < 2 ^ 32) (hc : ∀ n ∈ statusCode, n < 2 ^ 16) :
    (failed latencyMs d error statusCode responseBody status next).Storable ↔
      IsText error ∧ (∀ bs ∈ responseBody, IsText bs) ∧ ∀ t ∈ next, IsTimestamp t := by
  constructor
  case mp => exact fun hs => ⟨hs.lastError _ rfl, hs.responseBody, hs.nextAttemptAt⟩
  case mpr =>
    rintro ⟨he, hb, hn⟩
    have hs := row.storable
    exact {
      attempt := h.attempt ▸ hs.attempt
      maxAttempts := h.maxAttempts ▸ hs.maxAttempts
      nextAttemptAt := hn
      httpStatus := hc
      latencyMs := by rintro n ⟨⟩; exact hl
      responseBody := hb
      lastError := by rintro bs ⟨⟩; exact he
      sentAt := h.sentAt ▸ hs.sentAt
      deliveredAt := h.deliveredAt
    }

structure Failure where
  status : DeliveryStatus
  nextAttemptAt : Option Int
  result : Result

def failure (now : Int) (random : Fin 4) (d : Delivery π) (policy : RetryPolicy) : Failure :=
  let delaySeconds := nextDelaySeconds random d.attempt policy
  if IsTerminal d.attempt d.maxAttempts policy then ⟨.deadLetter, none, ⟨false, 0⟩⟩
  else ⟨.retrying, some (now + delaySeconds), ⟨true, delaySeconds⟩⟩

def recorded (now : Int) (latencyMs : Nat) (random : Fin 4) (d : Delivery π) (policy : RetryPolicy)
    (error : List UInt8) (statusCode : Option Nat) (responseBody : Option (List UInt8)) :
    Delivery π :=
  let f := failure now random d policy
  failed latencyMs d error statusCode responseBody f.status f.nextAttemptAt

theorem markFailedAttempt_eq :
    markFailedAttempt p now latencyMs random d e error statusCode responseBody =
      (save p (recorded now latencyMs random d e.retryPolicy error statusCode responseBody)).map
        (⟨·, e.withStatus .failing, some (failure now random d e.retryPolicy).result⟩) := by
  rw [markFailedAttempt, recorded, failure]
  split <;> rfl

theorem failure_congr (h : Kept row d) :
    failure now random d policy = failure now random row.toDelivery policy := by
  rw [failure, failure, h.attempt, h.maxAttempts]

theorem isTimestamp_failure_iff (h₁ : 0 < now) (h₂ : now + 300 < 2 ^ 31) :
    (∀ t ∈ (failure now random d policy).nextAttemptAt, IsTimestamp t) ↔
      ¬ Overflows d.attempt d.maxAttempts policy := by
  rw [failure]
  split
  case isTrue ht => simpa using not_overflows ht
  case isFalse ht =>
    rw [overflows_iff ht]
    simpa using isTimestamp_add_nextDelaySeconds h₁ h₂

structure CanRecord (row : Row π) (policy : RetryPolicy) (error : List UInt8)
    (responseBody : Option (List UInt8)) : Prop where
  error : IsText error
  responseBody : ∀ bs ∈ responseBody, IsText bs
  delay : ¬ Overflows row.attempt row.maxAttempts policy

theorem storable_recorded_iff (c : Circumstances) (random : Fin 4) (h : Kept row d)
    (hc : ∀ n ∈ statusCode, n < 2 ^ 16) :
    (recorded c.now c.latencyMs random d e.retryPolicy error statusCode responseBody).Storable ↔
      CanRecord row e.retryPolicy error responseBody := by
  rw [recorded, storable_failed_iff h c.latency_lt hc,
    isTimestamp_failure_iff c.now_pos c.now_lt, h.attempt, h.maxAttempts]
  exact ⟨fun ⟨he, hb, hd⟩ => ⟨he, hb, hd⟩, fun ⟨he, hb, hd⟩ => ⟨he, hb, hd⟩⟩

theorem markFailedAttempt_eq_ok (c : Circumstances) (random : Fin 4) (h : Kept row d)
    (hc : ∀ n ∈ statusCode, n < 2 ^ 16) (hr : CanRecord row e.retryPolicy error responseBody) :
    let f := failure c.now random row.toDelivery e.retryPolicy
    ∃ row', Kept row row'.toDelivery ∧ row'.status = f.status ∧
      markFailedAttempt p c.now c.latencyMs random d e error statusCode responseBody =
        .ok ⟨row', e.withStatus .failing, some f.result⟩ := by
  have hs := storable_recorded_iff c random h hc |>.mpr hr
  refine ⟨⟨_, hs⟩, kept_failed h, congrArg Failure.status (failure_congr h), ?_⟩
  rw [markFailedAttempt_eq, save_of_storable hs, failure_congr h]
  rfl

theorem markFailedAttempt_eq_error (c : Circumstances) (random : Fin 4) (h : Kept row d)
    (hc : ∀ n ∈ statusCode, n < 2 ^ 16) (hr : ¬ CanRecord row e.retryPolicy error responseBody) :
    ∃ d', Kept row d' ∧ d'.responseBody = responseBody ∧
      markFailedAttempt p c.now c.latencyMs random d e error statusCode responseBody =
        .error (p.queryMessage d', d') := by
  have hs := (storable_recorded_iff c random h hc).not.mpr hr
  have hk : Kept row (recorded c.now c.latencyMs random d e.retryPolicy error statusCode
      responseBody) :=
    kept_failed h
  refine ⟨_, hk, rfl, ?_⟩
  rw [markFailedAttempt_eq, save_of_not_storable hs]
  rfl

end Records

section Finish

variable {π : Type} {p : Platform π} {c : Circumstances} {f : Flight π}

theorem isText_of_mem_some {bs : List UInt8} (h : IsText bs) : ∀ bs' ∈ some bs, IsText bs' := by
  rintro _ ⟨⟩
  exact h

theorem storable_delivered_iff {r : Response} :
    (delivered c.now c.latencyMs f.row.toDelivery r).Storable ↔ IsText (r.body.take 4000) := by
  constructor
  case mp => exact fun hs => hs.responseBody _ rfl
  case mpr =>
    intro ht
    have hr := r.status_lt
    have hn : IsTimestamp c.now := ⟨c.now_pos, by have := c.now_lt; omega⟩
    exact {
      f.row.storable with
      nextAttemptAt := by simp [delivered]
      httpStatus := by rintro n ⟨⟩; omega
      latencyMs := by rintro n ⟨⟩; exact c.latency_lt
      responseBody := isText_of_mem_some ht
      lastError := by simp [delivered]
      deliveredAt := by rintro t ⟨⟩; exact hn
    }

theorem kept_delivered {r : Response} :
    Kept f.row (delivered c.now c.latencyMs f.row.toDelivery r) := by
  have hn : IsTimestamp c.now := ⟨c.now_pos, by have := c.now_lt; omega⟩
  exact ⟨rfl, rfl, rfl, rfl, by rintro t ⟨⟩; exact hn⟩

theorem finishDelivery_of_successful (hs : c.answer.Successful) (ht : c.answer.IsStorable) :
    ∃ row', Kept f.row row'.toDelivery ∧ row'.status = .sent ∧
      finishDelivery p c f =
        ⟨row', f.endpoint.withStatus
          (if f.endpoint.status = .failing then .active else f.endpoint.status),
          some ⟨false, 0⟩⟩ := by
  cases ha : c.answer
  case exception =>
    rw [ha] at hs
    cases hs
  case response r =>
    rw [ha] at hs ht
    have hd := storable_delivered_iff (c := c) (f := f) |>.mpr ht
    refine ⟨⟨_, hd⟩, kept_delivered, rfl, ?_⟩
    have hr : r.Successful := hs
    simp only [finishDelivery, record, ha, if_pos hr, save_of_storable hd]
    rfl

theorem finishDelivery_of_error {message : List UInt8} {d : Delivery π}
    (h : record p c f = .error (message, d)) :
    finishDelivery p c f =
      match markFailedAttempt p c.now c.latencyMs c.random' d f.endpoint message none none with
      | .ok finished => finished
      | .error _ => ⟨f.row, f.endpoint, none⟩ := by
  simp only [finishDelivery, h]

theorem finishDelivery_of_failed (hs : ¬ c.answer.Successful) (ht : c.answer.IsStorable)
    (ho : ¬ Overflows f.row.attempt f.row.maxAttempts f.endpoint.retryPolicy) :
    ∃ row' random, Kept f.row row'.toDelivery ∧
      let failure := failure c.now random f.row.toDelivery f.endpoint.retryPolicy
      row'.status = failure.status ∧
        finishDelivery p c f = ⟨row', f.endpoint.withStatus .failing, some failure.result⟩ := by
  cases ha : c.answer
  case exception message =>
    rw [ha] at ht
    have hr : CanRecord f.row f.endpoint.retryPolicy message none := ⟨ht, by simp, ho⟩
    have he : record p c f = .error (message, f.row.toDelivery) := by simp only [record, ha]
    have hc : ∀ n ∈ (none : Option Nat), n < 2 ^ 16 := by simp
    obtain ⟨row', hk, hst, hm⟩ := markFailedAttempt_eq_ok (p := p) c c.random' .refl hc hr
    refine ⟨row', c.random', hk, hst, ?_⟩
    rw [finishDelivery_of_error he, hm]
  case response r =>
    rw [ha] at hs ht
    have hr : CanRecord f.row f.endpoint.retryPolicy (utf8 ("http_" ++ toString r.status).toList)
        (some (r.body.take 4000)) :=
      ⟨isText_http r.status_lt, isText_of_mem_some ht, ho⟩
    have hc : ∀ n ∈ some r.status, n < 2 ^ 16 := by
      have := r.status_lt
      rintro n ⟨⟩
      omega
    obtain ⟨row', hk, hst, hm⟩ := markFailedAttempt_eq_ok (p := p) c c.random .refl hc hr
    refine ⟨row', c.random, hk, hst, ?_⟩
    have hr : ¬ r.Successful := hs
    simp only [finishDelivery, record, ha, if_neg hr, hm]

theorem record_eq_error_of_refused
    (h : ¬ c.answer.IsStorable ∨
      ¬ c.answer.Successful ∧ Overflows f.row.attempt f.row.maxAttempts f.endpoint.retryPolicy) :
    ∃ message d, Kept f.row d ∧ record p c f = .error (message, d) ∧
      ¬ CanRecord f.row f.endpoint.retryPolicy message none := by
  cases ha : c.answer
  case exception message =>
    rw [ha] at h
    refine ⟨message, f.row.toDelivery, .refl, by simp only [record, ha], fun hr => ?_⟩
    obtain h | h := h
    case inl => exact h hr.error
    case inr => exact hr.delay h.2
  case response r =>
    rw [ha] at h
    -- A response that is no text makes the message of the exception one that is no text.
    have hq : ∀ d' : Delivery π, d'.responseBody = some (r.body.take 4000) →
        ¬ CanRecord f.row f.endpoint.retryPolicy (p.queryMessage d') none := by
      intro d' hd hr
      obtain h | h := h
      case inl => exact p.quotes hd h hr.error
      case inr => exact hr.delay h.2
    by_cases hs : r.Successful
    case pos =>
      have ht : ¬ IsText (r.body.take 4000) := h.resolve_right fun h => h.1 hs
      have hd := (storable_delivered_iff (c := c) (f := f)).not.mpr ht
      have he : record p c f =
          .error (p.queryMessage (delivered c.now c.latencyMs f.row.toDelivery r),
            delivered c.now c.latencyMs f.row.toDelivery r) := by
        simp only [record, ha, if_pos hs, save_of_not_storable hd]
        rfl
      exact ⟨_, _, kept_delivered, he, hq _ rfl⟩
    case neg =>
      have hr : ¬ CanRecord f.row f.endpoint.retryPolicy
          (utf8 ("http_" ++ toString r.status).toList) (some (r.body.take 4000)) := by
        intro hr
        obtain h | h := h
        case inl => exact h (hr.responseBody _ rfl)
        case inr => exact hr.delay h.2
      have hc : ∀ n ∈ some r.status, n < 2 ^ 16 := by
        have := r.status_lt
        rintro n ⟨⟩
        omega
      obtain ⟨d', hk, hd, hm⟩ := markFailedAttempt_eq_error (p := p) c c.random .refl hc hr
      refine ⟨_, d', hk, ?_, hq d' hd⟩
      simp only [record, ha, if_neg hs, hm]

theorem finishDelivery_of_refused
    (h : ¬ c.answer.IsStorable ∨
      ¬ c.answer.Successful ∧ Overflows f.row.attempt f.row.maxAttempts f.endpoint.retryPolicy) :
    finishDelivery p c f = ⟨f.row, f.endpoint, none⟩ := by
  obtain ⟨message, d, hk, he, hr⟩ := record_eq_error_of_refused (p := p) h
  have hc : ∀ n ∈ (none : Option Nat), n < 2 ^ 16 := by simp
  obtain ⟨d', _, _, hm⟩ := markFailedAttempt_eq_error (p := p) c c.random' hk hc hr
  rw [finishDelivery_of_error he, hm]

end Finish

structure Follows {π : Type} (row row' : Row π) (n : Nat) : Prop where
  attempt : row'.attempt = row.attempt + n
  maxAttempts : row'.maxAttempts = row.maxAttempts
  payloadJson : row'.payloadJson = row.payloadJson

def IsOpen {π : Type} (row : Row π) : Prop :=
  ¬ (row.status = .sent ∨ row.status = .deadLetter)

section Handle

variable {π : Type} {p : Platform π} {job : Job} {row row' row'' : Row π} {e : Endpoint} {m n : Nat}

theorem Follows.trans (h : Follows row row' m) (h' : Follows row' row'' n) :
    Follows row row'' (m + n) :=
  ⟨by rw [h'.attempt, h.attempt, Nat.add_assoc], h'.maxAttempts.trans h.maxAttempts,
    h'.payloadJson.trans h.payloadJson⟩

theorem Follows.kept (h : Follows row row' n) (hk : Kept row' row''.toDelivery) :
    Follows row row'' n :=
  ⟨hk.attempt.trans h.attempt, hk.maxAttempts.trans h.maxAttempts,
    hk.payloadJson.trans h.payloadJson⟩

theorem Follows.encode (h : Follows row row' n) :
    p.encode row'.toDelivery = p.encode row.toDelivery := by
  rw [Platform.encode, Platform.encode, h.payloadJson]

theorem handle_of_final (h : row.status = .sent ∨ row.status = .deadLetter) :
    handle p job row = ⟨row, none, none⟩ := by
  simp only [handle, deliver, startDelivery, if_pos h]

theorem handle_of_unavailable (ho : IsOpen row)
    (h : ∀ e, job.endpoint = some e → e.status = .paused) :
    ∃ row', row'.status = .deadLetter ∧ handle p job row = ⟨row', none, none⟩ := by
  cases he : job.endpoint
  case none =>
    have hl : (utf8 "endpoint_not_found".toList).length < 2 ^ 16 := by decide
    obtain ⟨row', hg, hs⟩ := giveUp_eq_ended (p := p) row hl
    refine ⟨row', hs, ?_⟩
    simp only [handle, deliver, startDelivery, if_neg ho, he, hg]
  case some e =>
    have hl : (utf8 "endpoint_paused".toList).length < 2 ^ 16 := by decide
    obtain ⟨row', hg, hs⟩ := giveUp_eq_ended (p := p) row hl
    refine ⟨row', hs, ?_⟩
    simp only [handle, deliver, startDelivery, if_neg ho, he, if_pos (h e he), hg]

theorem storable_attempted_iff {c : Circumstances} :
    (attempted c.now row.toDelivery).Storable ↔ row.attempt + 1 < 2 ^ 16 := by
  constructor
  case mp => exact fun h => h.attempt
  case mpr =>
    intro h
    have hn : IsTimestamp c.now := ⟨c.now_pos, by have := c.now_lt; omega⟩
    exact { row.storable with attempt := h, sentAt := by rintro t ⟨⟩; exact hn }

theorem startDelivery_eq (ho : IsOpen row) (he : job.endpoint = some e) (hu : e.status ≠ .paused)
    (hc : row.attempt + 1 < 2 ^ 16) :
    ∃ row', Follows row row' 1 ∧ row'.status = .retrying ∧
      startDelivery p job.now row job.endpoint =
        match p.encode row.toDelivery with
        | none => giveUp p row' "payload_encoding_failed"
        | some rawBody =>
          match e.signingSecretEncrypted with
          | none => .thrown row'
          | some secret =>
            .sending ⟨row', e, request p job.now row'.toDelivery e rawBody secret⟩ := by
  have hs := storable_attempted_iff (c := job.toCircumstances) |>.mpr hc
  refine ⟨⟨_, hs⟩, ⟨rfl, rfl, rfl⟩, rfl, ?_⟩
  simp only [startDelivery, if_neg ho, he, if_neg hu, save_of_storable hs]
  rfl

theorem handle_of_unencoded (ho : IsOpen row) (he : job.endpoint = some e)
    (hu : e.status ≠ .paused) (hc : row.attempt + 1 < 2 ^ 16)
    (hp : p.encode row.toDelivery = none) :
    ∃ row', row'.status = .deadLetter ∧ handle p job row = ⟨row', none, none⟩ := by
  obtain ⟨row₁, _, _, hd⟩ := startDelivery_eq (p := p) ho he hu hc
  have hl : (utf8 "payload_encoding_failed".toList).length < 2 ^ 16 := by decide
  obtain ⟨row', hg, hs⟩ := giveUp_eq_ended (p := p) row₁ hl
  refine ⟨row', hs, ?_⟩
  simp only [hp, hg] at hd
  simp only [handle, deliver, hd]

theorem startDelivery_eq_sending (ho : IsOpen row) (he : job.endpoint = some e)
    (hu : e.status ≠ .paused) (hr : Recordable p row (row.attempt + 1) job e)
    (hp : (p.encode row.toDelivery).isSome) :
    ∃ f : Flight π, f.endpoint = e ∧ Follows row f.row 1 ∧ f.row.status = .retrying ∧
      startDelivery p job.now row job.endpoint = .sending f := by
  obtain ⟨row', hf, hst, hd⟩ := startDelivery_eq (p := p) ho he hu hr.counted
  obtain ⟨rawBody, hb⟩ := Option.isSome_iff_exists.mp hp
  obtain ⟨secret, hs⟩ := Option.isSome_iff_exists.mp (hr.secret hp)
  simp only [hb, hs] at hd
  exact ⟨_, rfl, hf, hst, hd⟩

-- Another job is scheduled only after a failed attempt that is not the last one.
theorem handle_of_repeats (ho : IsOpen row) (hr : Recordable p row (row.attempt + 1) job e)
    (h : Repeats p row (row.attempt + 1) job e) :
    ∃ row' request delay, IsOpen row' ∧ Follows row row' 1 ∧ 1 ≤ delay ∧ delay ≤ 300 ∧
      handle p job row = ⟨row', some (request, job.answer), some delay⟩ := by
  obtain ⟨f, rfl, hf, _, hd⟩ := startDelivery_eq_sending ho h.endpoint h.unpaused hr h.encoded
  have hov := hr.delay h.encoded h.failed
  have ht := h.unfinished
  rw [← hf.attempt, ← hf.maxAttempts] at hov ht
  obtain ⟨row', random, hk, hst, hfin⟩ :=
    finishDelivery_of_failed (p := p) h.failed (hr.answer h.encoded) hov
  simp only [failure, if_neg ht] at hst hfin
  have hb : 0 ≤ nextDelaySeconds random f.row.attempt f.endpoint.retryPolicy ∧ _ :=
    nextDelaySeconds_mem fun hx => hov (overflows_iff ht |>.mpr hx)
  refine ⟨row', f.request, max 1 (nextDelaySeconds random f.row.attempt f.endpoint.retryPolicy),
    by simp [IsOpen, hst], hf.kept hk, le_max_left .., max_le (by decide) hb.2, ?_⟩
  simp only [handle, deliver, hd, hfin]

theorem handle_of_last (ho : IsOpen row)
    (hr : ∀ e, job.endpoint = some e → e.status ≠ .paused →
      Recordable p row (row.attempt + 1) job e)
    (h : ∀ e, ¬ Repeats p row (row.attempt + 1) job e) :
    ∃ row' request, (row'.status = .sent ∨ row'.status = .deadLetter) ∧
      (row'.status = .sent ↔ ∃ r ∈ request, r.2.Successful) ∧
      handle p job row = ⟨row', request, none⟩ := by
  by_cases hav : ∃ e, job.endpoint = some e ∧ e.status ≠ .paused
  case neg =>
    have hn : ∀ e, job.endpoint = some e → e.status = .paused := fun e he =>
      not_not.mp fun hu => hav ⟨e, he, hu⟩
    obtain ⟨row', hs, hh⟩ := handle_of_unavailable (p := p) ho hn
    exact ⟨row', none, .inr hs, by simp [hs], hh⟩
  case pos =>
    obtain ⟨e, he, hu⟩ := hav
    have hr := hr e he hu
    cases hp : p.encode row.toDelivery
    case none =>
      obtain ⟨row', hs, hh⟩ := handle_of_unencoded ho he hu hr.counted hp
      exact ⟨row', none, .inr hs, by simp [hs], hh⟩
    case some rawBody =>
      have hp : (p.encode row.toDelivery).isSome := hp ▸ rfl
      obtain ⟨f, rfl, hf, _, hd⟩ := startDelivery_eq_sending ho he hu hr hp
      by_cases hs : job.answer.Successful
      case pos =>
        obtain ⟨row', _, hst, hfin⟩ := finishDelivery_of_successful (p := p) (f := f) hs
          (hr.answer hp)
        refine ⟨row', some (f.request, job.answer), .inl hst, by simp [hst, hs], ?_⟩
        simp only [handle, deliver, hd, hfin]
      case neg =>
        have hov := hr.delay hp hs
        have ht := not_not.mp fun ht => h f.endpoint ⟨he, hu, hp, hs, ht⟩
        rw [← hf.attempt, ← hf.maxAttempts] at hov ht
        obtain ⟨row', random, _, hst, hfin⟩ :=
          finishDelivery_of_failed (p := p) hs (hr.answer hp) hov
        simp only [failure, if_pos ht] at hst hfin
        refine ⟨row', some (f.request, job.answer), .inr hst, by simp [hst, hs], ?_⟩
        simp only [handle, deliver, hd, hfin]

-- What cannot be recorded ends the chain, and nothing is known of the delivery.
theorem handle_of_not_recordable (ho : IsOpen row) (he : job.endpoint = some e)
    (hu : e.status ≠ .paused) (h : ¬ Recordable p row (row.attempt + 1) job e) :
    ∃ row' request, IsOpen row' ∧ handle p job row = ⟨row', request, none⟩ := by
  by_cases hc : row.attempt + 1 < 2 ^ 16
  case neg =>
    have hs := (storable_attempted_iff (c := job.toCircumstances)).not.mpr hc
    refine ⟨row, none, ho, ?_⟩
    simp only [handle, deliver, startDelivery, if_neg ho, he, if_neg hu, save_of_not_storable hs]
  case pos =>
    have hp : (p.encode row.toDelivery).isSome := by
      by_contra hp
      exact h ⟨hc, fun hx => absurd hx hp, fun hx => absurd hx hp, fun hx => absurd hx hp⟩
    obtain ⟨rawBody, hb⟩ := Option.isSome_iff_exists.mp hp
    obtain ⟨row', hf, hst, hd⟩ := startDelivery_eq (p := p) ho he hu hc
    have ho' : IsOpen row' := by simp [IsOpen, hst]
    cases hs : e.signingSecretEncrypted
    case none =>
      simp only [hb, hs] at hd
      refine ⟨row', none, ho', ?_⟩
      simp only [handle, deliver, hd]
    case some secret =>
      simp only [hb, hs] at hd
      have hx : ¬ job.answer.IsStorable ∨
          ¬ job.answer.Successful ∧ Overflows row'.attempt row'.maxAttempts e.retryPolicy := by
        by_contra hx
        simp only [not_or, not_not, not_and] at hx
        rw [hf.attempt, hf.maxAttempts] at hx
        exact h ⟨hc, fun _ => hs ▸ rfl, fun _ => hx.1, fun _ => hx.2⟩
      have hfin := finishDelivery_of_refused (p := p)
        (f := ⟨row', e, request p job.now row'.toDelivery e rawBody secret⟩) hx
      refine ⟨row', some (request p job.now row'.toDelivery e rawBody secret, job.answer), ho', ?_⟩
      simp only [handle, deliver, hd, hfin]

end Handle

structure InProgress {π : Type} (row : Row π) (n : Nat) (c : Chain π) : Prop where
  scheduled : c.scheduled = true
  unsettled : IsOpen c.row
  follows : Follows row c.row n
  requests : c.requests.length = n
  failed : ∀ r ∈ c.requests, ¬ r.2.Successful
  delays : ∀ d ∈ c.delays, 1 ≤ d ∧ d ≤ 300

section Chains

variable {π : Type} {p : Platform π} {row row' : Row π} {job : Job} {jobs : Nat → Job} {m n : Nat}
variable {c : Chain π} {e : Endpoint}

theorem Chain.next_of_scheduled (h : c.scheduled = true) :
    c.next p job =
      let handled := handle p job c.row
      ⟨handled.row, handled.delay.isSome, c.requests ++ handled.request.toList,
        c.delays ++ handled.delay.toList⟩ :=
  if_pos h

theorem Chain.next_of_stopped (h : c.scheduled = false) : c.next p job = c := by
  simp [Chain.next, h]

theorem chain_of_le (h : (chain p row jobs m).scheduled = false) (hn : m ≤ n) :
    chain p row jobs n = chain p row jobs m := by
  induction n, hn using Nat.le_induction
  case base => rfl
  case succ n _ hi => rw [chain, hi, Chain.next_of_stopped h]

theorem runJobs_of_final {later : List Job} (h : row.status = .sent ∨ row.status = .deadLetter) :
    runJobs p row later = row := by
  induction later
  case nil => rfl
  case cons job later hi =>
    rw [runJobs, List.foldl_cons, handle_of_final h]
    exact hi

-- The conditions on the row are conditions on the row that the chain began with.
theorem Recordable.congr (hp : p.encode row'.toDelivery = p.encode row.toDelivery)
    (hm : row'.maxAttempts = row.maxAttempts) (h : Recordable p row n job e) :
    Recordable p row' n job e := by
  refine ⟨h.counted, ?_, ?_, ?_⟩ <;> rw [hp]
  · exact h.secret
  · exact h.answer
  · rw [hm]
    exact h.delay

theorem Follows.recordable_iff (h : Follows row row' n) :
    Recordable p row' (row'.attempt + 1) job e ↔ Recordable p row (row.attempt + n + 1) job e := by
  rw [h.attempt]
  exact ⟨.congr h.encode.symm h.maxAttempts.symm, .congr h.encode h.maxAttempts⟩

theorem Repeats.congr (hp : p.encode row'.toDelivery = p.encode row.toDelivery)
    (hm : row'.maxAttempts = row.maxAttempts) (h : Repeats p row n job e) :
    Repeats p row' n job e :=
  ⟨h.endpoint, h.unpaused, hp ▸ h.encoded, h.failed, hm ▸ h.unfinished⟩

theorem Follows.repeats_iff (h : Follows row row' n) :
    Repeats p row' (row'.attempt + 1) job e ↔ Repeats p row (row.attempt + n + 1) job e := by
  rw [h.attempt]
  exact ⟨.congr h.encode.symm h.maxAttempts.symm, .congr h.encode h.maxAttempts⟩

theorem InProgress.start (h : IsOpen row) : InProgress row 0 (.start row) :=
  ⟨rfl, h, ⟨rfl, rfl, rfl⟩, rfl, by simp [Chain.start], by simp [Chain.start]⟩

theorem InProgress.next (h : InProgress row n c)
    (hr : Recordable p row (row.attempt + n + 1) job e)
    (hf : Repeats p row (row.attempt + n + 1) job e) : InProgress row (n + 1) (c.next p job) := by
  obtain ⟨row', request, delay, ho, hfo, hd₁, hd₂, hh⟩ := handle_of_repeats h.unsettled
    (h.follows.recordable_iff.mpr hr) (h.follows.repeats_iff.mpr hf)
  rw [Chain.next_of_scheduled h.scheduled, hh]
  refine ⟨rfl, ho, h.follows.trans hfo, by simp [h.requests], ?_, ?_⟩
  · intro r hm
    obtain hm | rfl := by simpa using hm
    case inl => exact h.failed r hm
    case inr => exact hf.failed
  · intro d hm
    obtain hm | rfl := by simpa using hm
    case inl => exact h.delays d hm
    case inr => exact ⟨hd₁, hd₂⟩

theorem inProgress_chain (ho : IsOpen row)
    (h : ∀ k < n, ∃ e, Recordable p row (row.attempt + k + 1) (jobs k) e ∧
      Repeats p row (row.attempt + k + 1) (jobs k) e) : InProgress row n (chain p row jobs n) := by
  induction n
  case zero => exact .start ho
  case succ n hi =>
    obtain ⟨e, hr, hf⟩ := h n (Nat.lt_succ_self n)
    exact (hi fun k hk => h k (Nat.lt_succ_of_lt hk)).next hr hf

theorem exists_last (p : Platform π) (row : Row π) (jobs : Nat → Job) :
    ∃ n, (∀ k < n, ∃ e, Repeats p row (row.attempt + k + 1) (jobs k) e) ∧
      ∀ e, ¬ Repeats p row (row.attempt + n + 1) (jobs n) e := by
  by_contra hx
  have ha : ∀ n, ∃ e, Repeats p row (row.attempt + n + 1) (jobs n) e := by
    intro n
    induction n using Nat.strong_induction_on
    case h n hi =>
      by_contra hn
      exact hx ⟨n, hi, fun e he => hn ⟨e, he⟩⟩
  obtain ⟨e, he⟩ := ha (max 1 row.maxAttempts)
  exact he.unfinished (.inr (by omega))

theorem Ended.of_inProgress (h : InProgress row n c) (hn : n < max 1 row.maxAttempts)
    (hr : ∀ e, job.endpoint = some e → e.status ≠ .paused →
      Recordable p row (row.attempt + n + 1) job e)
    (hl : ∀ e, ¬ Repeats p row (row.attempt + n + 1) job e) : Ended p row (c.next p job) := by
  obtain ⟨row', request, hs, hsent, hh⟩ := handle_of_last h.unsettled
    (fun e he hu => h.follows.recordable_iff.mpr (hr e he hu))
    (fun e => h.follows.repeats_iff.not.mpr (hl e))
  rw [Chain.next_of_scheduled h.scheduled, hh]
  refine ⟨rfl, ?_, by simpa using h.delays, hs, ?_, fun later => by rw [runJobs_of_final hs]⟩
  · have hq : request.toList.length ≤ 1 := by cases request <;> simp
    simp only [List.length_append, h.requests]
    omega
  · rw [hsent]
    constructor
    case mp =>
      rintro ⟨r, hm, hr⟩
      exact ⟨r, List.mem_append_right _ (Option.mem_toList.mpr hm), hr⟩
    case mpr =>
      rintro ⟨r, hm, hr⟩
      obtain hm | hm := List.mem_append.mp hm
      case inl => exact absurd hr (h.failed r hm)
      case inr => exact ⟨r, Option.mem_toList.mp hm, hr⟩

theorem ended_start (h : row.status = .deadLetter) : Ended p row ((Chain.start row).next p job) := by
  have hs : row.status = .sent ∨ row.status = .deadLetter := .inr h
  rw [Chain.next_of_scheduled rfl]
  have hh : handle p job (Chain.start row).row = ⟨row, none, none⟩ := handle_of_final hs
  rw [hh]
  refine ⟨rfl, by simp [Chain.start], by simp [Chain.start], hs, by simp [Chain.start, h], ?_⟩
  exact fun later => by rw [runJobs_of_final hs]

theorem ends_of_allRecordable (h : AllRecordable p row jobs) : Ends p row jobs := by
  by_cases hd : row.status = .deadLetter
  case pos => exact ⟨1, ended_start hd⟩
  have ho : IsOpen row := not_or.mpr ⟨h.unsent, hd⟩
  obtain ⟨n, hb, hl⟩ := exists_last p row jobs
  have hr := h.jobs hd
  have hp : InProgress row n (chain p row jobs n) := by
    refine inProgress_chain ho fun k hk => ?_
    obtain ⟨e, he⟩ := hb k hk
    exact ⟨e, hr k (fun j hj => hb j (hj.trans hk)) e he.endpoint he.unpaused, he⟩
  have hn : n < max 1 row.maxAttempts := by
    cases n
    case zero => omega
    case succ n =>
      obtain ⟨e, he⟩ := hb n (Nat.lt_succ_self n)
      have ht := he.unfinished
      simp only [IsTerminal, not_or, not_le] at ht
      omega
  exact ⟨n + 1, .of_inProgress hp hn (hr n hb) hl⟩

-- A chain that stops with a row that is not settled never ends as it should.
theorem not_ends_of_open (hs : (chain p row jobs n).scheduled = true)
    (hs' : (chain p row jobs (n + 1)).scheduled = false)
    (ho : IsOpen (chain p row jobs (n + 1)).row) : ¬ Ends p row jobs := by
  rintro ⟨m, hm⟩
  by_cases hmn : m ≤ n
  case pos =>
    rw [chain_of_le hm.stopped hmn] at hs
    exact absurd hs (by simp [hm.stopped])
  case neg =>
    have hst := hm.status
    rw [chain_of_le hs' (by omega)] at hst
    exact ho hst

theorem not_ends_of_sent (h : row.status = .sent) : ¬ Ends p row jobs := by
  rintro ⟨n, hn⟩
  have hc : chain p row jobs 1 = ⟨row, false, [], []⟩ := by
    have hh : handle p (jobs 0) (Chain.start row).row = ⟨row, none, none⟩ :=
      handle_of_final (.inl h)
    rw [chain, chain, Chain.next_of_scheduled rfl, hh]
    rfl
  cases n
  case zero => cases hn.stopped
  case succ n =>
    have hn := hn.sent
    rw [chain_of_le (by rw [hc]) (Nat.succ_pos n), hc] at hn
    simpa using hn.mp h

theorem allRecordable_of_ends (h : Ends p row jobs) : AllRecordable p row jobs := by
  have hu : row.status ≠ .sent := fun hs => not_ends_of_sent hs h
  refine ⟨hu, fun hd n => ?_⟩
  have ho : IsOpen row := not_or.mpr ⟨hu, hd⟩
  induction n using Nat.strong_induction_on
  case h n hi =>
    intro hb e he hu
    have hp : InProgress row n (chain p row jobs n) := by
      refine inProgress_chain ho fun k hk => ?_
      obtain ⟨e, he⟩ := hb k hk
      exact ⟨e, hi k hk (fun j hj => hb j (hj.trans hk)) e he.endpoint he.unpaused, he⟩
    by_contra hr
    obtain ⟨row', request, ho', hh⟩ :=
      handle_of_not_recordable hp.unsettled he hu (hp.follows.recordable_iff.not.mpr hr)
    have hc : chain p row jobs (n + 1) = (chain p row jobs n).next p (jobs n) := rfl
    rw [Chain.next_of_scheduled hp.scheduled, hh] at hc
    exact not_ends_of_open hp.scheduled (by rw [hc]; rfl) (by rw [hc]; exact ho') h

-- The chain of jobs ends as it should if and only if the database takes all that it meets.
theorem ends_iff_allRecordable : Ends p row jobs ↔ AllRecordable p row jobs :=
  ⟨allRecordable_of_ends, ends_of_allRecordable⟩

end Chains

section Example

def examplePlatform : Platform Unit where
  jsonEncode _ := some [0x5B, 0x5D]
  emptyArray := ()
  hashHmac _ _ := ""
  iso8601 _ := ""
  queryMessage d := d.responseBody.getD []
  quotes hd hn := by simpa [hd] using hn

def exampleDelivery : Delivery Unit where
  id := "delivery"
  endpointId := "endpoint"
  eventId := "event"
  payloadJson := some ()
  attempt := 0
  maxAttempts := 3
  status := .pending
  nextAttemptAt := none
  httpStatus := none
  latencyMs := none
  responseBody := none
  lastError := none
  sentAt := none
  deliveredAt := none

def exampleRow : Row Unit :=
  ⟨exampleDelivery, by decide⟩

def exampleEndpoint : Endpoint where
  id := "endpoint"
  url := "https://receiver.invalid/webhooks"
  status := .active
  retryPolicy := .exponential
  timeoutMs := 5000
  signingSecretEncrypted := some []

def exampleJob (body : List UInt8) : Job where
  now := 1776500000
  latencyMs := 20
  answer := .response ⟨200, body, by decide⟩
  random := 0
  random' := 0
  now_pos := by decide
  now_lt := by decide
  latency_lt := by decide
  endpoint := some exampleEndpoint

def exampleChain : Chain Unit :=
  chain examplePlatform exampleRow (fun _ => exampleJob [0xE9]) 1

-- The request succeeds, with a response that is not encoded in UTF-8. It counts neither as sent nor
-- as failed, and it is not repeated.
theorem successful_but_retrying :
    exampleChain.scheduled = false ∧ exampleChain.row.status = .retrying ∧
      (∃ r ∈ exampleChain.requests, r.2.Successful) ∧
      ¬ Ends examplePlatform exampleRow fun _ => exampleJob [0xE9] := by
  have hs : exampleChain.scheduled = false := by decide
  have hr : exampleChain.row.status = .retrying := by decide
  have ho : IsOpen exampleChain.row := by
    rw [IsOpen, hr]
    decide
  exact ⟨hs, hr, by decide, not_ends_of_open (n := 0) rfl hs ho⟩

end Example

end ControlPlane.OutboundWebhooks
