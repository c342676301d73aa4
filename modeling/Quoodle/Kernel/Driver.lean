import Quoodle.Data.Unwinding
import Quoodle.Kernel.RequestSecurity

namespace Kernel

open Unwinding (accepted answers)

variable {key : List UInt8} {f l x : Int} {a : Arrival} {as : List Arrival}

-- What became of a request. Whatever a handler of an opcode answers, the request was accepted.
inductive Verdict where
  | accepted
  | rejected (errorCode : Nat) (errorMessage : String)
  deriving DecidableEq

def opcodes : List UInt32 := [
  -- QOP_EXEC_*
  1, 2, 3, 4, 10, 11, 12, 13, 14, 15,
  -- QOP_STAGE_UPDATE, QOP_COMMIT_UPDATE, QOP_ROLLBACK_UPDATE
  20, 21, 22,
  -- QOP_EXEC_RUN_ATTESTATION, QOP_EXEC_RUN_TAMPER_CHECK, QOP_EXEC_SELF_REPAIR
  30, 31, 32,
  -- QOP_OBS_*
  0x10001, 0x10002, 0x10003, 0x10004, 0x10005, 0x10006,
  -- QOP_FS_*
  0x20001, 0x20002, 0x20003, 0x20004, 0x20005, 0x20006, 0x20007,
  -- QOP_SEC_APPLOCK_*
  0x50001, 0x50002, 0x50003
]

structure State where
  lastSeq : Int
  -- Empty if no key was loaded.
  hmacKey : List UInt8

structure Arrival where
  now : UInt64
  request : Request

def authenticate (key : List UInt8) (req : Request) : Verdict :=
  if key = [] then .rejected 2003 "signature_invalid"
  else if req.signatureLength = 0 then .rejected 2002 "signature_missing"
  else if req.signatureLength.toNat ≥ maxSigB64 ∨
      req.signatureB64.toList[req.signatureLength.toNat]? ≠ some 0 then
    .rejected 2005 "bad_payload"
  else if !req.verifyRequestSignature key then .rejected 2003 "signature_invalid"
  else if req.opcode ∈ opcodes then .accepted
  else .rejected 4002 "invalid_opcode"

-- Models `QuoodleEvtIoDeviceControl` for execute requests.
def execute (s : State) (a : Arrival) : Verdict × State :=
  let req := a.request
  if req.version ≠ ioctlVersion then (.rejected 4003 "invalid_version", s)
  else if !req.validatePayload then (.rejected 2005 "bad_payload", s)
  else if !isTimestampFresh a.now req.timestampUnix then (.rejected 2004 "timestamp_skew", s)
  else
    match updateSequenceIfNew s.lastSeq req.sequence with
    | none => (.rejected 2001 "seq_replay", s)
    | some lastSeq => (authenticate s.hmacKey req, { s with lastSeq })

def trace (s : State) : List Arrival → List (Arrival × Verdict × Int)
  | [] => []
  | a :: as =>
    let (v, s') := execute s a
    (a, v, s'.lastSeq) :: trace s' as

namespace Arrival

def verified (key : List UInt8) (a : Arrival) : Bool :=
  a.request.verifyRequestSignature key

def sequence (a : Arrival) : Int :=
  a.request.sequence

def Admitted (a : Arrival) : Prop :=
  a.request.version = ioctlVersion ∧ a.request.validatePayload ∧
    isTimestampFresh a.now a.request.timestampUnix

instance : DecidablePred Admitted :=
  fun _ => inferInstanceAs (Decidable (_ ∧ _ ∧ _))

def last (l : Int) (a : Arrival) : Int :=
  if a.Admitted then max l a.sequence else l

end Arrival

theorem execute_of_not_admitted (h : ¬a.Admitted) : ∃ v, ∀ s, execute s a = (v, s) := by
  by_cases hv : a.request.version = ioctlVersion
  case neg => exact ⟨_, fun s => if_pos hv⟩
  by_cases hp : a.request.validatePayload
  case neg => exact ⟨.rejected 2005 "bad_payload", fun s => by simp [execute, hv, hp]⟩
  have hf : ¬isTimestampFresh a.now a.request.timestampUnix := fun hf => h ⟨hv, hp, hf⟩
  exact ⟨.rejected 2004 "timestamp_skew", fun s => by simp [execute, hv, hp, hf]⟩

theorem execute_of_admitted (h : a.Admitted) (s : State) : execute s a =
      if a.sequence ≤ s.lastSeq then (.rejected 2001 "seq_replay", s)
      else (authenticate s.hmacKey a.request, { s with lastSeq := a.sequence }) := by
  obtain ⟨hv, hp, hf⟩ := h
  by_cases hs : a.request.sequence ≤ s.lastSeq <;>
    simp [execute, hv, hp, hf, updateSequenceIfNew, Arrival.sequence, hs]

theorem authenticate_ne_replay (key : List UInt8) (req : Request) :
    authenticate key req ≠ .rejected 2001 "seq_replay" := by
  unfold authenticate
  repeat' split
  all_goals simp

theorem snd_execute (s : State) (a : Arrival) :
    (execute s a).2 = { s with lastSeq := a.last s.lastSeq } := by
  unfold Arrival.last
  split
  case isTrue h =>
    rw [execute_of_admitted h]
    split
    case isTrue hs => rw [max_eq_left hs]
    case isFalse hs => rw [max_eq_right (by omega)]
  case isFalse h =>
    obtain ⟨v, hv⟩ := execute_of_not_admitted h
    rw [hv]

-- A driver that has seen a higher sequence number `l` does the same with a request as one that has
-- only seen `f` if the request is above both of them.
theorem execute_eq_execute_iff (hl : f ≤ l) (a : Arrival) :
    ((execute ⟨l, key⟩ a).1 = (execute ⟨f, key⟩ a).1 ∧ a.last l = a.last f) ↔
      l = f ∨ a.Admitted ∧ l < a.sequence := by
  by_cases h : a.Admitted
  case neg =>
    obtain ⟨v, hv⟩ := execute_of_not_admitted h
    simp [hv, Arrival.last, h]
  case pos =>
    rw [execute_of_admitted h, execute_of_admitted h]
    simp only [Arrival.last, if_pos h]
    by_cases hf : a.sequence ≤ f
    case pos =>
      have hs : a.sequence ≤ l := hf.trans hl
      rw [if_pos hf, if_pos hs, max_eq_left hf, max_eq_left hs]
      simp [not_lt.mpr hs]
    case neg =>
      by_cases hs : a.sequence ≤ l
      case pos =>
        have hn := authenticate_ne_replay key a.request
        simp only [if_neg hf, if_pos hs, hn.symm, false_and, false_iff, not_or, not_and, not_lt]
        exact ⟨by omega, fun _ => hs⟩
      case neg =>
        rw [if_neg hf, if_neg hs, max_eq_right (not_le.mp hf).le, max_eq_right (not_le.mp hs).le]
        simp [h, not_le.mp hs]

@[simp]
theorem trace_cons (s : State) (a : Arrival) (as : List Arrival) :
    trace s (a :: as) = (a, (execute s a).1, a.last s.lastSeq) ::
      trace { s with lastSeq := a.last s.lastSeq } as := by
  simp only [trace, snd_execute]

theorem Arrival.le_last (l : Int) (a : Arrival) : l ≤ a.last l := by
  unfold last
  split
  · exact le_max_left ..
  · exact le_rfl

theorem Arrival.last_mono (h : f ≤ l) (a : Arrival) : a.last f ≤ a.last l := by
  unfold last
  split
  · exact max_le_max_right _ h
  · exact h

def top (l : Int) (as : List Arrival) : Int :=
  as.foldl Arrival.last l

theorem le_top_iff : x ≤ top l as ↔ x ≤ l ∨ ∃ a ∈ as, a.Admitted ∧ x ≤ a.sequence := by
  induction as generalizing l
  case nil => simp [top]
  case cons a as hi =>
    have hl : x ≤ a.last l ↔ x ≤ l ∨ a.Admitted ∧ x ≤ a.sequence := by
      unfold Arrival.last
      split <;> simp_all
    rw [show top l (a :: as) = top (a.last l) as from rfl, hi, hl, or_assoc]
    simp

theorem top_lt_iff : top l as < x ↔ l < x ∧ ∀ a ∈ as, a.Admitted → a.sequence < x := by
  rw [← not_le, le_top_iff]
  push Not
  rfl

theorem forall_split_cons {α : Type} {b : α} {bs : List α} {P : List α → α → Prop} :
    (∀ before a after, b :: bs = before ++ a :: after → P before a) ↔
      P [] b ∧ ∀ before a after, bs = before ++ a :: after → P (b :: before) a := by
  constructor
  · intro h
    exact ⟨h [] b bs rfl, fun before a after he => h (b :: before) a after (he ▸ rfl)⟩
  · rintro ⟨hb, h⟩ before a after he
    cases before
    case nil => cases he; exact hb
    case cons => cases he; exact h _ a after rfl

-- The requests that are not removed go the same way as long as, at each of them, the removed ones
-- have not raised the last sequence number, or the request is above what they have raised it to.
theorem filter_trace_eq_iff_top (hl : f ≤ l) (as : List Arrival) :
    (trace ⟨l, key⟩ as).filter (·.1.verified key) = trace ⟨f, key⟩ (as.filter (·.verified key)) ↔
      ∀ before a after, as = before ++ a :: after → a.verified key →
        top l before = top f (before.filter (·.verified key)) ∨
          a.Admitted ∧ top l before < a.sequence := by
  induction as generalizing l f
  case nil => simp [trace]
  case cons b bs hi =>
    rw [forall_split_cons]
    by_cases hv : b.verified key
    case pos =>
      simp only [trace_cons, List.filter_cons, hv, if_true, List.cons.injEq, Prod.mk.injEq, true_and]
      rw [hi (b.last_mono hl), execute_eq_execute_iff hl]
      simp [top]
    case neg =>
      simp only [trace_cons, List.filter_cons, hv, Bool.false_eq_true, if_false]
      rw [hi (hl.trans (b.le_last l))]
      simp [top]

-- Whenever a request is verified, each of those before it that were not verified but got as far as
-- the check of the sequence number is below a number that counted before, or below the request.
def Undisturbed (s : State) (as : List Arrival) : Prop :=
  ∀ before a after, as = before ++ a :: after → a.verified s.hmacKey →
    ∀ b ∈ before, ¬b.verified s.hmacKey → b.Admitted →
      b.sequence ≤ s.lastSeq ∨
      (∃ c ∈ before, c.verified s.hmacKey ∧ c.Admitted ∧ b.sequence ≤ c.sequence) ∨
      a.Admitted ∧ b.sequence < a.sequence

theorem top_filter_or_iff {before : List Arrival} :
    (top l before = top l (before.filter (·.verified key)) ∨
        a.Admitted ∧ top l before < a.sequence) ↔
      ∀ b ∈ before, ¬b.verified key → b.Admitted →
        b.sequence ≤ l ∨ (∃ c ∈ before, c.verified key ∧ c.Admitted ∧ b.sequence ≤ c.sequence) ∨
        a.Admitted ∧ b.sequence < a.sequence := by
  have hf {x : Int} : x ≤ top l (before.filter (·.verified key)) ↔
      x ≤ l ∨ ∃ c ∈ before, c.verified key ∧ c.Admitted ∧ x ≤ c.sequence := by
    simp [le_top_iff, and_assoc]
  have hm {b : Arrival} (hb : b ∈ before) (ha : b.Admitted) : b.sequence ≤ top l before :=
    le_top_iff.mpr <| .inr ⟨b, hb, ha, le_rfl⟩
  simp only [← or_assoc, ← hf]
  constructor
  case mp =>
    rintro (he | ⟨ha, hs⟩) b hb _ hab
    · exact .inl (he ▸ hm hb hab)
    · exact .inr ⟨ha, (hm hb hab).trans_lt hs⟩
  case mpr =>
    intro h
    by_cases he : ∀ b ∈ before, ¬b.verified key → b.Admitted →
        b.sequence ≤ top l (before.filter (·.verified key))
    case pos =>
      refine .inl (le_antisymm ?_ ?_)
      · rw [← Int.lt_add_one_iff, top_lt_iff]
        refine ⟨Int.lt_add_one_iff.mpr (hf.mpr (.inl le_rfl)), fun b hb ha => ?_⟩
        rw [Int.lt_add_one_iff]
        by_cases hv : b.verified key
        case pos => exact hf.mpr (.inr ⟨b, hb, hv, ha, le_rfl⟩)
        case neg => exact he b hb hv ha
      · rw [← not_lt, top_lt_iff]
        rintro ⟨_, hs⟩
        exact absurd (hf.mp le_rfl) (by push Not; exact ⟨by omega, fun c hc hv ha => hs c hc ha⟩)
    case neg =>
      push Not at he
      obtain ⟨b, hb, hv, hab, hlt⟩ := he
      obtain ⟨ha, hs⟩ := (h b hb hv hab).resolve_left (not_le.mpr hlt)
      refine .inr ⟨ha, top_lt_iff.mpr ⟨?_, fun c hc hac => ?_⟩⟩
      · exact (hf.mpr (.inl le_rfl)).trans_lt (hlt.trans hs)
      · by_cases hvc : c.verified key
        case pos => exact (hf.mpr (.inr ⟨c, hc, hvc, hac, le_rfl⟩)).trans_lt (hlt.trans hs)
        case neg =>
          cases h c hc hvc hac
          case inl hle => exact hle.trans_lt (hlt.trans hs)
          case inr hlt => exact hlt.right

-- Removing the requests whose signature is rejected changes nothing for the others.
theorem filter_trace_eq_iff_undisturbed (s : State) (as : List Arrival) :
    (trace s as).filter (·.1.verified s.hmacKey) = trace s (as.filter (·.verified s.hmacKey)) ↔
      Undisturbed s as := by
  rw [filter_trace_eq_iff_top le_rfl, Undisturbed]
  simp only [top_filter_or_iff]

theorem verified_of_authenticate {req : Request}
    (h : authenticate key req = .accepted) : req.verifyRequestSignature key := by
  unfold authenticate at h
  repeat' split at h
  all_goals simp_all

theorem of_execute_accepted {s : State} (h : (execute s a).1 = .accepted) :
    a.Admitted ∧ a.verified s.hmacKey ∧ s.lastSeq < a.sequence := by
  by_cases ha : a.Admitted
  case neg =>
    unfold Arrival.Admitted at ha
    simp only [execute] at h
    repeat' split at h
    all_goals simp_all
  case pos =>
    rw [execute_of_admitted ha] at h
    split at h
    case isTrue => cases h
    case isFalse hs => exact ⟨ha, verified_of_authenticate h, not_le.mp hs⟩

-- Requests are only executed if they are fresh and signed, and none of them is executed again.
theorem accepted_once (s : State) (as : List Arrival) :
    (∀ a, (a, .accepted) ∈ answers execute s as → a.Admitted ∧ a.verified s.hmacKey) ∧
      (accepted .accepted (some ·.sequence) (answers execute s as)).Pairwise (· < ·) := by
  constructor
  · induction as generalizing s
    case nil => simp [answers]
    case cons b bs hi =>
      intro a h
      cases List.mem_cons.mp h
      case inl h =>
        obtain ⟨rfl, hv⟩ := Prod.mk.inj h
        exact ⟨(of_execute_accepted hv.symm).left, (of_execute_accepted hv.symm).right.left⟩
      case inr h =>
        have ha := hi _ a h
        rwa [snd_execute] at ha
  · refine Unwinding.pairwise_accepted (T := fun _ _ => True) (fun _ s n => n ≤ s.lastSeq) ?_ ?_ ?_ s
      (List.pairwise_of_forall fun _ _ => trivial)
    · intro s n b a _ h
      rw [snd_execute]
      exact h.trans (a.le_last _)
    · rintro s a n ha ⟨⟩
      rw [snd_execute, Arrival.last, if_pos (of_execute_accepted ha).left]
      exact le_max_right ..
    · rintro s m b a n _ hm ha ⟨⟩
      exact hm.trans_lt (of_execute_accepted ha).right.right

def pad (n : Nat) (cs : List UInt8) : List.Vector UInt8 n :=
  List.Vector.ofFn fun i => cs.getD i 0

def pingRequest (seq : UInt64) (signature : String) : Request where
  version := ioctlVersion
  opcode := 10
  flags := 0
  paramsLength := 2
  agentSequence := seq
  timestampUnix := 1700000000
  requestId := pad _ (ascii "r-1")
  policyHash := pad _ []
  commandMessageId := pad _ (ascii "c-1")
  paramsJson := pad _ [0x7b, 0x7d]
  signatureLength := signature.length.toUInt32
  signatureB64 := pad _ (ascii signature)

def hmacKey : List UInt8 :=
  ascii "secret"

-- An unsigned request with the greatest sequence number, and the first one of the agent.
def unsignedPing : Arrival :=
  ⟨1700000000, pingRequest 0x7fffffffffffffff ""⟩

def agentPing : Arrival :=
  ⟨1700000001, pingRequest 1 "U0YdKYjn6+p0BipHE0Ft0J999G22cElqkDo8dKd8wn8="⟩

theorem unsignedPing_blocks_agentPing :
    ((trace ⟨0, hmacKey⟩ [unsignedPing, agentPing]).filter (·.1.verified hmacKey)).map Prod.snd =
        [(.rejected 2001 "seq_replay", 0x7fffffffffffffff)] ∧
      (trace ⟨0, hmacKey⟩ ([unsignedPing, agentPing].filter (·.verified hmacKey))).map Prod.snd =
        [(.accepted, 1)] := by
  decide +kernel

end Kernel
