import Quoodle.Daemon.UdsServer

-- The responses that the privileged daemon keeps in order to answer a request that is sent again.
namespace Daemon

open Json.CJson (parseWith getItem getString)

@[ext]
structure Asked (ν : Type) where
  requestId : String
  capability : String
  params : Json ν

structure Session (ν : Type) where
  state : State ν
  produced : List (Asked ν × String)

section

variable {ν : Type} [LT ν] (num : Doubles ν) (env : Environment)

def asked (text : List Char) : Option (Asked ν) :=
  match parseWith num.read text with
  | some (.obj ms) => do
    return ⟨← getString "request_id" ms, ← getString "capability" ms, ← getItem "params" ms⟩
  | _ => none

def produced (s : State ν) (c : Call) : Option (Asked ν × String) := do
  let text ← c.jsonIn
  let q ← admitted num env s c
  return (← asked num text, ← signedResponse num env c q)

namespace Session

def start : Session ν :=
  ⟨⟨⟨none, []⟩, []⟩, []⟩

def step (x : Session ν) (c : Call) : Option (Session ν) :=
  some ⟨(handleRequest num env c x.state).1, x.produced ++ (Daemon.produced num env x.state c).toList⟩

end Session

def Carries (R : Set (List Char)) (c : Call) : Prop :=
  ∃ text ∈ R, c.jsonIn = some text

-- Whenever the requests are among `R` and one is answered with a stored response, that response was
-- made by executing a request about the same.
def AnswersSame (R : Set (List Char)) : Prop :=
  ∀ cs x c response,
    Transition.Steps (Session.step num env) (fun _ c => Carries R c) Session.start cs x →
    Carries R c → (handleRequest num env c x.state).2 = .cached response →
    ∃ a, c.jsonIn.bind (asked num) = some a ∧ (a, response) ∈ x.produced

-- The request passes all checks, its sequence number is not used up from the start, and the executor
-- can give a response to it that can be signed.
def Executable (text : List Char) : Prop :=
  ∃ q c response, checkRequest num env (some text) = .ok q ∧
    0 < (num.toLong q.agentSequence).val ∧ signedResponse num env c q = some response ∧ response ≠ ""

def Accepted (text : List Char) : Prop :=
  ∃ q, checkRequest num env (some text) = .ok q

-- Two requests are about the same if they agree in what is left of their identifiers.
def Distinguished (R : Set (List Char)) : Prop :=
  ∀ t ∈ R, ∀ t' ∈ R, ∀ a a', Executable num env t → Accepted num env t' →
    asked num t = some a → asked num t' = some a' →
    safeRequestId (some a.requestId) = safeRequestId (some a'.requestId) → a = a'

variable {num env} {c : Call} {q : Request ν} {s : State ν} {text : List Char}

omit [LT ν] in
theorem asked_of_checkSchema {ms : List (String × Json ν)} (h : checkSchema env ms = .ok q) :
    ∃ a : Asked ν, getString "request_id" ms = some a.requestId ∧
      getString "capability" ms = some a.capability ∧ getItem "params" ms = some a.params ∧
      q.requestId = safeRequestId (some a.requestId) := by
  simp only [checkSchema, bind, Except.bind, pure, Except.pure, throw, throwThe,
    MonadExceptOf.throw] at h
  split at h
  case isTrue => contradiction
  case isFalse hr =>
    repeat' split at h
    all_goals try contradiction
    case _ hs _ =>
      cases h
      simp only [not_or, not_exists, not_and] at hr hs
      have ⟨requestId, hi⟩ := Option.ne_none_iff_exists'.mp hr.left
      have ⟨capability, hc⟩ := Option.ne_none_iff_exists'.mp <| hs.left "capability" (by decide)
      have ⟨params, hp⟩ := Option.ne_none_iff_exists'.mp <|
        Option.isNone_iff_eq_none.not.mp <| hr.right "params" (by decide)
      exact ⟨⟨requestId, capability, params⟩, hi, hc, hp, by rw [hi]⟩

theorem asked_of_checkRequest (h : checkRequest num env (some text) = .ok q) :
    ∃ a, asked num text = some a ∧ q.requestId = safeRequestId (some a.requestId) := by
  simp only [checkRequest, bind, Except.bind, pure, Except.pure] at h
  repeat' split at h
  all_goals try contradiction
  case _ ms hp _ _ hs _ _ _ =>
    cases h
    have ⟨a, hi, hc, hp', hq⟩ := asked_of_checkSchema hs
    exact ⟨a, by simp [asked, hp, hi, hc, hp'], hq⟩

theorem checkRequest_of_admitted (h : q ∈ admitted num env s c) :
    checkRequest num env c.jsonIn = .ok q := by
  unfold admitted at h
  split at h
  case h_1 => contradiction
  case h_2 hq =>
    have ⟨_, h⟩ := Option.ite_none_right_eq_some.mp h
    exact Option.some.inj h ▸ hq

theorem handleRequest_of_admitted (h : q ∈ admitted num env s c) :
    handleRequest num env c s = executeRequest num env c q s := by
  have hq := checkRequest_of_admitted h
  unfold admitted at h
  rw [hq] at h
  have ⟨⟨hg, hl⟩, _⟩ := Option.ite_none_right_eq_some.mp h
  have ⟨last, hl, hlt⟩ := Option.any_eq_true _ _ |>.mp hl
  have hlt : last.val < (num.toLong q.agentSequence).val := by simpa using hlt
  simp only [handleRequest, hq, hg, hl]
  exact if_neg (Int.not_le.mpr hlt)

theorem store_executeRequest (num : Doubles ν) (env : Environment) (c : Call) (q : Request ν)
    (s : State ν) :
    let st := (executeRequest num env c q s).1.store
    (st.responses = s.store.responses ∨ ∃ out, signedResponse num env c q = some out ∧
      st.responses = Json.assign q.requestId out s.store.responses) ∧
    (st.sequence = s.store.sequence ∨ st.sequence = num.toLong q.agentSequence) := by
  simp only [executeRequest]
  cases he : c.execResp
  case none => exact ⟨.inl rfl, .inl rfl⟩
  case some execResp =>
    dsimp only
    split
    case h_2 => exact ⟨.inl rfl, .inl rfl⟩
    case h_1 execRoot hp =>
      split
      case isTrue => exact ⟨.inl rfl, .inl rfl⟩
      case isFalse hb =>
        have hs : signedResponse num env c q =
            finalizeAndSignResponse num c.sign (buildResponse env q.requestId execRoot c) := by
          have hb : c.responseBuilt = true := by simpa using hb
          simp [signedResponse, he, hp, hb]
        split
        case h_1 => exact ⟨.inl rfl, .inl rfl⟩
        case h_2 out ho =>
          have hs := hs.trans ho
          split
          case h_1 => exact ⟨.inl rfl, .inl rfl⟩
          case h_2 st hw =>
            obtain ⟨_, hw⟩ := Option.ite_none_right_eq_some.mp hw
            cases hw
            split
            case h_1 => exact ⟨.inr ⟨out, hs, rfl⟩, .inl rfl⟩
            case h_2 st hw =>
              obtain ⟨_, hw⟩ := Option.ite_none_right_eq_some.mp hw
              cases hw
              exact ⟨.inr ⟨out, hs, rfl⟩, .inr rfl⟩

theorem responses_executeRequest {out : String} (hs : signedResponse num env c q = some out)
    (hr : c.responseWritten) (hw : c.sequenceWritten) :
    (executeRequest num env c q s).1.store.responses =
      Json.assign q.requestId out s.store.responses := by
  unfold signedResponse at hs
  split at hs
  case h_2 => contradiction
  case h_1 execRoot he =>
    have ⟨execResp, he, hp⟩ := Option.bind_eq_some_iff.mp he
    have ⟨hb, ho⟩ := Option.ite_none_right_eq_some.mp hs
    simp [executeRequest, he, hp, hb, ho, Store.saveResponse, Store.saveSequence, hr, hw]

structure Kept (num : Doubles ν) (env : Environment) (R : Set (List Char)) (x : Session ν) :
    Prop where
  stored : ∀ requestId response, x.state.store.responses.lookup requestId = some response →
    response ≠ "" → ∃ text ∈ R, ∃ a, Executable num env text ∧ asked num text = some a ∧
      safeRequestId (some a.requestId) = requestId ∧ (a, response) ∈ x.produced
  sequence : 0 ≤ x.state.store.lastSequence.val

namespace Kept

variable {R : Set (List Char)} {x x' : Session ν}

theorem start : Kept num env R Session.start :=
  ⟨nofun, Int.le_refl 0⟩

theorem step (hk : Kept num env R x) (hc : Carries R c)
    (h : Session.step num env x c = some x') : Kept num env R x' := by
  cases h
  have ⟨text, hR, ht⟩ := hc
  have hold requestId response (hl : x.state.store.responses.lookup requestId = some response)
      (hn : response ≠ "") : ∃ text ∈ R, ∃ a, Executable num env text ∧ asked num text = some a ∧
      safeRequestId (some a.requestId) = requestId ∧
      (a, response) ∈ x.produced ++ (produced num env x.state c).toList := by
    have ⟨text, hR, a, he, ha, hs, hp⟩ := hk.stored requestId response hl hn
    exact ⟨text, hR, a, he, ha, hs, List.mem_append_left _ hp⟩
  cases handleRequest_cases num env c x.state
  case inl h =>
    rw [h]
    exact ⟨hold, hk.sequence⟩
  case inr h =>
    have ⟨q, hq, hlt, h⟩ := h
    have hq' := checkRequest_of_admitted hq
    rw [ht] at hq'
    have ⟨a, ha, hi⟩ := asked_of_checkRequest hq'
    have ⟨hr, hs⟩ := store_executeRequest num env c q x.state
    rw [h]
    constructor
    case stored =>
      intro requestId response hl hn
      dsimp only at hl ⊢
      cases hr
      case inl hr => exact hold requestId response (hr ▸ hl) hn
      case inr hr =>
        have ⟨out, ho, hr⟩ := hr
        rw [hr] at hl
        by_cases he : requestId = q.requestId
        case neg => exact hold requestId response (Json.lookup_assign_of_ne he .. ▸ hl) hn
        rw [he, Json.lookup_assign_self] at hl
        cases hl
        have hp : produced num env x.state c = some (a, response) := by
          have hq : admitted num env x.state c = some q := hq
          simp [produced, ht, hq, ha, ho]
        refine ⟨text, hR, a, ⟨q, c, response, hq', hk.sequence.trans_lt hlt, ho, hn⟩, ha,
          hi.symm.trans he.symm, ?_⟩
        simp [hp]
    case sequence =>
      dsimp only
      cases hs
      case inl hs =>
        rw [Store.lastSequence, hs]
        exact hk.sequence
      case inr hs =>
        rw [Store.lastSequence, hs]
        exact hk.sequence.trans hlt.le

end Kept

theorem executeRequest_ne_cached (response : String) :
    (executeRequest num env c q s).2 ≠ .cached response := by
  simp only [executeRequest]
  repeat' split
  all_goals simp

theorem handleRequest_eq_cached_iff {response : String} :
    (handleRequest num env c s).2 = .cached response ↔
      ∃ q, checkRequest num env c.jsonIn = .ok q ∧
        s.store.getResponse c.responseReadable q.requestId = some (some response) := by
  unfold handleRequest
  split
  case h_1 he => simp [he]
  case h_2 q hq =>
    simp only [hq, Except.ok.injEq, exists_eq_left']
    split
    case h_1 hg => simp [hg]
    case h_2 hg => simp [hg]
    case h_3 hg =>
      rw [hg]
      refine iff_of_false ?_ nofun
      repeat' split
      case h_1 => nofun
      case isTrue => nofun
      case isFalse => exact executeRequest_ne_cached response

theorem getResponse_eq_some_iff {st : Store} {readable : Bool} {requestId response : String} :
    st.getResponse readable requestId = some (some response) ↔
      readable ∧ st.responses.lookup requestId = some response ∧ response ≠ "" := by
  unfold Store.getResponse
  split
  case h_1 h => simp [h]
  case h_2 text h =>
    split
    case isTrue ht => simp [h, ht]
    case isFalse ht =>
      simp [h]
      rintro rfl
      exact ht
  case h_3 => simp

def Response.isCached : Response → Bool
  | cached _ => true
  | _ => false

theorem Response.isCached_iff {r : Response} : r.isCached ↔ ∃ text, r = .cached text := by
  cases r <;> simp [isCached]

section

variable {R : Set (List Char)}

theorem AnswersSame.of_distinguished (h : Distinguished num env R) : AnswersSame num env R := by
  intro cs x c response hs hc hr
  have hk : Kept num env R x := hs.invariant .step .start
  have ⟨t', hR', ht'⟩ := hc
  have ⟨q, hq, hg⟩ := handleRequest_eq_cached_iff.mp hr
  have ⟨_, hl, hn⟩ := getResponse_eq_some_iff.mp hg
  rw [ht'] at hq
  have ⟨a', ha', hi⟩ := asked_of_checkRequest hq
  have ⟨t, hR, a, he, ha, hs, hp⟩ := hk.stored _ _ hl hn
  cases h t hR t' hR' a a' he ⟨q, hq⟩ ha ha' (hs.trans hi)
  exact ⟨a', by rw [ht']; exact ha', hp⟩

-- One request is executed, and the other one gets its response.
theorem AnswersSame.distinguished (h : AnswersSame num env R) : Distinguished num env R := by
  intro t ht t' ht' a a' he hq' ha ha' hi
  obtain ⟨q, c, response, hq, hpos, hs, hn⟩ := he
  let c₁ : Call := {
    c with
    jsonIn := some t
    responseReadable := true
    sequenceReadable := true
    responseWritten := true
    sequenceWritten := true
  }
  have hs₁ : signedResponse num env c₁ q = some response := hs
  have had : admitted num env Session.start.state c₁ = some q := by
    have hg : Store.getResponse ⟨none, []⟩ true q.requestId = some none := rfl
    have hl : Store.loadSequence ⟨none, []⟩ true = some ⟨0, by decide, by decide⟩ := rfl
    simp only [admitted, c₁, hq, Session.start, hg, hl]
    exact if_pos ⟨trivial, by simpa using hpos⟩
  have hp : produced num env Session.start.state c₁ = some (a, response) := by
    simp [produced, c₁, had, ha, hs₁]
  let x : Session ν := ⟨(executeRequest num env c₁ q Session.start.state).1, [(a, response)]⟩
  have hx : Session.step num env Session.start c₁ = some x := by
    rw [Session.step, handleRequest_of_admitted had, hp]
    rfl
  obtain ⟨q', hq'⟩ := hq'
  have hi' : q'.requestId = q.requestId := by
    obtain ⟨b, hb, hi₁⟩ := asked_of_checkRequest hq
    obtain ⟨b', hb', hi₂⟩ := asked_of_checkRequest hq'
    cases ha.symm.trans hb
    cases ha'.symm.trans hb'
    rw [hi₁, hi₂, hi]
  have hr : x.state.store.responses = Json.assign q.requestId response [] :=
    responses_executeRequest hs₁ rfl rfl
  have hc : (handleRequest num env { c₁ with jsonIn := some t' } x.state).2 = .cached response := by
    refine handleRequest_eq_cached_iff.mpr ⟨q', hq', ?_⟩
    refine getResponse_eq_some_iff.mpr ⟨rfl, ?_, hn⟩
    rw [hr, hi', Json.lookup_assign_self]
  obtain ⟨b, hb, hm⟩ := h [c₁] x _ response (.step ⟨t, ht, rfl⟩ hx .refl) ⟨t', ht', rfl⟩ hc
  have hba : b = a := by simpa [x] using hm
  rw [← hba]
  exact Option.some.inj (hb.symm.trans ha')

theorem answersSame_iff_distinguished : AnswersSame num env R ↔ Distinguished num env R :=
  ⟨AnswersSame.distinguished, .of_distinguished⟩

theorem asked_of_produced {a : Asked ν} {response : String}
    (h : produced num env s c = some (a, response)) : c.jsonIn.bind (asked num) = some a := by
  simp only [produced, Option.bind_eq_bind, Option.bind_eq_some_iff, Option.pure_def] at h
  obtain ⟨text, ht, q, hq, a', ha', r, hr, he⟩ := h
  rw [ht]
  exact ha'.trans (congrArg some (Prod.mk.inj (Option.some.inj he)).left)

theorem not_answersSame {c c' : Call} (hc : Carries R c) (hc' : Carries R c')
    (hr : (handleRequest num env c' (handleRequest num env c Session.start.state).1).2.isCached)
    (hne : c.jsonIn.bind (asked num) ≠ c'.jsonIn.bind (asked num)) : ¬AnswersSame num env R := by
  intro h
  have ⟨response, hr⟩ := Response.isCached_iff.mp hr
  have ⟨a, ha, hm⟩ := h [c] _ c' response (.step hc rfl .refl) hc' hr
  have hp : produced num env Session.start.state c = some (a, response) := by
    simpa [Session.start] using hm
  exact hne ((asked_of_produced hp).trans ha.symm)

end

end

def request (requestId capability : String) : List Char :=
  Json.CJson.printUnformatted <| .obj [
    ("request_id", .str requestId),
    ("timestamp", .str "2026-01-01T00:00:00Z"),
    ("capability", .str capability),
    ("params", .obj []),
    ("agent_sequence", .num 1),
    ("policy_hash", .str "p"),
    ("command_message_id", .str "m-1"),
    ("sig", .obj [("signer", .str "agent"), ("sig", .str "valid")])
  ]

def requestCall (requestId capability : String) : Call :=
  { lockCall true with jsonIn := some (request requestId capability) }

-- The other request has another capability, or no identifier.
def pairs : List ((String × String) × (String × String)) :=
  [(("r-1", "CAP_A"), "r-1", "CAP_B"), (("unknown", "CAP_A"), "", "CAP_A")]

theorem isCached_pairs :
    ∀ p ∈ pairs, (handleRequest integers plainEnvironment (requestCall p.2.1 p.2.2)
      (handleRequest integers plainEnvironment (requestCall p.1.1 p.1.2)
        Session.start.state).1).2.isCached := by
  decide +kernel

theorem asked_pairs_ne :
    ∀ p ∈ pairs, (asked integers (request p.1.1 p.1.2)).map (fun a => (a.requestId, a.capability)) ≠
      (asked integers (request p.2.1 p.2.2)).map fun a => (a.requestId, a.capability) := by
  decide +kernel

theorem not_answersSame_pair {id capability id' capability' : String}
    (hp : ((id, capability), id', capability') ∈ pairs) :
    ¬AnswersSame integers plainEnvironment {request id capability, request id' capability'} := by
  have hc : Carries {request id capability, request id' capability'} (requestCall id capability) :=
    ⟨request id capability, Set.mem_insert .., rfl⟩
  have hc' : Carries {request id capability, request id' capability'}
      (requestCall id' capability') :=
    ⟨request id' capability', Set.mem_insert_of_mem _ rfl, rfl⟩
  have hb (id capability : String) : (requestCall id capability).jsonIn.bind (asked integers) =
      asked integers (request id capability) := by
    rw [requestCall, Option.bind_some]
  have hr := isCached_pairs _ hp
  have hne := asked_pairs_ne _ hp
  dsimp only at hr hne
  refine not_answersSame hc hc' hr fun he => hne ?_
  rw [← hb id, ← hb id', he]

theorem answered_for_another :
    ¬AnswersSame integers plainEnvironment {request "r-1" "CAP_A", request "r-1" "CAP_B"} ∧
      ¬AnswersSame integers plainEnvironment {request "unknown" "CAP_A", request "" "CAP_A"} :=
  ⟨not_answersSame_pair (by simp [pairs]), not_answersSame_pair (by simp [pairs])⟩

end Daemon
