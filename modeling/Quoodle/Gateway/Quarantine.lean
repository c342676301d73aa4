import Quoodle.Gateway.Copies

-- Which commands are sent to a device in quarantine.
namespace Gateway

-- The method that `build_command_delivery` finds in a payload. The envelope comes before the member
-- that `dispatch_command` has checked.
def commandMethod (payload : Value) : Option Value := do
  let envelope ← payload.get "envelope" (.dict [])
  let body ← envelope.get "body" (.dict [])
  body.get "method" (← payload.get "method" (.str ""))

def deliveredMethod (m : Value) : Option Value := do
  let envelope ← (← m.getItem "body").getItem "command_envelope"
  (← envelope.getItem "body").getItem "method"

theorem getItem_commandEnvelope_body {cfg : Settings} {stamp : DeliveryStamp}
    {payload deviceId e : Value} (h : commandEnvelope cfg stamp payload deviceId = some e) :
    ∃ body : Value, e.getItem "body" = some body ∧
      body.getItem "method" = commandMethod payload := by
  obtain ⟨envelope, he, h⟩ := Option.bind_eq_some_iff.mp h
  obtain ⟨_, _, h⟩ := Option.bind_eq_some_iff.mp h
  obtain ⟨body, hb, h⟩ := Option.bind_eq_some_iff.mp h
  iterate 8 obtain ⟨_, _, h⟩ := Option.bind_eq_some_iff.mp h
  obtain ⟨default, hd, h⟩ := Option.bind_eq_some_iff.mp h
  obtain ⟨method, hm, h⟩ := Option.bind_eq_some_iff.mp h
  iterate 16 obtain ⟨_, _, h⟩ := Option.bind_eq_some_iff.mp h
  cases h
  have hc : commandMethod payload = some method := by
    simp only [commandMethod, he, hb, hd, hm, Option.bind_eq_bind, Option.bind_some]
  rw [hc, Value.getItem_dict (by simp [Json.keys])]
  refine ⟨_, rfl, ?_⟩
  rw [Value.getItem_dict (by simp [Json.keys])]
  rfl

theorem deliveredMethod_buildCommandDelivery {cfg : Settings} {stamp : DeliveryStamp}
    {payload m : Value} {sessionId : String}
    (h : buildCommandDelivery cfg stamp payload sessionId = some m) :
    deliveredMethod m = commandMethod payload := by
  obtain ⟨_, _, _, body, e₀, e, hb, he, _, hc, hk⟩ := getItem_buildCommandDelivery h
  obtain ⟨_, hm, hc⟩ := getItem_commandEnvelope_body hc
  simp only [deliveredMethod, hb, he, hk "body" (by decide), hm, hc, Option.bind_eq_bind,
    Option.bind_some]

namespace Connect

-- What `is_blocked` says of the method in a message, which need not be a string.
def State.Blocks (s : State) (method : Value) : Prop :=
  s.quarantined ∧ method ∉ quarantineAllowlist.map Value.str

def Harmless (payload : Value) : Prop :=
  ∀ method ∈ commandMethod payload, method ∈ quarantineAllowlist.map Value.str

-- A device is put into quarantine only while there is no other command on its way to it, and the
-- envelope of a command for a device in quarantine has the method for which it is checked.
def Clear (s : State) : Action → Prop
  | .setQuarantine quarantined => quarantined → ∀ p ∈ s.payloads, Harmless p
  | .dispatch r _ _ =>
    s.quarantined → ∀ method ∈ commandMethod r.modelDump, method = .str r.method
  | _ => True

variable {cfg : OfflineQueue.Config} {s s' : State} {a : Action}

def Guarded (s : State) : Prop :=
  s.quarantined → Holds Harmless s

theorem harmless_of_takes {r : CommandDispatchRequest} {ok : Bool} {now : Int}
    (hq : s.quarantined) (ha : Clear s (.dispatch r ok now)) (ht : s.Takes r ok) :
    Harmless r.modelDump := by
  intro method hm
  have hb : ¬s.isBlocked r.method := fun hb => ht.left (.inr hb)
  have hc : r.method ∈ quarantineAllowlist := by simpa [State.isBlocked, hq] using hb
  rw [ha hq method hm]
  exact List.mem_map_of_mem hc

theorem quarantined_of_step (hs : step cfg s a = some s') :
    s'.quarantined = s.quarantined ∨ ∃ q, a = .setQuarantine q := by
  cases a
  case dispatch r ok now =>
    simp only [step, State.dispatchCommand] at hs
    split at hs
    case isTrue => exact .inl (Option.some.inj hs ▸ rfl)
    split at hs
    case h_1 =>
      obtain ⟨q, _, rfl⟩ := Option.map_eq_some_iff.mp hs
      exact .inl rfl
    case h_2 => split at hs <;> exact .inl (Option.some.inj hs ▸ rfl)
  case connect =>
    cases hs
    unfold State.register
    split <;> exact .inl rfl
  case deliver sid ok =>
    simp only [step, State.deliver] at hs
    split at hs
    case h_1 => exact .inl (Option.some.inj hs ▸ rfl)
    case h_2 => split at hs <;> exact .inl (Option.some.inj hs ▸ rfl)
    case h_3 => cases hs
  case setQuarantine q => exact .inr ⟨q, rfl⟩
  case resume i ok now | lapse now =>
    obtain ⟨q, _, rfl⟩ := Option.map_eq_some_iff.mp hs
    exact .inl rfl
  case disconnect => exact .inl (Option.some.inj hs ▸ rfl)
  all_goals
    simp only [step] at hs
    split at hs <;> cases hs <;> exact .inl rfl

namespace Guarded

theorem holds_step (h : Guarded s) (hq : s.quarantined) (ha : Clear s a)
    (hs : step cfg s a = some s') : Holds Harmless s' ∧ Sends Harmless s s' := by
  refine (h hq).step ?_ hs
  rintro r ok now rfl ht
  exact harmless_of_takes hq ha ht

theorem step (h : Guarded s) (ha : Clear s a) (hs : step cfg s a = some s') : Guarded s' := by
  intro hq
  cases quarantined_of_step hs
  case inl he => exact (h.holds_step (he ▸ hq) ha hs).left
  case inr he =>
    obtain ⟨q, rfl⟩ := he
    cases hs
    have hp : Holds Harmless s := holds_iff.mpr (ha hq)
    exact ⟨hp.queue, hp.sessions⟩

end Guarded

-- The handler starts without any device in quarantine.
theorem not_blocks_of_sends {s₀ : State} {as : List Action} (hi : s₀.quarantined = false)
    (h : Transition.Steps (step cfg) Clear s₀ as s) (ha : Clear s a)
    (hs : step cfg s a = some s') :
    ∃ ds, s'.sent = s.sent ++ ds ∧ ∀ d ∈ ds, ∀ settings stamp sessionId m,
      buildCommandDelivery settings stamp d.payload sessionId = some m →
      ∀ method ∈ deliveredMethod m, ¬s.Blocks method := by
  have hg : Guarded s := h.invariant Guarded.step (by simp [Guarded, hi])
  by_cases hq : s.quarantined
  case pos =>
    obtain ⟨_, ds, he, hd⟩ := hg.holds_step hq ha hs
    refine ⟨ds, he, fun d hm settings stamp sessionId m hb method hx hn => hn.right ?_⟩
    rw [deliveredMethod_buildCommandDelivery hb] at hx
    exact hd d hm method hx
  case neg =>
    have ht : Holds (fun _ => True) s := holds_iff.mpr fun _ _ => trivial
    obtain ⟨_, ds, he, _⟩ := ht.step (fun _ _ _ _ _ => trivial) hs
    exact ⟨ds, he, fun _ _ _ _ _ _ _ _ _ hn => hq hn.left⟩

instance (payload : Value) : Decidable (Harmless payload) :=
  inferInstanceAs (Decidable (∀ method ∈ commandMethod payload, _))

instance (s : State) : DecidablePred (Clear s)
  | .setQuarantine q => inferInstanceAs (Decidable (q → ∀ p ∈ s.payloads, Harmless p))
  | .dispatch r _ _ =>
    inferInstanceAs <| Decidable <|
      s.quarantined → ∀ method ∈ commandMethod r.modelDump, method = .str r.method
  | .connect | .superseded _ | .greeted _ _ | .deliver _ _ | .close _ | .resume _ _ _ | .lapse _
  | .disconnect => isTrue trivial

def rebootDevice : CommandDispatchRequest :=
  { lockScreen with
    method := "reboot_device"
    methodNotEmpty := by decide }

theorem not_blocks_of_sends_lockScreen :
    ∃ s s', Transition.Steps (step OfflineQueue.defaultConfig) Clear idle
        [.connect, .setQuarantine true] s ∧
      step OfflineQueue.defaultConfig s (.dispatch lockScreen true 1767225600) = some s' ∧
      ∃ d ∈ s'.sent, ∀ m ∈ buildCommandDelivery plainSettings stamp d.payload "s-1",
        ∀ method ∈ deliveredMethod m, ¬s.Blocks method := by
  have h : Transition.Steps (step OfflineQueue.defaultConfig) Clear idle
      [.connect, .setQuarantine true] _ := .of_run rfl
  refine ⟨_, _, h, rfl, _, List.mem_singleton.mpr rfl, fun m hm => ?_⟩
  obtain ⟨ds, he, hd⟩ := not_blocks_of_sends (a := .dispatch lockScreen true 1767225600) rfl h
    (by decide) rfl
  cases he
  exact hd _ (List.mem_singleton.mpr rfl) _ _ _ m hm

-- A command waits in the queue while the device is put into quarantine.
theorem reboot_quarantined :
    ∃ s s', Transition.run (step OfflineQueue.defaultConfig) idle
        [.dispatch rebootDevice true 1767225600, .resume 0 true 1767225600,
          .resume 0 true 1767225600, .resume 0 true 1767225600, .setQuarantine true, .connect,
          .greeted 0 1767225610, .resume 0 true 1767225610, .resume 0 true 1767225610] = some s ∧
      s.isBlocked "reboot_device" ∧
      step OfflineQueue.defaultConfig s (.deliver 0 true) = some s' ∧
      s'.sent = s.sent ++ [⟨0, rebootDevice.modelDump, some 0⟩] ∧
      ∃ m, buildCommandDelivery plainSettings stamp rebootDevice.modelDump "s-1" = some m ∧
        deliveredMethod m = some (.str "reboot_device") := by
  refine ⟨_, _, rfl, rfl, rfl, rfl, _, rfl, rfl⟩

end Connect

end Gateway
