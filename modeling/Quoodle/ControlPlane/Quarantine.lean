import Quoodle.ControlPlane.Policy
import Quoodle.Data.Transition

namespace ControlPlane

namespace Tables

def step (p : Platform) (t : Tables) (e : Event) : Option Tables :=
  some (t.handle p e)

def IsQuarantined (t : Tables) (id : String) : Prop :=
  ∃ d, t.find id = some d ∧ d.lifecycleState = .quarantined

-- No command that is not meant for a device in quarantine may be run on this one.
def IsBlocked (t : Tables) (id : String) : Prop :=
  ∃ d, t.find id = some d ∧ d.IsBlocked

-- The events that do not write another state to a device in quarantine: those about another device,
-- those that are refused or that fail, telemetry without a presence, and reports of quarantine.
def Keeps (p : Platform) (id : String) (t : Tables) : Event → Prop
  | .online data =>
    data.deviceId ≠ id ∨ p.masterHash = "" ∨ data.agentVersion = none ∨ data.connectedAt = none
  | .activated data =>
    data.deviceId ≠ id ∨ data.activatedAt = none ∨ data.policyHash = none
  | .offline data =>
    data.deviceId ≠ id ∨ data.lastSeen = none ∨ Presence.mentionsQuarantine data.reason
  | .telemetry data _ ok =>
    data.deviceId ≠ id ∨ (Telemetry.findDuplicateEvent t data).isSome ∨ !ok ∨
      (Telemetry.presenceState data).isNone
  | .confirm r =>
    ∀ x ∈ Pairing.authorize p r, x.2.1 = id → (t.find id).any (Pairing.isOwnedByAnother x.1)

variable {p : Platform} {t t' : Tables} {id id' : String} {f : Device → Device} {d : Device}

theorem isBlocked_iff : t.IsBlocked id ↔ t.IsQuarantined id := by
  simp only [IsBlocked, IsQuarantined, Device.isBlocked_iff]

theorem isQuarantined_update_iff (h : t.find id = some d) (hq : d.lifecycleState = .quarantined)
    (hf : ∀ d, (f d).deviceId = d.deviceId) :
    (t.update id' f).IsQuarantined id ↔ id' ≠ id ∨ (f d).lifecycleState = .quarantined := by
  simp only [IsQuarantined, find_update hf h, Option.some.injEq, exists_eq_left']
  split
  case isTrue he => simp [he]
  case isFalse he => simp [he, hq]

theorem isQuarantined_firstOrCreate (h : t.IsQuarantined id) (d' : Device) :
    (t.firstOrCreate d').IsQuarantined id :=
  have ⟨d, hd, hq⟩ := h
  ⟨d, find_firstOrCreate hd d', hq⟩

section Keeps

variable (h : t.find id = some d) (hq : d.lifecycleState = .quarantined)

include h hq

theorem keeps_online_iff (data : OnlineData) :
    t.Keeps p id (.online data) ↔ (Presence.online p t data).IsQuarantined id := by
  have hn := isQuarantined_firstOrCreate ⟨d, h, hq⟩
    (.new data.deviceId data.deviceId .pendingPairing none)
  simp only [Keeps, Presence.online]
  split
  case isTrue hm => exact iff_of_true (.inr (.inl hm)) ⟨d, h, hq⟩
  case isFalse hm =>
    split
    case h_1 hv hc =>
      rw [isQuarantined_update_iff (find_firstOrCreate h _) hq]
      · simp only [hm, hv, hc, reduceCtorEq, or_false]
        split <;> simp
      · exact fun _ => rfl
    case h_2 hs =>
      refine iff_of_true ?_ hn
      cases hv : data.agentVersion
      case none => simp
      case some v =>
        cases hc : data.connectedAt
        case none => simp
        case some c => exact absurd hc (hs v c hv)

theorem keeps_activated_iff (data : ActivatedData) :
    t.Keeps p id (.activated data) ↔ (Presence.activated t data).IsQuarantined id := by
  have hn := isQuarantined_firstOrCreate ⟨d, h, hq⟩
    (.new data.deviceId data.deviceId .pendingPairing none)
  simp only [Keeps, Presence.activated]
  split
  case h_1 ha hp =>
    rw [isQuarantined_update_iff (find_firstOrCreate h _) hq]
    · simp [ha, hp]
    · exact fun _ => rfl
  case h_2 hs =>
    refine iff_of_true ?_ hn
    cases ha : data.activatedAt
    case none => simp
    case some a =>
      cases hp : data.policyHash
      case none => simp
      case some c => exact absurd hp (hs a c ha)

theorem keeps_offline_iff (data : OfflineData) :
    t.Keeps p id (.offline data) ↔ (Presence.offline t data).IsQuarantined id := by
  simp only [Keeps, Presence.offline]
  split
  case h_1 hl =>
    rw [isQuarantined_update_iff h hq]
    · simp [hl]
    · exact fun _ => rfl
  case h_2 hl => exact iff_of_true (.inr (.inl hl)) ⟨d, h, hq⟩

theorem keeps_telemetry_iff (data : TelemetryData) (now : Int) (ok : Bool) :
    t.Keeps p id (.telemetry data now ok) ↔
      (Telemetry.ingest p t data now ok).IsQuarantined id := by
  simp only [Keeps, Telemetry.ingest]
  split
  case isTrue hs =>
    refine iff_of_true ?_ ⟨d, h, hq⟩
    obtain hs | hs | hs := hs
    · refine .inl fun he => ?_
      simp [he, h] at hs
    · exact .inr (.inl hs)
    · exact .inr (.inr (.inl hs))
  case isFalse hs =>
    simp only [not_or] at hs
    have h' : { t with telemetry := t.telemetry ++ [Telemetry.event data] }.find id = some d := h
    rw [isQuarantined_update_iff h' hq]
    · simp only [hs]
      cases hp : Telemetry.presenceState data
      case none => simp [hq]
      case some st => cases st <;> simp [Telemetry.presenceToLifecycleState]
    · exact fun _ => rfl

theorem keeps_confirm_iff (r : ConfirmRequest) :
    t.Keeps p id (.confirm r) ↔ (Pairing.confirm p t r).IsQuarantined id := by
  simp only [Keeps, Pairing.confirm]
  split
  case h_1 user id' claims ha =>
    simp only [ha, Option.mem_some_iff, forall_eq']
    have hn := isQuarantined_firstOrCreate ⟨d, h, hq⟩
      (.new id' (claims.deviceName.getD "New Device") .offline (some p.masterHash))
    have hf := find_firstOrCreate h
      (.new id' (claims.deviceName.getD "New Device") .offline (some p.masterHash))
    split
    case isTrue hs =>
      refine iff_of_true (fun he => ?_) hn
      subst he
      rwa [hf, ← h] at hs
    case isFalse hs =>
      rw [isQuarantined_update_iff hf hq]
      · by_cases he : id' = id
        case pos =>
          subst he
          rw [hf, ← h] at hs
          simp [hs, hq]
        case neg => simp [he]
      · exact fun _ => rfl
  case h_2 ha => simp [ha]; exact ⟨d, h, hq⟩

end Keeps

theorem keeps_iff (h : t.IsQuarantined id) (e : Event) :
    t.Keeps p id e ↔ (t.handle p e).IsQuarantined id := by
  obtain ⟨d, h, hq⟩ := h
  cases e
  case online data => exact keeps_online_iff h hq data
  case activated data => exact keeps_activated_iff h hq data
  case offline data => exact keeps_offline_iff h hq data
  case telemetry data now ok => exact keeps_telemetry_iff h hq data now ok
  case confirm r => exact keeps_confirm_iff h hq r

-- A device in quarantine is blocked after each of the following events if and only if none of them
-- writes another state.
theorem forall_isBlocked_iff_keeps {es : List Event} (hq : t.IsQuarantined id)
    (hr : Transition.run (step p) t es = some t') :
    (∀ before after t₁, es = before ++ after → Transition.run (step p) t before = some t₁ →
        t₁.IsBlocked id) ↔
      Transition.Steps (step p) (Keeps p id) t es t' := by
  simp only [isBlocked_iff]
  refine (Transition.Steps.iff_forall_run (I := (IsQuarantined · id)) (fun {t e t'} h hs => ?_)
    hq hr).symm
  cases hs
  exact keeps_iff h e

instance (t : Tables) : DecidablePred (Keeps p id t)
  | .online data => inferInstanceAs <| Decidable <|
    data.deviceId ≠ id ∨ p.masterHash = "" ∨ data.agentVersion = none ∨ data.connectedAt = none
  | .activated data => inferInstanceAs <| Decidable <|
    data.deviceId ≠ id ∨ data.activatedAt = none ∨ data.policyHash = none
  | .offline data => inferInstanceAs <| Decidable <|
    data.deviceId ≠ id ∨ data.lastSeen = none ∨ Presence.mentionsQuarantine data.reason
  | .telemetry data _ ok => inferInstanceAs <| Decidable <|
    data.deviceId ≠ id ∨ (Telemetry.findDuplicateEvent t data).isSome ∨ !ok ∨
      (Telemetry.presenceState data).isNone
  | .confirm r => inferInstanceAs <| Decidable <|
    ∀ x ∈ Pairing.authorize p r, x.2.1 = id → (t.find id).any (Pairing.isOwnedByAnother x.1)

def quarantinedLaptop : Device :=
  { Device.new "dev-1" (some "laptop") .quarantined (some "h1") with userId := some "u-1" }

def quarantine : OfflineData :=
  ⟨"dev-1", some "s-1", some 0, "Quarantined by policy"⟩

def heartbeat : TelemetryData :=
  ⟨"dev-1", some 10, .dict [("avg_cpu", .int 5)], none, some "s-2", some 1, none, none⟩

theorem isQuarantined_quarantinedLaptop : IsQuarantined ⟨[quarantinedLaptop], []⟩ "dev-1" :=
  ⟨quarantinedLaptop, rfl, rfl⟩

-- A device that reports nothing about its presence stays blocked.
theorem forall_isBlocked_heartbeat :
    ∃ t, Transition.run (step examplePlatform) ⟨[quarantinedLaptop], []⟩
        [.telemetry heartbeat 10 true, .offline quarantine] = some t ∧
      ∀ before after t₁, [.telemetry heartbeat 10 true, .offline quarantine] = before ++ after →
        Transition.run (step examplePlatform) ⟨[quarantinedLaptop], []⟩ before = some t₁ →
          t₁.IsBlocked "dev-1" :=
  ⟨_, rfl, (forall_isBlocked_iff_keeps isQuarantined_quarantinedLaptop rfl).mpr (.of_run rfl)⟩

def reconnected : ActivatedData :=
  ⟨"dev-1", "s-2", some 20, some none⟩

-- A device that was put into quarantine connects again, after which a command may be run that must
-- not be run in quarantine.
theorem quarantine_lifted_by_activated :
    ∃ t₁ t₂ d c, Transition.run (step examplePlatform)
        ⟨[{ quarantinedLaptop with lifecycleState := .online }], []⟩ [.offline quarantine] =
          some t₁ ∧ t₁.IsQuarantined "dev-1" ∧
      Transition.run (step examplePlatform) t₁ [.activated reconnected] = some t₂ ∧
      t₂.find "dev-1" = some d ∧ Registry.get "set_wallpaper" = some c ∧ !c.allowedInQuarantine ∧
      (evaluate (d.context "operator" none false) c (some d)).decision = .allow :=
  ⟨_, _, _, _, rfl, ⟨_, rfl, rfl⟩, rfl, rfl, rfl, rfl, rfl⟩

end Tables

end ControlPlane
