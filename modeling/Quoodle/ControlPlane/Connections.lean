import Quoodle.ControlPlane.Devices
import Quoodle.Gateway.Connect

-- The presence of a device in the `devices` table, and its sessions at the gateway.
namespace ControlPlane

open Gateway

def Tables.lifecycle (t : Tables) (id : String) : Option Lifecycle :=
  (t.find id).map Device.lifecycleState

-- What the webhooks of a session are filled with. Something that is not a string makes a request
-- invalid.
structure SessionInfo where
  sessionId : String
  agentVersion : Option (Option String)
  osBuild : Option (Option String)
  connectedAt : Int
  activatedAt : Int
  policyHash : Option String
  endedAt : Int

namespace Connections

def request (id : String) (info : Nat → SessionInfo) : Connect.Webhook → Option Event
  | .online sid => do
    return .online {
      deviceId := id
      sessionId := (info sid).sessionId
      agentVersion := some (← (info sid).agentVersion)
      osBuild := ← (info sid).osBuild
      connectedAt := (info sid).connectedAt
    }
  | .activated sid =>
    some <| .activated {
      deviceId := id
      sessionId := (info sid).sessionId
      activatedAt := (info sid).activatedAt
      policyHash := some (info sid).policyHash
    }
  | .offline sid =>
    some <| .offline {
      deviceId := id
      sessionId := (info sid).sessionId
      lastSeen := (info sid).endedAt
      reason := "disconnect"
    }

def process (p : Platform) (id : String) (info : Nat → SessionInfo) (t : Tables)
    (ws : List Connect.Webhook) : Tables :=
  (ws.filterMap (request id info)).foldl (Tables.handle p) t

-- A session announces itself only while it is the current one, and no session ends while another one
-- is current that has announced itself.
def InTurn (s : Connect.State) : Connect.Action → Prop
  | .superseded sid => s.current = some sid
  | .close sid => Last s sid
  | .deliver sid ok => ok ∨ Last s sid
  | _ => True
where
  Last (s : Connect.State) (sid : Nat) : Prop :=
    ∀ t ∈ s.current, t = sid ∨ .activated t ∉ s.webhooks

inductive Effect (s s' : Connect.State) : Prop
  | quiet (hw : s'.webhooks = s.webhooks) (hc : s'.current = s.current)
  | registered (hw : s'.webhooks = s.webhooks) (hc : s'.current = some s.sessions.length)
  | online {sid : Nat} (hw : s'.webhooks = s.webhooks ++ [.online sid, .activated sid])
    (hc : s'.current = some sid) (hl : sid < s'.sessions.length)
  | offline {sid : Nat} (hw : s'.webhooks = s.webhooks ++ [.offline sid])
    (hc : s'.current = if s.current = some sid then none else s.current) (hl : InTurn.Last s sid)

variable {cfg : Gateway.OfflineQueue.Config} {s s' : Connect.State} {a : Connect.Action}

@[simp]
theorem length_settle (s : Connect.State) (q : Gateway.OfflineQueue.State) :
    (s.settle q).sessions.length = s.sessions.length := by
  simp only [Connect.State.settle]
  generalize s.sessions = ps
  induction q.drained.drop s.queue.drained.length generalizing ps
  case nil => rfl
  case cons r rs hi => simp [List.foldl_cons, hi]

theorem effect_of_leave {sid : Nat} (hl : InTurn.Last s sid) : Effect s (s.leave sid) :=
  .offline rfl rfl hl

theorem effect_of_step (ha : InTurn s a) (h : Connect.step cfg s a = some s') :
    s.sessions.length ≤ s'.sessions.length ∧ Effect s s' := by
  cases a <;> simp only [Connect.step, Option.map_eq_some_iff] at h
  case dispatch r ok now =>
    unfold Connect.State.dispatchCommand at h
    split at h
    case isTrue => cases h; exact ⟨le_rfl, .quiet rfl rfl⟩
    split at h
    case h_1 =>
      obtain ⟨q, _, rfl⟩ := Option.map_eq_some_iff.mp h
      exact ⟨le_rfl, .quiet rfl rfl⟩
    cases h
    split <;> exact ⟨le_rfl, .quiet rfl rfl⟩
  case connect =>
    cases h
    simp only [Connect.State.register]
    split
    case isTrue =>
      refine ⟨?_, .online rfl rfl ?_⟩ <;> simp [Connect.State.notifyOnline, Connect.State.enter]
    case isFalse => exact ⟨by simp, .registered rfl rfl⟩
  case superseded sid =>
    split at h <;> cases h
    case h_1 hp =>
      refine ⟨?_, .online rfl ha ?_⟩ <;> simp [Connect.State.notifyOnline, Connect.State.enter]
      exact (List.getElem?_eq_some_iff.mp hp).choose
  case greeted sid now =>
    split at h <;> cases h
    exact ⟨by simp [Connect.State.enter], .quiet rfl rfl⟩
  case deliver sid ok =>
    unfold Connect.State.deliver at h
    split at h
    case h_1 => cases h; exact ⟨by simp [Connect.State.enter], .quiet rfl rfl⟩
    case h_2 =>
      split at h <;> cases h
      case isTrue => exact ⟨by simp [Connect.State.enter], .quiet rfl rfl⟩
      case isFalse hk =>
        exact ⟨by simp [Connect.State.leave, Connect.State.enter],
          effect_of_leave (ha.resolve_left hk)⟩
    case h_3 => cases h
  case close sid =>
    split at h <;> cases h
    all_goals exact ⟨by simp [Connect.State.leave, Connect.State.enter], effect_of_leave ha⟩
  case setQuarantine q => cases h; exact ⟨le_rfl, .quiet rfl rfl⟩
  all_goals
    obtain ⟨q, _, rfl⟩ := h
    exact ⟨by simp, .quiet rfl rfl⟩

variable {p : Platform} {id : String} {info : Nat → SessionInfo} {t : Tables}

theorem process_append (ws vs : List Connect.Webhook) :
    process p id info t (ws ++ vs) = process p id info (process p id info t ws) vs := by
  simp [process, List.filterMap_append, List.foldl_append]

theorem lifecycle_update {d : Device} {f : Device → Device} (h : t.find id = some d)
    (hf : ∀ d, (f d).deviceId = d.deviceId) :
    (t.update id f).lifecycle id = some (f d).lifecycleState := by
  rw [Tables.lifecycle, Tables.find_update hf h, if_pos rfl, Option.map_some]

theorem lifecycle_activated (t : Tables) (data : ActivatedData) {now : Int} {hash : Option String}
    (ht : data.activatedAt = some now) (hh : data.policyHash = some hash) :
    (Presence.activated t data).lifecycle data.deviceId = some .online := by
  have ⟨_, hd⟩ := t.exists_find_firstOrCreate
    (.new data.deviceId data.deviceId .pendingPairing none)
  simp only [Presence.activated, ht, hh]
  exact lifecycle_update hd fun _ => rfl

theorem lifecycle_presence_offline (data : OfflineData) {d : Device} {now : Int}
    (h : t.find data.deviceId = some d) (hl : data.lastSeen = some now)
    (hq : ¬Presence.mentionsQuarantine data.reason) :
    (Presence.offline t data).lifecycle data.deviceId = some .offline := by
  simp only [Presence.offline, hl, hq]
  exact lifecycle_update h fun _ => rfl

theorem lifecycle_online (t : Tables) (sid : Nat) :
    (process p id info t [.online sid, .activated sid]).lifecycle id = some .online := by
  rw [← List.singleton_append, process_append]
  exact lifecycle_activated _
    ⟨id, (info sid).sessionId, some (info sid).activatedAt, some (info sid).policyHash⟩ rfl rfl

theorem lifecycle_offline (h : (t.lifecycle id).isSome) (sid : Nat) :
    (process p id info t [.offline sid]).lifecycle id = some .offline := by
  obtain ⟨_, hd⟩ := Option.isSome_iff_exists.mp (Option.isSome_map.symm.trans h)
  exact lifecycle_presence_offline
    ⟨id, some (info sid).sessionId, some (info sid).endedAt, "disconnect"⟩ hd rfl
    (show ¬Presence.mentionsQuarantine "disconnect" by decide)

-- The table says whether there is a current session, if this one has announced itself.
structure Agrees (p : Platform) (id : String) (info : Nat → SessionInfo) (t : Tables)
    (s : Connect.State) : Prop where
  known : ((process p id info t s.webhooks).lifecycle id).isSome
  bounded : ∀ sid, .activated sid ∈ s.webhooks → sid < s.sessions.length
  offline : s.current = none → (process p id info t s.webhooks).lifecycle id = some .offline
  online : ∀ sid, s.current = some sid → .activated sid ∈ s.webhooks →
    (process p id info t s.webhooks).lifecycle id = some .online

theorem Agrees.step (h : Agrees p id info t s) (ha : InTurn s a)
    (hs : Connect.step cfg s a = some s') : Agrees p id info t s' := by
  have ⟨hl, he⟩ := effect_of_step ha hs
  have hb (sid : Nat) (hm : .activated sid ∈ s.webhooks) : sid < s'.sessions.length :=
    (h.bounded sid hm).trans_le hl
  cases he
  case quiet hw hc =>
    refine ⟨?_, ?_, ?_, ?_⟩ <;> rw [hw]
    · exact h.known
    · exact hb
    · rw [hc]; exact h.offline
    · rw [hc]; exact h.online
  case registered hw hc =>
    refine ⟨?_, ?_, ?_, ?_⟩ <;> rw [hw]
    · exact h.known
    · exact hb
    · simp [hc]
    · intro sid hsid hm
      rw [hc] at hsid
      cases hsid
      exact absurd (h.bounded _ hm) (lt_irrefl _)
  case online sid hw hc hl =>
    have ho : (process p id info t s'.webhooks).lifecycle id = some .online := by
      rw [hw, process_append]
      exact lifecycle_online _ sid
    refine ⟨by simp [ho], fun u hu => ?_, by simp [hc], fun _ _ _ => ho⟩
    obtain hu | rfl : .activated u ∈ s.webhooks ∨ u = sid := by simpa [hw] using hu
    · exact hb u hu
    · exact hl
  case offline sid hw hc hl =>
    have ho : (process p id info t s'.webhooks).lifecycle id = some .offline := by
      rw [hw, process_append]
      exact lifecycle_offline h.known sid
    have hm (u : Nat) : .activated u ∈ s'.webhooks ↔ .activated u ∈ s.webhooks := by simp [hw]
    refine ⟨by simp [ho], fun u hu => hb u ((hm u).mp hu), fun _ => ho, fun u hu hu' => ?_⟩
    obtain ⟨hn, hu⟩ := Option.ite_none_left_eq_some.mp (hc ▸ hu)
    obtain rfl | hl := hl u hu
    · exact absurd hu hn
    · exact absurd ((hm u).mp hu') hl

-- Once the webhooks have been processed, the device is offline if it has no session, and online if
-- it has one that has announced itself.
theorem lifecycle_of_inTurn {as : List Connect.Action} (hi : Connect.Initial s)
    (ho : t.lifecycle id = some .offline)
    (h : Transition.Steps (Connect.step cfg) InTurn s as s') :
    (s'.current = none → (process p id info t s'.webhooks).lifecycle id = some .offline) ∧
      ∀ sid, s'.current = some sid → .activated sid ∈ s'.webhooks →
        (process p id info t s'.webhooks).lifecycle id = some .online := by
  have hs : Agrees p id info t s := by
    refine ⟨?_, ?_, ?_, ?_⟩ <;> simp [hi.webhooks, hi.current, process, ho]
  have hs := h.invariant Agrees.step hs
  exact ⟨hs.offline, hs.online⟩

instance (s : Connect.State) (sid : Nat) : Decidable (InTurn.Last s sid) :=
  inferInstanceAs (Decidable (∀ t ∈ s.current, t = sid ∨ .activated t ∉ s.webhooks))

instance (s : Connect.State) : DecidablePred (InTurn s)
  | .superseded sid => inferInstanceAs (Decidable (s.current = some sid))
  | .close sid => inferInstanceAs (Decidable (InTurn.Last s sid))
  | .deliver sid ok => inferInstanceAs (Decidable (ok ∨ InTurn.Last s sid))
  | .dispatch _ _ _ | .connect | .greeted _ _ | .setQuarantine _ | .resume _ _ _ | .lapse _
  | .disconnect => isTrue trivial

def exampleInfo (sid : Nat) : SessionInfo :=
  ⟨Nat.repr sid, some (some "1.0"), some none, sid, sid, some "h1", sid + 10⟩

def exampleTables : Tables :=
  ⟨[Device.new "dev-1" (some "laptop") .offline (some "h1")], []⟩

-- A device connects anew after its session has ended.
theorem lifecycle_of_inTurn_reconnected :
    ∃ s, Transition.Steps (Connect.step OfflineQueue.defaultConfig) InTurn Connect.idle
        [.connect, .close 0, .connect] s ∧ s.current = some 1 ∧
      (process examplePlatform "dev-1" exampleInfo exampleTables s.webhooks).lifecycle "dev-1" =
        some .online := by
  have h : Transition.Steps (Connect.step OfflineQueue.defaultConfig) InTurn Connect.idle
      [.connect, .close 0, .connect] _ := .of_run rfl
  exact ⟨_, h, rfl, (lifecycle_of_inTurn Connect.initial_idle rfl h).right 1 rfl (by decide)⟩

-- A session that was superseded ends after the new one has announced itself.
theorem offline_with_session :
    ∃ s, Transition.run (Connect.step OfflineQueue.defaultConfig) Connect.idle
        [.connect, .greeted 0 0, .resume 0 true 0, .deliver 0 true, .connect, .superseded 1,
          .close 0] = some s ∧ s.current = some 1 ∧
      s.webhooks = [.online 0, .activated 0, .online 1, .activated 1, .offline 0] ∧
      (process examplePlatform "dev-1" exampleInfo exampleTables s.webhooks).lifecycle "dev-1" =
        some .offline :=
  ⟨_, rfl, rfl, rfl, rfl⟩

end Connections

end ControlPlane
