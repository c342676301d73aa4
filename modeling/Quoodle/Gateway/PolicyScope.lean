import Quoodle.Gateway.AppLock
import Quoodle.Gateway.Drain

-- Which bundle a device gets, in runs with pushes, connections and restarts.
namespace Gateway.PolicyScope

open OfflineQueue (Floats)

def defaults (cfg : Settings) (now : String) : Policy where
  current := [
    ("policy_version", .str cfg.policyVersion),
    ("policy_hash", .str cfg.policyHash),
    ("policy_url", .none),
    ("effective_from", .str now),
    ("signature", .none),
    ("app_lock", .none)
  ]
  deviceAppLock := []

def stateText (p : Policy) : List Char :=
  let payload := Value.dict [
    ("current", .dict p.current),
    ("device_app_lock", .dict p.deviceAppLock)
  ]
  dumps Number.format false payload.json

-- Models `_load_state`. Members that are missing or of another type are left as they are.
def loadState (F : Floats) (p : Policy) (text : List Char) : Policy :=
  match Value.loads F.read text with
  | none => p
  | some raw =>
    { current :=
        match (raw.getItem "current").bind Value.items with
        | some ms => ms.foldl (fun o m => Json.assign m.1 m.2 o) p.current
        | none => p.current
      deviceAppLock :=
        match (raw.getItem "device_app_lock").bind Value.items with
        | some ms => Json.assignAll (ms.filter (·.2.isDict))
        | none => p.deviceAppLock }

-- A call of `push_policy` that waits for the connections or for a message to be sent, with the
-- devices and sessions to which it still has to send one.
structure Call where
  targets : List String
  entries : Option (List (String × String))

-- A message that was sent, with the devices that the push was restricted to, if it was sent by one,
-- and the pushes at that time, the last one first.
structure Sent where
  deviceId : String
  message : Value
  targets : List String
  pushes : List PolicyPushRequest

structure State where
  policy : Policy
  file : Option (List Char)
  connected : List (String × String)
  calls : List Call
  pushes : List PolicyPushRequest
  sent : List Sent

inductive Action where
  | push (payload : Value) (now : String)
  | allEntries (i : Nat)
  | send (i : Nat) (stamp : Stamp)
  | abort (i : Nat)
  | register (deviceId sessionId : String)
  | sendCurrent (deviceId sessionId : String) (stamp : Stamp)
  | unregister (deviceId : String)
  | restart (now : String)

def init (cfg : Settings) (now : String) : State :=
  ⟨defaults cfg now, none, [], [], [], []⟩

def State.send (cfg : Settings) (s : State) (targets : List String) (stamp : Stamp)
    (entry : String × String) : State :=
  match s.policy.buildMessage cfg stamp entry.1 entry.2 with
  | none => s
  | some m => { s with sent := ⟨entry.1, m, targets, s.pushes⟩ :: s.sent }

def Call.list (connected : List (String × String)) : Call → Call
  | ⟨[], none⟩ => ⟨[], some connected⟩
  | ⟨targets, none⟩ => ⟨targets, some (connected.filter (·.1 ∈ targets))⟩
  | call => call

variable (cfg : Settings) (conv : Conversions) (F : Floats)

def step (s : State) : Action → State
  | .push payload now =>
    match PolicyPushRequest.ofValue conv payload with
    | none => s
    | some r =>
      let policy := s.policy.update r now
      { s with
        policy
        file := some (stateText policy)
        pushes := r :: s.pushes
        calls := s.calls ++ [⟨r.targetDeviceIds, none⟩] }
  | .allEntries i => { s with calls := s.calls.modify i (·.list s.connected) }
  | .send i stamp =>
    match s.calls[i]? with
    | some ⟨targets, some (entry :: entries)⟩ =>
      { s.send cfg targets stamp entry with calls := s.calls.set i ⟨targets, some entries⟩ }
    | _ => s
  | .abort i => { s with calls := s.calls.eraseIdx i }
  | .register deviceId sessionId =>
    { s with connected := Json.assign deviceId sessionId s.connected }
  | .sendCurrent deviceId sessionId stamp => s.send cfg [] stamp (deviceId, sessionId)
  | .unregister deviceId =>
    { s with connected := s.connected.filter (·.1 ≠ deviceId) }
  | .restart now =>
    { s with
      policy := s.file.elim (defaults cfg now) (loadState F (defaults cfg now))
      connected := []
      calls := [] }

def latest (p : PolicyPushRequest → Bool) (pushes : List PolicyPushRequest) : Option Value :=
  (pushes.filter p).findSome? (·.appLock)

def scopedAppLock (pushes : List PolicyPushRequest) (deviceId : String) : Value :=
  latest (deviceId ∈ ·.targetDeviceIds) pushes |>.or (latest (·.targetDeviceIds = []) pushes)
    |>.getD .none

def HasAppLock (m appLock : Value) : Prop :=
  ∃ body : Value, m.getItem "body" = some body ∧ body.getItem "app_lock" = some appLock

structure Sent.Scoped (x : Sent) : Prop where
  appLock : HasAppLock x.message (scopedAppLock x.pushes x.deviceId)
  targets : x.targets ≠ [] → x.deviceId ∈ x.targets

section Members

variable {α : Type} {ms : List (String × α)} {x : α} {ids : List String} {d : String}

theorem lookup_foldl_assign_of_notMem (h : d ∉ ids) :
    (ids.foldl (fun ms d => Json.assign d x ms) ms).lookup d = ms.lookup d := by
  induction ids generalizing ms
  case nil => rfl
  case cons e ids hi =>
    rw [List.mem_cons, not_or] at h
    rw [List.foldl_cons, hi h.right, Json.lookup_assign_of_ne h.left]

end Members

section Restart

variable {F : Floats} {p p' : Policy}

def members (version hash url since signature appLock : Value) : List (String × Value) :=
  [("policy_version", version), ("policy_hash", hash), ("policy_url", url),
    ("effective_from", since), ("signature", signature), ("app_lock", appLock)]

structure Complete (p : Policy) (appLock : Value) : Prop where
  current : ∃ version hash url since signature,
    p.current = members version hash url since signature appLock
  nodup : (Json.keys p.deviceAppLock).Nodup
  dicts : ∀ m ∈ p.deviceAppLock, m.2.isDict

theorem complete_defaults (cfg : Settings) (now : String) : Complete (defaults cfg now) .none where
  current := ⟨_, _, _, _, _, rfl⟩
  nodup := .nil
  dicts := by simp [defaults]

theorem loadState_stateText {appLock appLock' : Value} (h : Complete p appLock)
    (h' : Complete p' appLock') : loadState F p' (stateText p) = p := by
  obtain ⟨_, _, _, _, _, hc⟩ := h.current
  obtain ⟨_, _, _, _, _, hc'⟩ := h'.current
  obtain ⟨ms, hms⟩ : ∃ ms, ms = [("current", Value.dict p.current),
    ("device_app_lock", .dict p.deviceAppLock)] := ⟨_, rfl⟩
  obtain ⟨raw, hr⟩ : ∃ raw, raw = Value.dict ms := ⟨_, rfl⟩
  have hl : Value.loads F.read (stateText p) = some raw :=
    hr ▸ hms ▸ OfflineQueue.loads_print F .minimal _
  have hk (k : String) : raw.getItem k = ms.lookup k :=
    hr ▸ Value.getItem_dict (by simp [hms, Json.keys]) k
  rw [hms] at hk
  have h₁ : raw.getItem "current" = some (.dict p.current) := hk "current"
  have h₂ : raw.getItem "device_app_lock" = some (.dict p.deviceAppLock) := hk "device_app_lock"
  have hi : (Value.dict p.current).items = some p.current :=
    items_dict (by simp [hc, members, Json.keys])
  have hd : p.deviceAppLock.filter (·.2.isDict) = p.deviceAppLock :=
    List.filter_eq_self.mpr h.dicts
  simp only [loadState, hl, h₁, h₂, Option.bind_some, hi, items_dict h.nodup, hd,
    Json.assignAll_of_nodup h.nodup]
  congr 1
  rw [hc, hc']
  simp [members, Json.assign]

end Restart

section Push

variable {cfg : Settings} {conv : Conversions} {r : PolicyPushRequest} {pushes : List PolicyPushRequest}

theorem of_ofValue {payload : Value} (h : PolicyPushRequest.ofValue conv payload = some r) :
    "" ∉ r.targetDeviceIds ∧ ∀ appLock, r.appLock = some appLock → appLock.isDict := by
  simp only [PolicyPushRequest.ofValue, Option.bind_eq_bind, Option.bind_eq_some_iff] at h
  obtain ⟨_, _, _, _, _, _, _, _, _, _, bundle, _, ids, _, targets, ht, h⟩ := h
  obtain rfl := Option.some_inj.mp h
  constructor
  · obtain ⟨_, ht⟩ := Option.ite_none_left_eq_some.mp ht
    obtain rfl := Option.some_inj.mp ht
    simp
  · rintro appLock ha
    obtain ⟨b, _, rfl⟩ := Option.map_eq_some_iff.mp ha
    rfl

theorem latest_cons (p : PolicyPushRequest → Bool) (r : PolicyPushRequest)
    (pushes : List PolicyPushRequest) :
    latest p (r :: pushes) = (if p r then r.appLock else none).or (latest p pushes) := by
  rw [latest, List.filter_cons]
  split
  case isTrue h => rw [List.findSome?_cons]; cases r.appLock <;> rfl
  case isFalse h => rfl

theorem Complete.update {p : Policy} {appLock : Value} (h : Complete p appLock)
    (hr : ∀ appLock, r.appLock = some appLock → appLock.isDict) (now : String) :
    Complete (p.update r now)
      (((if r.targetDeviceIds = [] then r.appLock else none).getD appLock)) := by
  obtain ⟨_, _, _, _, _, hc⟩ := h.current
  refine ⟨⟨_, _, _, _, _, congrArg (members _ _ _ _ _) ?_⟩, ?_, ?_⟩
  · rw [hc]
    rcases r.appLock <;> rcases r.targetDeviceIds <;> rfl
  · simp only [Policy.update]
    split
    case h_1 l _ =>
      rw [← List.foldl_map (f := (·, l)) (g := fun o m => Json.assign m.1 m.2 o)]
      exact Json.nodup_keys_foldl_assign h.nodup
    case h_2 => exact h.nodup
  · simp only [Policy.update]
    split
    case h_1 l hl =>
      rw [← List.foldl_map (f := (·, l)) (g := fun o m => Json.assign m.1 m.2 o)]
      intro m hm
      rcases Json.mem_of_mem_foldl_assign hm with hm | hm
      · exact h.dicts m hm
      · obtain ⟨_, _, rfl⟩ := List.mem_map.mp hm
        exact hr l hl
    case h_2 => exact h.dicts

theorem lookup_update (p : Policy) (r : PolicyPushRequest) (now d : String) :
    (p.update r now).deviceAppLock.lookup d =
      (if d ∈ r.targetDeviceIds then r.appLock else none).or (p.deviceAppLock.lookup d) := by
  simp only [Policy.update]
  cases r.appLock
  case none => simp
  case some l =>
    by_cases hd : d ∈ r.targetDeviceIds
    case pos => simp only [if_pos hd, lookup_foldl_assign (.inl hd), Option.some_or]
    case neg => simp only [if_neg hd, lookup_foldl_assign_of_notMem hd, Option.none_or]

end Push

structure Valid (s : State) : Prop where
  policy : Complete s.policy ((latest (·.targetDeviceIds = []) s.pushes).getD .none)
  device : ∀ d, s.policy.deviceAppLock.lookup d = latest (d ∈ ·.targetDeviceIds) s.pushes
  file : s.file = none ∧ s.pushes = [] ∨ s.file = some (stateText s.policy)
  blank : ∀ r ∈ s.pushes, "" ∉ r.targetDeviceIds
  calls : ∀ c ∈ s.calls, c.targets ≠ [] → ∀ es ∈ c.entries, ∀ e ∈ es, e.1 ∈ c.targets
  sent : ∀ x ∈ s.sent, x.Scoped

namespace Valid

variable {cfg : Settings} {conv : Conversions} {F : Floats} {s : State}

theorem init (cfg : Settings) (now : String) : Valid (PolicyScope.init cfg now) where
  policy := complete_defaults cfg now
  device := fun _ => rfl
  file := .inl ⟨rfl, rfl⟩
  blank := by simp [PolicyScope.init]
  calls := by simp [PolicyScope.init]
  sent := by simp [PolicyScope.init]

theorem hasAppLock (h : Valid s) {stamp : Stamp} {d sessionId : String} {m : Value}
    (hm : s.policy.buildMessage cfg stamp d sessionId = some m) :
    HasAppLock m (scopedAppLock s.pushes d) := by
  obtain ⟨_, _, _, _, _, hc⟩ := h.policy.current
  have hk (k : String) (hk : k ≠ "sig") : m.getItem k = _ :=
    (getItem_sign hm hk).trans (Value.getItem_dict (by simp [Json.keys]) k)
  refine ⟨_, hk _ (by decide), ?_⟩
  have hs : (if d = "" then none else s.policy.deviceAppLock.lookup d) =
      latest (d ∈ ·.targetDeviceIds) s.pushes := by
    split
    case isFalse => exact h.device d
    case isTrue hd =>
      have hn : s.pushes.filter (d ∈ ·.targetDeviceIds) = [] :=
        List.filter_eq_nil_iff.mpr fun r hr => by simpa [hd] using h.blank r hr
      rw [latest, hn, List.findSome?_nil]
  rw [hs, scopedAppLock]
  cases latest (d ∈ ·.targetDeviceIds) s.pushes
  case none =>
    simp only [hc]
    exact Value.getItem_dict (by simp [members, Json.keys]) _
  case some appLock => exact getItem_dict_append ..

theorem send (h : Valid s) (stamp : Stamp) {targets : List String} {entry : String × String}
    (ht : targets ≠ [] → entry.1 ∈ targets) : Valid (s.send cfg targets stamp entry) := by
  unfold State.send
  split
  case h_1 => exact h
  case h_2 m hm =>
    refine { h with sent := fun x hx => ?_ }
    rcases List.mem_cons.mp hx with rfl | hx
    · exact ⟨h.hasAppLock hm, ht⟩
    · exact h.sent x hx

theorem push (h : Valid s) {payload : Value} {r : PolicyPushRequest} (now : String)
    (hr : PolicyPushRequest.ofValue conv payload = some r) :
    Valid { s with
      policy := s.policy.update r now
      file := some (stateText (s.policy.update r now))
      pushes := r :: s.pushes
      calls := s.calls ++ [⟨r.targetDeviceIds, none⟩] } := by
  obtain ⟨hb, hd⟩ := of_ofValue hr
  refine { policy := ?_, device := fun d => ?_, file := .inr rfl, blank := ?_, calls := ?_, sent := h.sent }
  · have hu := h.policy.update hd now
    simp only [latest_cons, decide_eq_true_eq, Option.getD_or]
    exact hu
  · simp only [lookup_update, latest_cons, h.device, decide_eq_true_eq]
  · rintro r' hr'
    rcases List.mem_cons.mp hr' with rfl | hr'
    · exact hb
    · exact h.blank r' hr'
  · rintro c hc
    rcases List.mem_append.mp hc with hc | hc
    · exact h.calls c hc
    · rw [List.mem_singleton.mp hc]
      simp

theorem targets_list {c : Call} {connected : List (String × String)}
    (h : c.targets ≠ [] → ∀ es ∈ c.entries, ∀ e ∈ es, e.1 ∈ c.targets) :
    (c.list connected).targets ≠ [] →
      ∀ es ∈ (c.list connected).entries, ∀ e ∈ es, e.1 ∈ (c.list connected).targets := by
  unfold Call.list
  split
  case h_1 => simp
  case h_2 => simp
  case h_3 => exact h

theorem step (h : Valid s) (a : Action) : Valid (PolicyScope.step cfg conv F s a) := by
  cases a
  case push payload now =>
    simp only [PolicyScope.step]
    split
    case h_1 => exact h
    case h_2 r hr => exact h.push now hr
  case allEntries i =>
    refine { h with calls := fun c hc => ?_ }
    obtain ⟨j, hj⟩ := List.mem_iff_getElem?.mp hc
    rw [PolicyScope.step, List.getElem?_modify] at hj
    obtain ⟨c', hc', rfl⟩ := Option.map_eq_some_iff.mp hj
    have hm := h.calls c' (List.mem_of_getElem? hc')
    split
    case isFalse => exact hm
    case isTrue => exact targets_list hm
  case send i stamp =>
    simp only [PolicyScope.step]
    split
    case h_2 => exact h
    case h_1 targets entry entries hc =>
      have hm := h.calls _ (List.mem_of_getElem? hc)
      have hs : Valid (s.send cfg targets stamp entry) :=
        h.send stamp fun ht => hm ht _ rfl entry List.mem_cons_self
      refine { hs with calls := fun c hc => ?_ }
      rcases List.mem_or_eq_of_mem_set hc with hc | rfl
      · exact h.calls c hc
      · rintro ht es ⟨⟩ e he
        exact hm ht _ rfl e (List.mem_cons_of_mem _ he)
  case abort i => exact { h with calls := fun c hc => h.calls c (List.mem_of_mem_eraseIdx hc) }
  case register => exact { h with }
  case sendCurrent d sessionId stamp => exact h.send stamp (absurd rfl)
  case unregister => exact { h with }
  case restart now =>
    obtain ⟨hf, hp⟩ | hf := h.file
    case inl =>
      refine { h with policy := ?_, device := ?_, file := .inl ⟨hf, hp⟩, calls := by simp [PolicyScope.step] }
      · simp only [PolicyScope.step, hf, hp]
        exact complete_defaults cfg now
      · simp only [PolicyScope.step, hf, hp]
        exact fun _ => rfl
    case inr =>
      have hl : loadState F (defaults cfg now) (stateText s.policy) = s.policy :=
        loadState_stateText h.policy (complete_defaults cfg now)
      simp only [PolicyScope.step, hf, Option.elim_some, hl]
      exact { h with file := .inr rfl, calls := by simp }

end Valid

-- In every state that is reached, the message for a device would have the bundle that the pushes so
-- far say, and so had every message that was sent.
theorem scoped_of_run (now : String) (as : List Action) :
    let s := as.foldl (step cfg conv F) (init cfg now)
    (∀ stamp d sessionId m, s.policy.buildMessage cfg stamp d sessionId = some m →
      HasAppLock m (scopedAppLock s.pushes d)) ∧ ∀ x ∈ s.sent, x.Scoped := by
  have h : Valid (as.foldl (step cfg conv F) (init cfg now)) :=
    List.foldlRecOn as _ (Valid.init cfg now) fun _ hs a _ => hs.step a
  exact ⟨fun _ _ _ _ => h.hasAppLock, h.sent⟩

def exampleSettings : Settings :=
  ⟨"gateway", 30, 60, "hash", "1", false, false, none, fun _ => ""⟩

def examplePush : Action :=
  .push (.dict [
    ("policy_version", .str "2"), ("policy_hash", .str "hash"), ("policy_url", .str ""),
    ("signed_at", .str ""), ("signature", .str ""),
    ("app_lock", .dict [("policy_version", .str "2"), ("policy_hash", .str "hash")]),
    ("target_device_ids", .list [.str " device "])]) "now"

def exampleState : State :=
  [examplePush, .restart "later"].foldl
    (step exampleSettings ⟨fun _ => none, fun _ => none⟩ OfflineQueue.exampleFloats)
    (init exampleSettings "now")

theorem scoped_after_restart :
    scopedAppLock exampleState.pushes "device" ≠ .none ∧
      ∃ m, exampleState.policy.buildMessage exampleSettings ⟨"1", "later"⟩ "device" "session" = some m ∧
        HasAppLock m (scopedAppLock exampleState.pushes "device") := by
  obtain ⟨m, hm⟩ : ∃ m, exampleState.policy.buildMessage exampleSettings ⟨"1", "later"⟩ "device"
    "session" = some m := ⟨_, rfl⟩
  exact ⟨by decide, m, hm, (scoped_of_run _ _ _ "now" _).left _ _ _ m hm⟩

end Gateway.PolicyScope
