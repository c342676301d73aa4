import Quoodle.ControlPlane.Pairing

-- Who owns a device, and with which key.
namespace ControlPlane.Pairing

open Overlap (Holds Preserves)
open Transition (Steps)

variable {cfg : Config} {s : Shared} {p : Phase} {id : String} {row loaded changed : Row}

def Phase.actor : Phase → Option UserId
  | .search r | .create r | .overwrite r _ | .identify r _ | .issue r _ => r.client
  | .restore c | .claim c _ | .reply c => some c.user

-- Nobody else claimed the device after the call has read its row.
def Phase.InTime (s : Shared) : Phase → Prop
  | .overwrite _ device => ∀ row ∈ s.find device.deviceId, row.userId = none
  | .claim c device => ∀ row ∈ s.find device.deviceId, ∀ u ∈ row.userId, u = c.user
  | _ => True

instance : Decidable (p.InTime s) :=
  match p with
  | .overwrite _ device =>
    inferInstanceAs (Decidable (∀ row ∈ s.find device.deviceId, row.userId = none))
  | .claim c device =>
    inferInstanceAs (Decidable (∀ row ∈ s.find device.deviceId, ∀ u ∈ row.userId, u = c.user))
  | .search _ | .create _ | .identify _ _ | .issue _ _ | .restore _ | .reply _ => .isTrue trivial

def InTime (s : State) : Action → Prop
  | .resume k _ => ∀ p ∈ s.tasks k, p.InTime s.shared
  | .begin _ _ | .fail _ | .change _ => True

instance {s : State} : DecidablePred (InTime s)
  | .resume k _ => inferInstanceAs (Decidable (∀ p ∈ s.tasks k, p.InTime s.shared))
  | .begin _ _ | .fail _ | .change _ => .isTrue trivial

def Shared.credentials (s : Shared) (id : String) : Option (Option UserId × Option String) :=
  (s.find id).map fun row => (row.userId, row.pubkey)

def Shared.Owned (s : Shared) (id : String) (u : UserId) : Prop :=
  ∃ row, s.find id = some row ∧ row.userId = some u

def ConfirmedOwned (s : Shared) : Prop :=
  ∀ c ∈ s.confirmed, s.Owned c.2 c.1

-- What a call of `confirm` knows about the device. A user that it has read is still there.
def Phase.Known (s : Shared) : Phase → Prop
  | .claim c device =>
    device.deviceId = c.token.sub ∧ (s.find c.token.sub).isSome ∧
      ∀ u ∈ device.userId, u = c.user ∧ s.Owned c.token.sub u
  | .reply c => s.Owned c.token.sub c.user
  | _ => True

variable {u : UserId}

theorem Shared.Owned.insert (h : s.Owned id u) : (s.insert row).Owned id u :=
  have ⟨_, hr, hu⟩ := h
  ⟨_, find_insert_of_some hr, hu⟩

theorem Shared.Owned.save (h : s.Owned id u) (hu : changed.userId = loaded.userId) :
    (s.save loaded changed).Owned id u := by
  obtain ⟨row, hr, ho⟩ := h
  rw [Shared.Owned, find_save, hr]
  split
  case isTrue => exact ⟨_, rfl, by simp [Row.save, hu, ho]⟩
  case isFalse => exact ⟨_, rfl, ho⟩

theorem Shared.Owned.claim {c : Confirm} (h : s.Owned id u) (ht : (Phase.claim c loaded).InTime s) :
    (s.save loaded (c.claimed cfg loaded)).Owned id u := by
  obtain ⟨row, hr, ho⟩ := h
  rw [Shared.Owned, find_save, hr]
  split
  case isFalse => exact ⟨_, rfl, ho⟩
  case isTrue hd =>
    have hu := ht row (hd ▸ hr) u ho
    refine ⟨_, rfl, ?_⟩
    simp only [Row.save, Confirm.claimed, Rows.merge, hu, ho]
    split <;> rfl

theorem Shared.Owned.resume (h : s.Owned id u) (ht : p.InTime s) :
    (resume cfg s p).1.Owned id u := by
  cases p <;> simp only [Pairing.resume]
  case search r => split <;> exact h
  case create r =>
    split
    case isTrue => exact h
    case isFalse => exact h.insert
  case overwrite r device => exact h.save userId_renamed
  case identify r device => exact h.save userId_identified
  case issue r device => exact h
  case restore c =>
    split
    case isTrue => exact h
    case isFalse => exact h.insert
  case claim c device => exact h.claim ht
  case reply c => exact h

theorem isSome_find_resume (h : (s.find id).isSome) : ((resume cfg s p).1.find id).isSome := by
  obtain ⟨row, hr⟩ := Option.isSome_iff_exists.mp h
  have hs {loaded changed : Row} : ((s.save loaded changed).find id).isSome := by
    rw [find_save, hr]
    split <;> rfl
  have hn {row' : Row} : ((s.insert row').find id).isSome := by
    rw [find_insert_of_some hr]
    rfl
  cases p <;> simp only [resume]
  case search r => split <;> exact h
  case create r =>
    split
    case isTrue => exact h
    case isFalse => exact hn
  case restore c =>
    split
    case isTrue => exact h
    case isFalse => exact hn
  case issue r device | reply c => exact h
  all_goals exact hs

theorem known_found {r : PairRequest} (h : p ∈ found cfg r row) : p.Known s := by
  simp only [found] at h
  split at h
  case isTrue =>
    split at h
    case isTrue => cases h; trivial
    split at h <;> cases h
    trivial
  case isFalse => cases h; trivial

theorem known_begin {i : Input} (h : p ∈ (begin cfg s i).2) : p.Known s := by
  cases i <;> simp only [begin] at h
  case request r =>
    split at h
    case h_1 => exact known_found h
    case h_2 => split at h <;> cases h <;> trivial
  case confirm c =>
    split at h
    case isTrue => cases h
    case isFalse hv =>
      split at h
      case h_2 => cases h; trivial
      case h_1 device hd =>
        split at h
        case isTrue => cases h
        case isFalse hu =>
          cases h
          refine ⟨Rows.key_of_find hd, by simp [hd], fun u hu' => ?_⟩
          have he : u = c.user := by simp_all
          exact ⟨he, device, hd, hu'⟩
  case agentToken token =>
    split at h
    case isTrue => cases h
    split at h
    case h_1 => split at h <;> cases h
    case h_2 => cases h

theorem known_resume (hk : p.Known s) (ht : p.InTime s) {p' : Phase}
    (h : p' ∈ (resume cfg s p).2) : p'.Known (resume cfg s p).1 := by
  cases p <;> simp only [resume] at h ⊢
  case search r =>
    split at h
    case h_1 => cases h; trivial
    case h_2 => cases h
    case h_3 => exact known_found h
  case create r =>
    split at h <;> cases h
    trivial
  case restore c =>
    split at h <;> cases h
    case isFalse hn =>
      rw [if_neg hn]
      refine ⟨rfl, ?_, by simp [Confirm.newRow]⟩
      simp [Rows.find, Confirm.newRow]
  case claim c device =>
    cases h
    obtain ⟨hd, hf, hu⟩ := hk
    obtain ⟨row, hr⟩ := Option.isSome_iff_exists.mp hf
    rw [Phase.Known, Shared.Owned, find_save, if_pos hd, hr]
    refine ⟨_, rfl, ?_⟩
    -- The user is written, or was there before.
    simp only [Row.save, Confirm.claimed]
    by_cases he : device.userId = some c.user
    case neg => exact if_neg (Ne.symm he)
    obtain ⟨_, row', hr', ho⟩ := hu c.user he
    cases hr.symm.trans hr'
    rw [he, Rows.merge_self, ho]
  all_goals cases h <;> trivial

theorem Phase.Known.mono {s' : Shared} (h : p.Known s)
    (hf : ∀ id, (s.find id).isSome → (s'.find id).isSome)
    (ho : ∀ id u, s.Owned id u → s'.Owned id u) : p.Known s' := by
  cases p <;> try trivial
  case claim c device =>
    obtain ⟨hd, hs, hu⟩ := h
    exact ⟨hd, hf _ hs, fun u h => ⟨(hu u h).left, ho _ _ (hu u h).right⟩⟩
  case reply c => exact ho _ _ h

theorem ConfirmedOwned.resume (h : ConfirmedOwned s) (hk : p.Known s) (ht : p.InTime s) :
    ConfirmedOwned (resume cfg s p).1 := by
  intro c hc
  by_cases hm : c ∈ s.confirmed
  case pos => exact (h c hm).resume ht
  cases p
  case reply c' =>
    have he : c = (c'.user, c'.token.sub) := by
      simpa [Pairing.resume, hm] using hc
    exact he ▸ hk
  all_goals
    simp only [Pairing.resume] at hc
    first
      | exact absurd hc hm
      | (split at hc <;> exact absurd hc hm)

theorem preserves_inTime : Preserves (system cfg) InTime ConfirmedOwned (fun s p => p.Known s) where
  begin {s k i} h _ := by
    obtain hb | ⟨token, device, _, _, hb⟩ := begin_cases cfg s.shared i
    · refine ⟨?_, fun p hp => ?_⟩
      · exact hb.symm ▸ h.shared
      · exact hb.symm ▸ known_begin hp
    · refine ⟨?_, fun p hp => ?_⟩
      · simp only [system, hb]
        exact h.shared
      · simp [system, hb] at hp
  resume {s k o p} h hp hc :=
    ⟨h.shared.resume (h.tasks hp) (hc p hp), fun _ h' => known_resume (h.tasks hp) (hc p hp) h'⟩
  change {s e} h _ := h.shared
  others {s a s'} h hc hs p hk := by
    cases a
    case begin k i =>
      obtain ⟨_, rfl⟩ := Overlap.step_begin hs
      obtain hb | ⟨token, device, _, _, hb⟩ := begin_cases cfg s.shared i
      · have hb : ((system cfg).begin s.shared i).1 = s.shared := hb
        rw [Overlap.State.shared_put, hb]
        exact hk
      · simp only [Overlap.State.shared_put, system, hb]
        exact hk.mono (fun _ h => h) (fun _ _ h => h)
    case resume k o =>
      obtain ⟨p', hp, rfl⟩ := Overlap.step_resume hs
      exact hk.mono (fun _ h => isSome_find_resume h) (fun _ _ h => h.resume (hc p' hp))
    case fail k =>
      obtain rfl := Overlap.step_fail hs
      exact hk
    case change e =>
      obtain rfl := Overlap.step_change hs
      exact hk.mono (fun _ h => h) (fun _ _ h => h)

theorem credentials_save (hu : changed.userId = loaded.userId) (hp : changed.pubkey = loaded.pubkey) :
    (s.save loaded changed).credentials id = s.credentials id := by
  rw [Shared.credentials, Shared.credentials, find_save]
  split
  case isFalse => rfl
  rw [Option.map_map]
  congr 1
  funext row
  simp [Row.save, hu, hp]

theorem credentials_resume (h : s.Owned id u) (ht : p.InTime s) (ha : p.actor ≠ some u) :
    (resume cfg s p).1.credentials id = s.credentials id := by
  obtain ⟨row, hr, hu⟩ := h
  have hn {row' : Row} : (s.insert row').credentials id = s.credentials id := by
    rw [Shared.credentials, Shared.credentials, find_insert_of_some hr, hr]
  have hs {loaded changed : Row} (hd : loaded.deviceId ≠ id) :
      (s.save loaded changed).credentials id = s.credentials id := by
    rw [Shared.credentials, Shared.credentials, find_save, if_neg hd]
  cases p <;> simp only [resume]
  case search r => split <;> rfl
  case create r =>
    split
    case isTrue => rfl
    case isFalse => exact hn
  case overwrite r device =>
    refine hs fun hd => ?_
    have := ht row (hd ▸ hr)
    simp [this] at hu
  case identify r device => exact credentials_save userId_identified pubkey_identified
  case issue r device => rfl
  case restore c =>
    split
    case isTrue => rfl
    case isFalse => exact hn
  case claim c device =>
    refine hs fun hd => ha ?_
    exact congrArg some (ht row (hd ▸ hr) u hu).symm
  case reply c => rfl

def acting (s : State) : Action → Option Phase
  | .resume k _ => s.tasks k
  | .begin _ _ | .fail _ | .change _ => none

-- If no call writes a row that somebody else has claimed since it was read, a confirmed device keeps
-- its user and its key whatever others do.
theorem credentials_kept {s₁ s₂ s₃ : State} {as : List Action} {a : Action} (hi : Initial s₁)
    (h : Steps (Overlap.step (system cfg)) InTime s₁ as s₂) (hc : InTime s₂ a)
    (hs : Overlap.step (system cfg) s₂ a = some s₃) (hu : (u, id) ∈ s₂.shared.confirmed)
    (ha : ∀ p ∈ acting s₂ a, p.actor ≠ some u) :
    s₃.shared.credentials id = s₂.shared.credentials id := by
  have h₁ : Holds ConfirmedOwned (fun s p => p.Known s) s₁ := by
    refine ⟨fun c hc => ?_, fun {k p} hp => ?_⟩
    · simp [hi.right.left] at hc
    · simp [hi.right.right.right k] at hp
  have h₂ := h₁.steps preserves_inTime h
  have ho : s₂.shared.Owned id u := h₂.shared _ hu
  cases a
  case begin k i =>
    obtain ⟨_, rfl⟩ := Overlap.step_begin hs
    obtain hb | ⟨token, device, _, _, hb⟩ := begin_cases cfg s₂.shared i
    · have hb : ((system cfg).begin s₂.shared i).1 = s₂.shared := hb
      rw [Overlap.State.shared_put, hb]
    · simp only [Overlap.State.shared_put, system, hb]
      rfl
  case resume k o =>
    obtain ⟨p, hp, rfl⟩ := Overlap.step_resume hs
    exact credentials_resume ho (hc p hp) (ha p hp)
  case fail k =>
    obtain rfl := Overlap.step_fail hs
    rfl
  case change e =>
    obtain rfl := Overlap.step_change hs
    rfl

theorem credentials_kept_paired :
    ∃ s₂ s₃, Steps (Overlap.step (system exampleConfig)) InTime exampleState
        (registered ++ claimed ++ [.begin 1 (.request (exampleRequest "hw-2" "k-2" "dev-2"))]) s₂ ∧
      Overlap.step (system exampleConfig) s₂ (.resume 1 ()) = some s₃ ∧
      s₃.shared.credentials "dev-1" = s₂.shared.credentials "dev-1" ∧
      s₂.shared.credentials "dev-1" = some (some owner, some "k-1") := by
  have hr : (Transition.run (Transition.restrict (Overlap.step (system exampleConfig)) InTime)
      exampleState
      (registered ++ claimed ++ [.begin 1 (.request (exampleRequest "hw-2" "k-2" "dev-2"))])).any
        fun s => (owner, "dev-1") ∈ s.shared.confirmed ∧ (s.tasks 1).isSome ∧
          s.shared.credentials "dev-1" = some (some owner, some "k-1") ∧
          (∀ p ∈ s.tasks 1, p.actor ≠ some owner) ∧ InTime s (.resume 1 ()) := by
    decide
  obtain ⟨s₂, hs, hc⟩ := Option.any_eq_true _ _ |>.mp hr
  obtain ⟨hm, hp, hk, ha, hc⟩ := of_decide_eq_true hc
  obtain ⟨p, hp⟩ := Option.isSome_iff_exists.mp hp
  have hn : Overlap.step (system exampleConfig) s₂ (.resume 1 ()) =
      some (s₂.put 1 ((system exampleConfig).resume s₂.shared p ())) := by
    simp only [Overlap.step, hp]
  have hst := Steps.of_run hs
  exact ⟨s₂, _, hst, hn, credentials_kept ⟨rfl, rfl, rfl, fun _ => rfl⟩ hst hc hn hm ha, hk⟩

-- After these steps, the call that is not the owner's changes what the table has for the device.
def Overwrites (as : List Action) (credentials : Option UserId × Option String) : Prop :=
  ∃ s₂ s₃, Transition.run (Overlap.step (system exampleConfig)) exampleState as = some s₂ ∧
    Overlap.step (system exampleConfig) s₂ (.resume 1 ()) = some s₃ ∧
    (owner, "dev-1") ∈ s₂.shared.confirmed ∧
    (∀ p ∈ acting s₂ (.resume 1 ()), p.actor ≠ some owner) ∧
    s₂.shared.credentials "dev-1" = some (some owner, some "k-1") ∧
    s₃.shared.credentials "dev-1" = some credentials

theorem overwrites_of_any {as : List Action} {credentials : Option UserId × Option String}
    (h : (Transition.run (Overlap.step (system exampleConfig)) exampleState as).any fun s =>
      (owner, "dev-1") ∈ s.shared.confirmed ∧ (∀ p ∈ s.tasks 1, p.actor ≠ some owner) ∧
        s.shared.credentials "dev-1" = some (some owner, some "k-1") ∧
        (Overlap.step (system exampleConfig) s (.resume 1 ())).any fun s' =>
          s'.shared.credentials "dev-1" = some credentials) :
    Overwrites as credentials := by
  obtain ⟨s₂, hs, h⟩ := Option.any_eq_true _ _ |>.mp h
  obtain ⟨hm, ha, hk, h⟩ := of_decide_eq_true h
  obtain ⟨s₃, hn, h⟩ := Option.any_eq_true _ _ |>.mp h
  exact ⟨s₂, s₃, hs, hn, hm, ha, hk, of_decide_eq_true h⟩

-- A request or another user's confirmation has read the row before the device was claimed, and writes
-- it afterwards.
theorem credentials_overwritten :
    Overwrites
        (registered ++ .begin 1 (.request (exampleRequest "hw-1" "k-2" "dev-2")) :: claimed)
        (some owner, some "k-2") ∧
      Overwrites (registered ++ .begin 1 (.confirm ⟨other, exampleToken, none⟩) :: claimed)
        (some other, some "k-1") :=
  ⟨overwrites_of_any (by decide), overwrites_of_any (by decide)⟩

end ControlPlane.Pairing
