import Quoodle.ControlPlane.Pairing

-- Whom agent tokens are given to.
namespace ControlPlane.Pairing

open Overlap (Holds Preserves)
open Transition (Steps)

variable {cfg : Config} {s : Shared} {p : Phase} {id : String} {row loaded changed : Row}

-- All pair tokens for a device that are still valid are for this key.
def Shared.OnlyFor (s : Shared) (id key : String) : Prop :=
  ∀ token ∈ s.tokens, s.now < token.exp → token.sub = id → token.pubkey = key

-- A key is written only if no valid pair token is for another one, and a pair token is returned only
-- while its key is the stored one.
def Phase.Exclusive (cfg : Config) (s : Shared) : Phase → Prop
  | .create r => s.OnlyFor r.uuid (r.normalizedPubkey cfg)
  | .overwrite r device => s.OnlyFor device.deviceId (r.normalizedPubkey cfg)
  | .issue r device => ∀ row ∈ s.find device.deviceId, row.pubkey = some (r.normalizedPubkey cfg)
  | .restore c => s.OnlyFor c.token.sub c.token.pubkey
  | .claim c device => s.OnlyFor device.deviceId (normalizePubkey cfg c.token.pubkey)
  | .search _ | .identify _ _ | .reply _ => True

instance {key : String} : Decidable (s.OnlyFor id key) :=
  inferInstanceAs (Decidable (∀ token ∈ s.tokens, _))

instance : Decidable (p.Exclusive cfg s) :=
  match p with
  | .create r => inferInstanceAs (Decidable (s.OnlyFor r.uuid (r.normalizedPubkey cfg)))
  | .overwrite r device =>
    inferInstanceAs (Decidable (s.OnlyFor device.deviceId (r.normalizedPubkey cfg)))
  | .issue r device =>
    inferInstanceAs
      (Decidable (∀ row ∈ s.find device.deviceId, row.pubkey = some (r.normalizedPubkey cfg)))
  | .restore c => inferInstanceAs (Decidable (s.OnlyFor c.token.sub c.token.pubkey))
  | .claim c device =>
    inferInstanceAs (Decidable (s.OnlyFor device.deviceId (normalizePubkey cfg c.token.pubkey)))
  | .search _ | .identify _ _ | .reply _ => .isTrue trivial

def Exclusive (cfg : Config) (s : State) : Action → Prop
  | .resume k _ => ∀ p ∈ s.tasks k, p.Exclusive cfg s.shared
  | .begin _ _ | .fail _ | .change _ => True

instance {s : State} : DecidablePred (Exclusive cfg s)
  | .resume k _ =>
    inferInstanceAs (Decidable (∀ p ∈ s.tasks k, p.Exclusive cfg s.shared))
  | .begin _ _ | .fail _ | .change _ => .isTrue trivial

-- Every valid pair token is for the key of its device, as it was for every agent token that was
-- returned.
structure Matching (s : Shared) : Prop where
  tokens : ∀ token ∈ s.tokens, s.now < token.exp → ∀ row ∈ s.find token.sub,
    row.pubkey = some token.pubkey
  grants : ∀ g ∈ s.grants, g.stored = some g.token.pubkey

theorem Matching.insert {key : String} (h : Matching s) (ho : s.OnlyFor row.deviceId key)
    (hk : row.pubkey = some key) : Matching (s.insert row) := by
  refine ⟨fun token ht hv row' hr => ?_, h.grants⟩
  rw [find_insert, Option.mem_def, Option.or_eq_some_iff] at hr
  cases hr
  case inl hr => exact h.tokens token ht hv row' hr
  case inr hr =>
    obtain rfl : row' = row := by simpa using List.mem_of_find?_eq_some hr.right
    rw [hk, ho token ht hv (Rows.key_of_find hr.right).symm]

theorem Matching.save (h : Matching s)
    (hk : changed.pubkey = loaded.pubkey ∨
      ∃ key, changed.pubkey = some key ∧ s.OnlyFor loaded.deviceId key) :
    Matching (s.save loaded changed) := by
  refine ⟨fun token ht hv row' hr => ?_, h.grants⟩
  rw [find_save] at hr
  split at hr
  case isFalse => exact h.tokens token ht hv row' hr
  case isTrue hd =>
    obtain ⟨row, hr', rfl⟩ := Option.map_eq_some_iff.mp hr
    have hm := h.tokens token ht hv row hr'
    by_cases he : changed.pubkey = loaded.pubkey
    case pos => simpa [Row.save, he] using hm
    obtain ⟨key, hk, ho⟩ := hk.resolve_left he
    rw [ho token ht hv hd.symm, ← hk]
    exact if_neg he

theorem pubkey_pairToken {r : PairRequest} :
    (pairToken cfg s r row).pubkey = r.normalizedPubkey cfg := by
  rw [pairToken]

theorem Matching.issue {token : PairToken} (h : Matching s)
    (hk : ∀ row ∈ s.find token.sub, row.pubkey = some token.pubkey) :
    Matching { s with tokens := s.tokens ++ [token] } := by
  refine ⟨fun token' ht hv row hr => ?_, h.grants⟩
  cases List.mem_append.mp ht
  case inl ht => exact h.tokens token' ht hv row hr
  case inr ht =>
    obtain rfl := List.mem_singleton.mp ht
    exact hk row hr

theorem Matching.resume (h : Matching s) (he : p.Exclusive cfg s) : Matching (resume cfg s p).1 := by
  cases p <;> simp only [Pairing.resume]
  case search r => split <;> exact h
  case create r =>
    have hk : (r.newRow cfg).pubkey = some (r.normalizedPubkey cfg) := rfl
    split
    case isTrue => exact h
    case isFalse => exact h.insert he hk
  case overwrite r device => exact h.save (.inr ⟨_, pubkey_renamed, he⟩)
  case identify r device => exact h.save (.inl pubkey_identified)
  case issue r device =>
    refine h.issue fun row hr => ?_
    rw [pubkey_pairToken]
    exact he row hr
  case restore c =>
    have hk : c.newRow.pubkey = some c.token.pubkey := rfl
    split
    case isTrue => exact h
    case isFalse => exact h.insert he hk
  case claim c device => exact h.save (.inr ⟨_, pubkey_claimed, he⟩)
  case reply c => exact ⟨h.tokens, h.grants⟩

theorem Matching.begin {i : Input} (h : Matching s) : Matching (begin cfg s i).1 := by
  obtain hb | ⟨token, device, hv, hd, hb⟩ := begin_cases cfg s i
  · exact hb.symm ▸ h
  · have hv : token ∈ s.tokens ∧ s.now < token.exp := by simpa [Shared.isValid] using hv
    rw [hb]
    refine ⟨h.tokens, List.forall_mem_append.mpr ⟨h.grants, ?_⟩⟩
    simpa using h.tokens token hv.left hv.right device hd

theorem preserves_exclusive :
    Preserves (system cfg) (Exclusive cfg) Matching (fun _ _ => True) where
  begin h _ := ⟨h.shared.begin, fun _ _ => trivial⟩
  resume h hp he := ⟨h.shared.resume (he _ hp), fun _ _ => trivial⟩
  change {s e} h _ := by
    cases e
    refine ⟨fun token ht hv => h.shared.tokens token ht ?_, h.shared.grants⟩
    have hv : s.shared.now + _ < token.exp := hv
    omega
  others _ _ _ _ _ := trivial

-- If no key is written while a valid pair token is for another one, agent tokens are returned for
-- stored keys only.
theorem stored_of_exclusive {s s' : State} {as : List Action} (hi : Initial s)
    (h : Steps (Overlap.step (system cfg)) (Exclusive cfg) s as s') :
    ∀ g ∈ s'.shared.grants, g.stored = some g.token.pubkey := by
  have hs : Holds Matching (fun _ _ => True) s := by
    refine ⟨⟨?_, ?_⟩, fun _ => trivial⟩
    · simp [hi.left]
    · simp [hi.right.right.left]
  exact (hs.steps preserves_exclusive h).shared.grants

theorem stored_of_exclusive_paired :
    ∃ as s', Steps (Overlap.step (system exampleConfig)) (Exclusive exampleConfig) exampleState as s' ∧
      s'.shared.grants.map Grant.token = [exampleToken] ∧
      ∀ g ∈ s'.shared.grants, g.stored = some g.token.pubkey := by
  let as : List Action := registered ++ claimed ++ [
    .begin 1 (.agentToken exampleToken), .change (.wait 10),
    .begin 1 (.request (exampleRequest "hw-2" "k-2" "dev-2")), .resume 1 (), .resume 1 ()]
  have hr : (Transition.run (Transition.restrict (Overlap.step (system exampleConfig))
      (Exclusive exampleConfig)) exampleState as).any
        (·.shared.grants.map Grant.token = [exampleToken]) := by
    decide
  obtain ⟨s', hs, hg⟩ := Option.any_eq_true _ _ |>.mp hr
  have hst := Steps.of_run hs
  refine ⟨as, s', hst, of_decide_eq_true hg, ?_⟩
  exact stored_of_exclusive ⟨rfl, rfl, rfl, fun _ => rfl⟩ hst

-- A request for the same hardware got a token for another key. Then the agent asks again, its user
-- confirms, and the first token is still good for an agent token. No two calls overlap.
theorem granted_to_other_key :
    ∃ as s', Transition.run (Overlap.step (system exampleConfig)) exampleState as = some s' ∧
      ∃ g ∈ s'.shared.grants, g.token.sub = "dev-1" ∧ g.token.pubkey = "k-2" ∧
        g.stored = some "k-1" := by
  let as : List Action := [
      .begin 0 (.request (exampleRequest "hw-1" "k-2" "dev-1")), .resume 0 (), .resume 0 (),
      .begin 0 (.request (exampleRequest "hw-1" "k-1" "dev-2")), .resume 0 (), .resume 0 (),
      .resume 0 ()] ++ claimed ++ [
      .begin 0 (.agentToken ⟨"dev-1", some "laptop", "k-2", some "hw-1", 300⟩)]
  have hr : (Transition.run (Overlap.step (system exampleConfig)) exampleState as).any fun s =>
      ∃ g ∈ s.shared.grants, g.token.sub = "dev-1" ∧ g.token.pubkey = "k-2" ∧
        g.stored = some "k-1" := by
    decide
  obtain ⟨s', hs, hg⟩ := Option.any_eq_true _ _ |>.mp hr
  exact ⟨as, s', hs, of_decide_eq_true hg⟩

end ControlPlane.Pairing
