import Quoodle.ControlPlane.Accounts

-- What the users of a role are permitted to do: what is stored, what is shown, and what is enforced.
namespace ControlPlane.RolePermissions

open Accounts (lower)
open Rows (find key_of_find)

inductive Role where
  | admin | operator | viewer
  deriving DecidableEq

def Role.name : Role → String
  | .admin => "admin"
  | .operator => "operator"
  | .viewer => "viewer"

def Role.ofName (text : String) : Option Role :=
  [.admin, .operator, .viewer].find? (·.name = text)

def isInteger (key : String) : Bool :=
  match key.toList with
  | ['0'] => true
  | '-' :: cs => digits cs && value cs ≤ 2 ^ 63
  | cs => digits cs && value cs < 2 ^ 63
where
  digits (cs : List Char) : Bool :=
    cs.head?.any (· ≠ '0') && cs.all Char.isDigit
  value (cs : List Char) : Nat :=
    cs.foldl (fun n c => 10 * n + (c.toNat - '0'.toNat)) 0

structure Permissions where
  entries : List (String × Bool)
  nodup : (entries.map Prod.fst).Nodup
  texts : ∀ e ∈ entries, isInteger e.1 = false

structure SettingRolePermission where
  role : String
  permissionKey : String
  allowed : Bool

def allowed (permissions : List (String × Bool)) (permission : String) : Bool :=
  ((find Prod.fst permissions permission).map Prod.snd).getD false

section Source

def defaultMatrix : Role → List (String × Bool)
  | .admin => [
    ("view_devices", true), ("manage_devices", true), ("send_commands", true),
    ("send_sensitive_commands", true), ("view_alerts", true), ("acknowledge_alerts", true),
    ("view_compliance", true), ("manage_compliance", true), ("view_audit", true),
    ("manage_users", true), ("manage_settings", true), ("export_data", true),
    ("pair_devices", true)]
  | .operator => [
    ("view_devices", true), ("manage_devices", false), ("send_commands", true),
    ("send_sensitive_commands", false), ("view_alerts", true), ("acknowledge_alerts", true),
    ("view_compliance", true), ("manage_compliance", false), ("view_audit", true),
    ("manage_users", false), ("manage_settings", false), ("export_data", true),
    ("pair_devices", true)]
  | .viewer => [
    ("view_devices", true), ("manage_devices", false), ("send_commands", false),
    ("send_sensitive_commands", false), ("view_alerts", false), ("acknowledge_alerts", false),
    ("view_compliance", true), ("manage_compliance", false), ("view_audit", true),
    ("manage_users", false), ("manage_settings", false), ("export_data", false),
    ("pair_devices", true)]

variable (table : List SettingRolePermission)

def permissionsForRole (role : String) : List (String × Bool) :=
  let role := lower (trim role)
  if role = "" then []
  else
    match table.filter (·.role = role) with
    | [] => ((Role.ofName role).map defaultMatrix).getD []
    | rows => rows.map fun row => (row.permissionKey, row.allowed)

def userCan (user : Option Account) (permission : String) : Bool :=
  match user with
  | none => false
  | some user =>
    if user.role = "admin" then true
    else if !user.isActive then false
    else allowed (permissionsForRole table user.role) permission

-- The entries of the second array replace those of the first.
def arrayMerge (a b : List (String × Bool)) : List (String × Bool) :=
  a.map (fun e => (find Prod.fst b e.1).getD e) ++ b.filter (·.1 ∉ a.map Prod.fst)

def ksort (a : List (String × Bool)) : List (String × Bool) :=
  a.insertionSort fun e e' => e.1 ≤ e'.1

def matrix (role : Role) : List (String × Bool) :=
  let stored := permissionsForRole table role.name
  ksort (if stored ≠ [] then arrayMerge (defaultMatrix role) stored else defaultMatrix role)

def replaceRolePermissions (role : String) (permissions : Permissions) :
    List SettingRolePermission :=
  match Role.ofName (lower (trim role)) with
  | none => table
  | some role => table.filter (·.role ≠ role.name) ++
    permissions.entries.map fun e => ⟨role.name, e.1, e.2⟩

end Source

structure Call where
  role : String
  permissions : Permissions

def Call.isFor (c : Call) (r : Role) : Bool :=
  Role.ofName (lower (trim c.role)) = some r

def replaceAll (table : List SettingRolePermission) (calls : List Call) :
    List SettingRolePermission :=
  calls.foldl (fun table c => replaceRolePermissions table c.role c.permissions) table

def lastFor (r : Role) : List Call → Option Permissions
  | [] => none
  | c :: calls => (lastFor r calls).or (if c.isFor r then some c.permissions else none)

structure Enforced (calls : List Call) (r : Role) : Prop where
  shown : ∀ user : Account, user.role = r.name → user.isActive → ∀ permission,
    userCan (replaceAll [] calls) (some user) permission =
      allowed (matrix (replaceAll [] calls) r) permission
  asked : ∀ before c, calls = before ++ [c] → c.isFor r →
    ∀ user : Account, user.role = r.name → user.isActive → ∀ permission,
      userCan (replaceAll [] calls) (some user) permission = allowed c.permissions.entries permission

-- The last call for a role names everything that is allowed by default, and if it is the last call
-- of all, it names something.
structure Complete (calls : List Call) (r : Role) : Prop where
  covers : ∀ permissions ∈ lastFor r calls, permissions.entries = [] ∨
    ∀ permission, allowed (defaultMatrix r) permission →
      permission ∈ permissions.entries.map Prod.fst
  nonempty : ∀ before c, calls = before ++ [c] → c.isFor r → c.permissions.entries ≠ []

section Arrays

variable {a b : List (String × Bool)} {key : String}

theorem find_of_perm (hn : (a.map Prod.fst).Nodup) (hp : a.Perm b) :
    find Prod.fst b key = find Prod.fst a key := by
  have hb : (b.map Prod.fst).Nodup := (hp.map Prod.fst).nodup_iff.mp hn
  cases ha : find Prod.fst a key
  case some e =>
    have he : e.1 = key := key_of_find ha
    exact he ▸ Rows.find_of_mem hb (hp.mem_iff.mp (List.mem_of_find?_eq_some ha))
  case none =>
    refine List.find?_eq_none.mpr fun e he => ?_
    exact List.find?_eq_none.mp ha e (hp.mem_iff.mpr he)

theorem allowed_eq_false (h : key ∉ a.map Prod.fst) : allowed a key = false := by
  have hf : find Prod.fst a key = none := by
    refine List.find?_eq_none.mpr fun e he => ?_
    rw [decide_eq_true_eq]
    exact fun hk => h (hk ▸ List.mem_map_of_mem he)
  rw [allowed, hf]
  rfl

theorem mem_of_allowed (h : allowed a key) : (key, true) ∈ a := by
  cases hf : find Prod.fst a key
  case none => simp [allowed, hf] at h
  case some e =>
    have hk : e.1 = key := key_of_find hf
    have he : e.2 = true := by simpa [allowed, hf] using h
    exact hk ▸ he ▸ List.mem_of_find?_eq_some hf

theorem fst_getD_find (e : String × Bool) : ((find Prod.fst b e.1).getD e).1 = e.1 := by
  cases hb : find Prod.fst b e.1
  case none => rfl
  case some e' => exact key_of_find hb

theorem find_arrayMerge :
    find Prod.fst (arrayMerge a b) key =
      (find Prod.fst b key).or (find Prod.fst a key) := by
  have hm : find Prod.fst (a.map fun e => (find Prod.fst b e.1).getD e) key =
      (find Prod.fst a key).map fun e => (find Prod.fst b e.1).getD e := by
    have hk : (fun e => decide (e.1 = key)) ∘ (fun e => (find Prod.fst b e.1).getD e) =
        fun e => decide (e.1 = key) := by
      funext e
      rw [Function.comp_apply, fst_getD_find]
    rw [find, List.find?_map, hk]
    rfl
  rw [arrayMerge, Rows.find_append, hm]
  cases ha : find Prod.fst a key
  case some e =>
    have he : e.1 = key := key_of_find ha
    rw [Option.map_some, he]
    cases find Prod.fst b key <;> rfl
  case none =>
    have hk : key ∉ a.map Prod.fst := by
      intro hk
      obtain ⟨e, he, rfl⟩ := List.mem_map.mp hk
      exact List.find?_eq_none.mp ha e he (decide_eq_true rfl)
    rw [Option.map_none, Option.none_or, Option.or_none, find, List.find?_filter]
    refine List.find?_congr fun e _ => ?_
    by_cases he : e.1 = key
    case pos => simp [he, hk]
    case neg => simp [he]

theorem nodup_arrayMerge (ha : (a.map Prod.fst).Nodup) (hb : (b.map Prod.fst).Nodup) :
    ((arrayMerge a b).map Prod.fst).Nodup := by
  have hm : (a.map fun e => (find Prod.fst b e.1).getD e).map Prod.fst = a.map Prod.fst := by
    rw [List.map_map]
    exact List.map_congr_left fun e _ => fst_getD_find e
  rw [arrayMerge, List.map_append, hm, List.nodup_append]
  refine ⟨ha, hb.sublist (List.filter_sublist.map _), fun k hk k' hk' he => ?_⟩
  obtain ⟨e, hm, rfl⟩ := List.mem_map.mp hk'
  exact of_decide_eq_true (List.mem_filter.mp hm).right (he ▸ hk)

theorem allowed_ksort (hn : (a.map Prod.fst).Nodup) : allowed (ksort a) key = allowed a key := by
  have hp : a.Perm (ksort a) := (List.perm_insertionSort _ a).symm
  rw [allowed, allowed, find_of_perm hn hp]

end Arrays

section Stored

variable {table : List SettingRolePermission} {calls : List Call} {r : Role} {permission : String}

theorem nodup_defaultMatrix : ((defaultMatrix r).map Prod.fst).Nodup := by
  cases r <;> decide

theorem ofName_eq_some {text : String} (h : Role.ofName text = some r) : r.name = text := by
  simpa using List.find?_some h

theorem ofName_name : Role.ofName (lower (trim r.name)) = some r := by
  cases r <;> decide +kernel

theorem name_injective {r' : Role} (h : r.name = r'.name) : r = r' := by
  cases r <;> cases r' <;> first | rfl | (revert h; decide)

theorem filter_replaceRolePermissions {c : Call} :
    (replaceRolePermissions table c.role c.permissions).filter (·.role = r.name) =
      if c.isFor r then c.permissions.entries.map fun e => ⟨r.name, e.1, e.2⟩
      else table.filter (·.role = r.name) := by
  unfold replaceRolePermissions Call.isFor
  cases hc : Role.ofName (lower (trim c.role))
  case none => simp
  case some r' =>
    dsimp only
    rw [List.filter_append, List.filter_filter]
    by_cases hr : r' = r
    case pos => simp [hr, List.filter_map, Function.comp_def]
    have hn : r'.name ≠ r.name := fun h => hr (name_injective h)
    have hf : table.filter (fun row => row.role = r.name && !decide (row.role = r'.name)) =
        table.filter (·.role = r.name) := by
      refine List.filter_congr fun row _ => ?_
      by_cases h : row.role = r.name <;> simp [h, hn.symm]
    simp [hr, hf, hn, List.filter_map, Function.comp_def]

-- What is stored for a role is what the last call for it says.
theorem filter_replaceAll :
    (replaceAll table calls).filter (·.role = r.name) =
      match lastFor r calls with
      | none => table.filter (·.role = r.name)
      | some permissions => permissions.entries.map fun e => ⟨r.name, e.1, e.2⟩ := by
  induction calls generalizing table
  case nil => rfl
  case cons c calls hi =>
    rw [replaceAll, List.foldl_cons, ← replaceAll, hi, lastFor]
    cases lastFor r calls
    case some => rfl
    dsimp only [Option.none_or]
    rw [filter_replaceRolePermissions]
    split <;> rfl

theorem permissionsForRole_replaceAll :
    permissionsForRole (replaceAll [] calls) r.name =
      match lastFor r calls with
      | none => defaultMatrix r
      | some permissions =>
        if permissions.entries = [] then defaultMatrix r else permissions.entries := by
  have hr : lower (trim r.name) = r.name := (ofName_eq_some ofName_name).symm
  have hn : r.name ≠ "" := by cases r <;> decide
  have hd : ((Role.ofName r.name).map defaultMatrix).getD [] = defaultMatrix r := by
    rw [← hr, ofName_name]
    rfl
  simp only [permissionsForRole, hr, hn, if_false, filter_replaceAll, hd]
  cases lastFor r calls
  case none => rfl
  case some permissions =>
    dsimp only
    cases permissions.entries
    case nil => rfl
    case cons e entries =>
      simp [Function.comp_def]

theorem nodup_permissionsForRole :
    ((permissionsForRole (replaceAll [] calls) r.name).map Prod.fst).Nodup := by
  rw [permissionsForRole_replaceAll]
  split
  case h_1 => exact nodup_defaultMatrix
  case h_2 permissions _ =>
    split
    case isTrue => exact nodup_defaultMatrix
    case isFalse => exact permissions.nodup

theorem userCan_eq {user : Account} (hr : r ≠ .admin) (hu : user.role = r.name)
    (ha : user.isActive) : userCan table (some user) permission =
      allowed (permissionsForRole table r.name) permission := by
  have hn : r.name ≠ "admin" := fun h => hr (name_injective (h : r.name = Role.admin.name))
  rw [userCan, hu, if_neg hn, ha]
  rfl

theorem allowed_matrix :
    allowed (matrix (replaceAll [] calls) r) permission =
      if permission ∈ (permissionsForRole (replaceAll [] calls) r.name).map Prod.fst
      then allowed (permissionsForRole (replaceAll [] calls) r.name) permission
      else allowed (defaultMatrix r) permission := by
  have hs : ((permissionsForRole (replaceAll [] calls) r.name).map Prod.fst).Nodup :=
    nodup_permissionsForRole
  rw [matrix]
  generalize permissionsForRole (replaceAll [] calls) r.name = stored at hs
  by_cases hn : stored = []
  case pos => simp [hn, allowed_ksort nodup_defaultMatrix]
  rw [if_pos hn, allowed_ksort (nodup_arrayMerge nodup_defaultMatrix hs), allowed, find_arrayMerge]
  split
  case isTrue hm =>
    obtain ⟨e, he, rfl⟩ := List.mem_map.mp hm
    rw [allowed, Rows.find_of_mem hs he, Option.some_or]
  case isFalse hm =>
    have hf : find Prod.fst stored permission = none := by
      refine List.find?_eq_none.mpr fun e he => ?_
      rw [decide_eq_true_eq]
      exact fun hk => hm (hk ▸ List.mem_map_of_mem he)
    rw [hf, Option.none_or, allowed]

theorem lastFor_append {c : Call} (h : c.isFor r) :
    lastFor r (calls ++ [c]) = some c.permissions := by
  induction calls
  case nil => simp [lastFor, h]
  case cons c' calls hi => rw [List.cons_append, lastFor, hi, Option.some_or]

end Stored

def someone (r : Role) : Account :=
  ⟨⟨"u-1", r.name, false, none⟩, "someone", none, none, 0⟩

section Enforced

variable {calls : List Call} {r : Role}

theorem Enforced.complete (hr : r ≠ .admin) (h : Enforced calls r) : Complete calls r := by
  constructor
  case covers =>
    intro permissions hl
    refine or_iff_not_imp_left.mpr fun hn permission hd => ?_
    have hs := h.shown (someone r) rfl rfl permission
    rw [userCan_eq hr rfl rfl, allowed_matrix, permissionsForRole_replaceAll, hl] at hs
    simp only [hn, if_false] at hs
    by_contra hm
    rw [if_neg hm, hd, allowed_eq_false hm] at hs
    cases hs
  case nonempty =>
    rintro before c rfl hc he
    have ha := h.asked before c rfl hc (someone r) rfl rfl "view_devices"
    rw [userCan_eq hr rfl rfl, permissionsForRole_replaceAll, lastFor_append hc] at ha
    simp only [he, if_true] at ha
    revert ha
    cases r <;> decide

theorem Complete.enforced (hr : r ≠ .admin) (h : Complete calls r) : Enforced calls r := by
  constructor
  case shown =>
    intro user hu ha permission
    rw [userCan_eq hr hu ha, allowed_matrix]
    split
    case isTrue => rfl
    case isFalse hm =>
      rw [allowed_eq_false hm]
      rw [permissionsForRole_replaceAll] at hm
      split at hm
      case h_1 => rw [allowed_eq_false hm]
      case h_2 permissions hl =>
        split at hm
        case isTrue => rw [allowed_eq_false hm]
        case isFalse hn =>
          have hc := (h.covers permissions hl).resolve_left hn permission
          exact (Bool.eq_false_iff.mpr fun hd => hm (hc hd)).symm
  case asked =>
    rintro before c rfl hc user hu ha permission
    rw [userCan_eq hr hu ha, permissionsForRole_replaceAll, lastFor_append hc]
    simp only [h.nonempty before c rfl hc, if_false]

end Enforced

-- What is shown, and what was asked for, is enforced just when the calls are complete.
theorem enforced_iff_complete (calls : List Call) (r : Role) (hr : r ≠ .admin) :
    Enforced calls r ↔ Complete calls r :=
  ⟨Enforced.complete hr, Complete.enforced hr⟩

section Given

def exporter : Call :=
  ⟨" Viewer", ⟨[("view_devices", true), ("view_compliance", true), ("view_audit", true),
    ("pair_devices", false), ("export_data", true)], by decide, by decide⟩⟩

theorem enforced_exporter : Enforced [exporter] .viewer := by
  have hc : ∀ e ∈ defaultMatrix .viewer, e.2 → e.1 ∈ exporter.permissions.entries.map Prod.fst := by
    decide
  have hf : exporter.isFor .viewer := by decide +kernel
  have hl : lastFor .viewer [exporter] = some exporter.permissions := by simp [lastFor, hf]
  refine (enforced_iff_complete [exporter] .viewer (by decide)).mpr ⟨?_, ?_⟩
  · intro permissions hp
    obtain rfl := Option.some.inj (hl.symm.trans hp)
    exact .inr fun permission hd => hc _ (mem_of_allowed hd) rfl
  · intro before c he _
    obtain rfl : exporter = c := by simpa using congrArg List.getLast? he
    decide

def sender : Call :=
  ⟨"operator", ⟨[("send_commands", true)], by decide, by decide⟩⟩

theorem shown_but_not_enforced :
    allowed (matrix (replaceAll [] [sender]) .operator) "view_devices" = true ∧
      userCan (replaceAll [] [sender]) (some (someone .operator)) "view_devices" = false := by
  decide +kernel

end Given

end ControlPlane.RolePermissions
