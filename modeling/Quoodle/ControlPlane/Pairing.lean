import Quoodle.ControlPlane.Devices
import Quoodle.Data.Overlap

-- How devices are paired with users, where the calls of agents and users overlap.
namespace ControlPlane.Pairing

open Overlap (Holds Preserves)
open Transition (Steps)

-- The ids of users are ULIDs, none of which counts as empty.
abbrev UserId := { id : String // isTruthy id }

structure Components where
  mbUuid : Option String
  cpuId : Option String
  diskSerial : Option String
  primaryMac : Option String
  deriving DecidableEq

-- A row of the table `devices`, with the columns that pairing is about.
structure Row where
  deviceId : String
  userId : Option UserId
  deviceName : Option String
  hwid : Option String
  pubkey : Option String
  lifecycleState : Lifecycle
  identityVersion : Option String
  identityComponents : Option Components
  machineSecretHash : Option String
  deriving DecidableEq

structure PairToken where
  sub : String
  deviceName : Option String
  pubkey : String
  hwid : Option String
  exp : Int
  deriving DecidableEq

structure Config where
  -- The setting `ALLOW_DEVICE_REPAIR_WITH_HWID`.
  allowRepair : Bool
  pairTokenTtl : Int
  -- `base64_decode` in its strict mode, and `base64_encode`.
  decode : String → Option (List UInt8)
  encode : List UInt8 → String

structure PairRequest where
  client : Option UserId
  deviceName : String
  hwid : String
  pubkey : String
  identityVersion : Option String
  components : Components
  machineSecretHash : Option String
  uuid : String

structure Confirm where
  user : UserId
  token : PairToken
  label : Option String

section Source

variable (cfg : Config)

def normalizePubkey (pubkey : String) : String :=
  let trimmed := trim pubkey
  if trimmed = "" then trimmed
  else
    let padding := (4 - trimmed.utf8ByteSize % 4) % 4
    match (cfg.decode trimmed).or (cfg.decode (trimmed ++ "".pushn '=' padding)) with
    | some bytes => cfg.encode bytes
    | none => String.ofList (trimmed.toList.rdropWhile (· = '='))

def pubkeysMatch (stored incoming : String) : Bool :=
  normalizePubkey cfg stored = normalizePubkey cfg incoming

def normalizeComponent (raw : Option String) : Option String :=
  (raw.map trim).bind fun value =>
    if value = "" then none else some (String.ofList (value.toList.map Char.toLower))

def normalizeIdentityComponents (raw : Components) : Components where
  mbUuid := normalizeComponent raw.mbUuid
  cpuId := normalizeComponent raw.cpuId
  diskSerial := normalizeComponent raw.diskSerial
  primaryMac := normalizeComponent raw.primaryMac

def Components.isEmpty (c : Components) : Bool :=
  c = ⟨none, none, none, none⟩

def identityMatchScore (stored incoming : Components) : Nat :=
  let same (a b : Option String) : Nat := if a.isSome && a = b then 1 else 0
  same stored.mbUuid incoming.mbUuid + same stored.cpuId incoming.cpuId +
    same stored.diskSerial incoming.diskSerial + same stored.primaryMac incoming.primaryMac

inductive FuzzyMatch where
  | none
  | ambiguous
  | matched (device : Row)

def findFuzzyIdentityMatch (rows : List Row) (version : String) (incoming : Components) :
    FuzzyMatch :=
  if incoming.mbUuid = Option.none then .none
  else
    let candidates := rows.filterMap fun r =>
      r.identityComponents.bind fun raw =>
        let stored := normalizeIdentityComponents raw
        let score := identityMatchScore stored incoming
        if r.identityVersion = some version && raw.mbUuid = incoming.mbUuid &&
            stored.mbUuid = incoming.mbUuid && score ≥ 3 then
          some (r, score)
        else Option.none
    match (candidates.map Prod.snd).max? with
    | Option.none => .none
    | some top =>
      match candidates.filter (·.2 = top) with
      | [(device, _)] => .matched device
      | _ => .ambiguous

namespace PairRequest

variable (r : PairRequest)

def version : Option String :=
  r.identityVersion.map trim

def identityComponents : Components :=
  normalizeIdentityComponents r.components

def secretHash : Option String :=
  r.machineSecretHash.map trim

def normalizedPubkey : String :=
  normalizePubkey cfg r.pubkey

def newRow : Row where
  deviceId := r.uuid
  userId := none
  deviceName := some r.deviceName
  hwid := some r.hwid
  pubkey := some (r.normalizedPubkey cfg)
  lifecycleState := .pendingPairing
  identityVersion := r.version
  identityComponents := some r.identityComponents
  machineSecretHash := r.secretHash.filter isTruthy

def renamed (device : Row) : Row :=
  { device with deviceName := some r.deviceName, pubkey := some (r.normalizedPubkey cfg) }

-- Models `updateIdentityMetadata`, as far as the values in memory are concerned.
def identified (device : Row) : Row :=
  { device with
    hwid := if trim r.hwid = "" then device.hwid else some (trim r.hwid)
    identityVersion := if r.version.any isTruthy then r.version else device.identityVersion
    identityComponents :=
      if r.identityComponents.isEmpty then device.identityComponents
      else some r.identityComponents
    machineSecretHash :=
      if r.secretHash.any isTruthy then r.secretHash else device.machineSecretHash }

end PairRequest

def Confirm.claimed (c : Confirm) (device : Row) : Row :=
  { device with
    userId := some c.user
    deviceName :=
      if c.label.any isTruthy then c.label else c.token.deviceName.or device.deviceName
    lifecycleState :=
      if device.lifecycleState = .online || device.lifecycleState = .active then
        device.lifecycleState
      else .offline
    pubkey := some (normalizePubkey cfg c.token.pubkey) }

def Confirm.newRow (c : Confirm) : Row where
  deviceId := c.token.sub
  userId := none
  deviceName := some (c.token.deviceName.getD "New Device")
  hwid := c.token.hwid
  pubkey := some c.token.pubkey
  lifecycleState := .offline
  identityVersion := none
  identityComponents := none
  machineSecretHash := none

end Source

structure Grant where
  token : PairToken
  stored : Option String

structure Shared where
  rows : List Row
  now : Int
  -- The pair tokens that were returned. Nobody else can sign one.
  tokens : List PairToken
  confirmed : List (UserId × String)
  grants : List Grant

inductive Input where
  | request (r : PairRequest)
  | confirm (c : Confirm)
  | agentToken (token : PairToken)

-- What a call does next. Rows are those that it has in memory.
inductive Phase where
  | search (r : PairRequest)
  | create (r : PairRequest)
  | overwrite (r : PairRequest) (device : Row)
  | identify (r : PairRequest) (device : Row)
  | issue (r : PairRequest) (device : Row)
  | restore (c : Confirm)
  | claim (c : Confirm) (device : Row)
  | reply (c : Confirm)

inductive Event where
  | wait (seconds : Nat)

def Row.save (loaded changed current : Row) : Row where
  deviceId := current.deviceId
  userId := Rows.merge loaded.userId changed.userId current.userId
  deviceName := Rows.merge loaded.deviceName changed.deviceName current.deviceName
  hwid := Rows.merge loaded.hwid changed.hwid current.hwid
  pubkey := Rows.merge loaded.pubkey changed.pubkey current.pubkey
  lifecycleState := Rows.merge loaded.lifecycleState changed.lifecycleState current.lifecycleState
  identityVersion :=
    Rows.merge loaded.identityVersion changed.identityVersion current.identityVersion
  identityComponents :=
    Rows.merge loaded.identityComponents changed.identityComponents current.identityComponents
  machineSecretHash :=
    Rows.merge loaded.machineSecretHash changed.machineSecretHash current.machineSecretHash

namespace Shared

def find (s : Shared) (id : String) : Option Row :=
  Rows.find Row.deviceId s.rows id

def save (s : Shared) (loaded changed : Row) : Shared :=
  { s with rows := Rows.update Row.deviceId s.rows loaded.deviceId (Row.save loaded changed) }

def insert (s : Shared) (row : Row) : Shared :=
  { s with rows := s.rows ++ [row] }

def isValid (s : Shared) (token : PairToken) : Bool :=
  token ∈ s.tokens && s.now < token.exp

end Shared

variable (cfg : Config)

def found (r : PairRequest) (device : Row) : Option Phase :=
  if device.userId.isSome then
    if device.pubkey.any fun key => isTruthy key && pubkeysMatch cfg key (r.normalizedPubkey cfg) then
      some (.identify r device)
    else if cfg.allowRepair then some (.overwrite r device)
    else none
  else some (.overwrite r device)

def begin (s : Shared) : Input → Shared × Option Phase
  | .request r =>
    match s.rows.find? (·.hwid = some r.hwid) with
    | some device => (s, found cfg r device)
    | none =>
      if r.version.any isTruthy && !r.identityComponents.isEmpty then (s, some (.search r))
      else (s, some (.create r))
  | .confirm c =>
    if !s.isValid c.token || c.token.sub = "" then (s, none)
    else
      match s.find c.token.sub with
      | some device =>
        if device.userId.isSome && device.userId ≠ some c.user then (s, none)
        else (s, some (.claim c device))
      | none => (s, some (.restore c))
  | .agentToken token =>
    if !s.isValid token || token.sub = "" then (s, none)
    else
      match s.find token.sub with
      | some device =>
        if device.userId.isSome then
          ({ s with grants := s.grants ++ [⟨token, device.pubkey⟩] }, none)
        else (s, none)
      | none => (s, none)

def pairToken (s : Shared) (r : PairRequest) (device : Row) : PairToken :=
  ⟨device.deviceId, device.deviceName, r.normalizedPubkey cfg, device.hwid, s.now + cfg.pairTokenTtl⟩

def resume (s : Shared) : Phase → Shared × Option Phase
  | .search r =>
    match findFuzzyIdentityMatch s.rows (r.version.getD "") r.identityComponents with
    | .none => (s, some (.create r))
    | .ambiguous => (s, none)
    | .matched device => (s, found cfg r device)
  | .create r =>
    -- The key of the table is unique.
    if (s.find r.uuid).isSome then (s, none)
    else (s.insert (r.newRow cfg), some (.issue r (r.newRow cfg)))
  | .overwrite r device =>
    (s.save device (r.renamed cfg device), some (.identify r (r.renamed cfg device)))
  | .identify r device =>
    (s.save device (r.identified device), some (.issue r (r.identified device)))
  | .issue r device => ({ s with tokens := s.tokens ++ [pairToken cfg s r device] }, none)
  | .restore c =>
    if (s.find c.token.sub).isSome then (s, none)
    else (s.insert c.newRow, some (.claim c c.newRow))
  | .claim c device => (s.save device (c.claimed cfg device), some (.reply c))
  | .reply c => ({ s with confirmed := s.confirmed ++ [(c.user, c.token.sub)] }, none)

def system : Overlap.System Shared Phase Input Unit Event where
  begin := begin cfg
  resume s p _ := resume cfg s p
  change s
    | .wait seconds => { s with now := s.now + seconds }

abbrev State := Overlap.State Shared Phase
abbrev Action := Overlap.Action Input Unit Event

def Initial (s : State) : Prop :=
  s.shared.tokens = [] ∧ s.shared.confirmed = [] ∧ s.shared.grants = [] ∧ ∀ k, s.tasks k = none

variable {cfg : Config} {s : Shared} {p : Phase} {id : String} {row loaded changed : Row}
variable {r : PairRequest}

@[simp]
theorem userId_renamed : (r.renamed cfg row).userId = row.userId :=
  rfl

@[simp]
theorem pubkey_renamed : (r.renamed cfg row).pubkey = some (r.normalizedPubkey cfg) := by
  rw [PairRequest.renamed]

@[simp]
theorem userId_identified : (r.identified row).userId = row.userId := by
  rw [PairRequest.identified]

@[simp]
theorem pubkey_identified : (r.identified row).pubkey = row.pubkey := by
  rw [PairRequest.identified]

@[simp]
theorem pubkey_claimed {c : Confirm} :
    (c.claimed cfg row).pubkey = some (normalizePubkey cfg c.token.pubkey) := by
  rw [Confirm.claimed]

@[simp]
theorem find_insert : (s.insert row).find id = (s.find id).or (Rows.find Row.deviceId [row] id) :=
  Rows.find_append

theorem find_save :
    (s.save loaded changed).find id =
      if loaded.deviceId = id then (s.find id).map (Row.save loaded changed) else s.find id :=
  Rows.find_update fun _ h => h

theorem find_insert_of_some (h : s.find id = some row) {row' : Row} :
    (s.insert row').find id = some row := by
  rw [find_insert, h, Option.some_or]

theorem begin_cases (cfg : Config) (s : Shared) (i : Input) :
    (begin cfg s i).1 = s ∨
      ∃ token device, s.isValid token ∧ s.find token.sub = some device ∧
        begin cfg s i = ({ s with grants := s.grants ++ [⟨token, device.pubkey⟩] }, none) := by
  cases i <;> simp only [begin]
  case request r =>
    split
    case h_1 => exact .inl rfl
    case h_2 => split <;> exact .inl rfl
  case confirm c =>
    split
    case isTrue => exact .inl rfl
    split
    case h_1 => split <;> exact .inl rfl
    case h_2 => exact .inl rfl
  case agentToken token =>
    split
    case isTrue => exact .inl rfl
    case isFalse hv =>
      split
      case h_2 => exact .inl rfl
      case h_1 device hd =>
        split
        case isTrue => exact .inr ⟨token, device, by grind, hd, rfl⟩
        case isFalse => exact .inl rfl

-- The keys of the examples are no Base64, so that they are kept as they are.
def exampleConfig : Config :=
  ⟨false, 300, fun _ => none, fun _ => ""⟩

def exampleState : State :=
  .idle ⟨[], 0, [], [], []⟩

def owner : UserId :=
  ⟨"u-1", by decide⟩

def other : UserId :=
  ⟨"u-2", by decide⟩

def exampleRequest (hwid pubkey uuid : String) : PairRequest :=
  ⟨none, "laptop", hwid, pubkey, none, ⟨none, none, none, none⟩, none, uuid⟩

def exampleToken : PairToken :=
  ⟨"dev-1", some "laptop", "k-1", some "hw-1", 300⟩

def registered : List Action :=
  [.begin 0 (.request (exampleRequest "hw-1" "k-1" "dev-1")), .resume 0 (), .resume 0 ()]

def claimed : List Action :=
  [.begin 0 (.confirm ⟨owner, exampleToken, none⟩), .resume 0 (), .resume 0 ()]

end ControlPlane.Pairing
