import Quoodle.ControlPlane.Devices

-- The commands that there are, and who may run them on which device.
namespace ControlPlane

inductive RiskLevel where
  | low | medium | high
  deriving DecidableEq

inductive MinRole where
  | user | operator | analyst | admin

inductive Pattern where
  -- Letters, digits, hyphens, dots and underscores.
  | unit
  -- A path that does not start with a slash and has no two dots in a row.
  | relativePath

inductive Rule where
  | required | nullable | accepted | string | integer | boolean
  | min (n : Nat)
  | max (n : Nat)
  | oneOf (ss : List String)
  | regex (p : Pattern)

structure CommandDefinition where
  name : String
  riskLevel : RiskLevel
  minRole : MinRole
  requires2fa : Bool
  allowedInQuarantine : Bool
  paramsRules : List (String × List Rule)

namespace Registry

def relativePath : List Rule :=
  [.required, .string, .max 512, .regex .relativePath]

def filesystemPath : List Rule :=
  [.required, .string, .max 1024]

def confirmRequired : List Rule :=
  [.required, .accepted]

def pid : List Rule :=
  [.required, .integer, .min 2]

def unit : List Rule :=
  [.required, .string, .max 128, .regex .unit]

def flag : List Rule :=
  [.nullable, .boolean]

def text (max : Nat) : List Rule :=
  [.nullable, .string, .max max]

def number (min max : Nat) : List Rule :=
  [.nullable, .integer, .min min, .max max]

def choice (ss : List String) : List Rule :=
  [.nullable, .string, .oneOf ss]

def all : List CommandDefinition := [
  -- Device Control
  ⟨"lock_screen", .low, .user, false, true, []⟩,
  ⟨"logout_user", .medium, .operator, false, false, []⟩,
  ⟨"reboot_device", .high, .admin, true, false, [("delay_seconds", number 0 300)]⟩,
  ⟨"shutdown_device", .high, .admin, true, false, [
    ("delay_seconds", number 0 300),
    ("force", flag)
  ]⟩,
  ⟨"disable_input", .high, .admin, true, false, [
    ("duration_seconds", [.required, .integer, .min 5, .max 300]),
    ("scope", choice ["all", "mouse", "keyboard"])
  ]⟩,
  ⟨"enable_input", .low, .operator, false, true, [("scope", choice ["all", "mouse", "keyboard"])]⟩,
  ⟨"set_wallpaper", .low, .operator, false, false, [
    ("message", text 200),
    ("image_url", text 2048)
  ]⟩,
  ⟨"show_message", .low, .operator, false, true, [
    ("message", [.required, .string, .max 400]),
    ("severity", choice ["info", "warning", "critical"]),
    ("timeout_seconds", number 1 120),
    ("blocking", flag)
  ]⟩,
  -- Visibility & Reconnaissance
  ⟨"collect_system_info", .low, .user, false, true, []⟩,
  ⟨"list_processes", .medium, .operator, false, false, [
    ("limit", number 1 1000),
    ("user", text 128),
    ("name", text 128)
  ]⟩,
  ⟨"get_users", .medium, .operator, false, false, [("limit", number 1 200)]⟩,
  ⟨"get_sessions", .medium, .operator, false, false, [("limit", number 1 200)]⟩,
  ⟨"list_sessions", .medium, .operator, false, false, []⟩,
  ⟨"list_services", .medium, .operator, false, false, []⟩,
  ⟨"network_info", .medium, .operator, false, false, [
    ("limit", number 1 1000),
    ("include_wifi", flag),
    ("include_routes", flag),
    ("include_vpn_signals", flag)
  ]⟩,
  ⟨"netinfo", .medium, .operator, false, false, [
    ("limit", number 1 1000),
    ("include_wifi", flag),
    ("include_routes", flag),
    ("include_vpn_signals", flag)
  ]⟩,
  ⟨"list_mounts", .medium, .operator, false, false, []⟩,
  ⟨"get_env_fingerprint", .medium, .operator, false, false, []⟩,
  -- File System Access (lab-scoped)
  ⟨"list_files", .medium, .operator, false, false, [
    ("path", text 1024),
    ("recursive", flag),
    ("max_depth", number 1 16),
    ("limit", number 1 1000),
    ("include_hidden", flag),
    ("include_system", flag),
    ("follow_symlinks", flag)
  ]⟩,
  ⟨"stat_file", .medium, .operator, false, false, [("path", relativePath)]⟩,
  ⟨"read_file", .high, .analyst, true, false, [
    ("path", relativePath),
    ("max_bytes", number 1 1048576),
    ("encoding", choice ["utf8", "base64"])
  ]⟩,
  ⟨"search_files", .high, .analyst, true, false, [
    ("path", relativePath),
    ("pattern", [.required, .string, .max 128]),
    ("regex", flag),
    ("limit", number 1 200)
  ]⟩,
  ⟨"hash_file", .low, .operator, false, false, [
    ("path", relativePath),
    ("algo", choice ["sha256", "sha1", "md5"])
  ]⟩,
  ⟨"download_file", .medium, .operator, false, false, [
    ("path", filesystemPath),
    ("max_bytes", number 1 5242880)
  ]⟩,
  ⟨"create_directory", .high, .admin, true, false, [("path", filesystemPath), ("recursive", flag)]⟩,
  ⟨"create_file", .high, .admin, true, false, [("path", filesystemPath), ("overwrite", flag)]⟩,
  ⟨"upload_file", .high, .admin, true, false, [
    ("artifact_id", [.required, .string, .max 128]),
    ("destination", filesystemPath),
    ("overwrite", flag)
  ]⟩,
  ⟨"delete_file", .high, .admin, true, false, [
    ("path", filesystemPath),
    ("confirm", confirmRequired)
  ]⟩,
  ⟨"delete_directory", .high, .admin, true, false, [
    ("path", filesystemPath),
    ("confirm", confirmRequired)
  ]⟩,
  ⟨"move_file", .high, .admin, true, false, [
    ("src", relativePath),
    ("dest", relativePath),
    ("overwrite", flag)
  ]⟩,
  -- Screen & User Context
  ⟨"screenshot", .medium, .operator, false, false, [
    ("resolution", choice ["original", "1080p", "720p"]),
    ("format", choice ["png", "jpeg"])
  ]⟩,
  ⟨"get_active_window", .medium, .operator, false, false, []⟩,
  ⟨"get_idle_time", .medium, .operator, false, false, []⟩,
  ⟨"lock_and_capture", .high, .admin, true, false, [
    ("message", text 200),
    ("timeout_seconds", number 1 120)
  ]⟩,
  -- Process Control
  ⟨"kill_process", .medium, .user, false, false, [("pid", pid), ("signal", number 1 64)]⟩,
  ⟨"kill_process_tree", .high, .admin, true, false, [("pid", pid)]⟩,
  ⟨"pause_process", .high, .admin, true, false, [("pid", pid)]⟩,
  ⟨"resume_process", .medium, .operator, false, false, [("pid", pid)]⟩,
  ⟨"start_service", .high, .admin, true, false, [("unit", unit)]⟩,
  ⟨"stop_service", .high, .admin, true, false, [("unit", unit)]⟩,
  ⟨"restart_service", .high, .admin, true, false, [("unit", unit)]⟩,
  -- Network Manipulation
  ⟨"disconnect_network", .high, .admin, true, false, [
    ("confirm", confirmRequired),
    ("duration_seconds", number 1 600)
  ]⟩,
  ⟨"reconnect_network", .low, .operator, false, true, []⟩,
  ⟨"list_connections", .medium, .operator, false, false, [
    ("limit", number 1 1000),
    ("include_ipv6", flag),
    ("include_udp", flag),
    ("include_process_path", flag)
  ]⟩,
  ⟨"block_outbound", .high, .admin, true, false, [("duration_seconds", number 1 3600)]⟩,
  ⟨"allow_outbound", .low, .operator, false, true, []⟩,
  -- Identity & Trust
  ⟨"rotate_agent_keys", .high, .admin, true, false, [("reason", text 200)]⟩,
  ⟨"revoke_device", .high, .admin, true, false, [("reason", text 200)]⟩,
  ⟨"force_repair", .medium, .admin, false, true, [("component", text 200)]⟩,
  ⟨"invalidate_sessions", .high, .admin, true, false, [
    ("scope", choice ["device", "user", "all"])
  ]⟩,
  ⟨"re_attest", .medium, .operator, false, true, [("include_tpm", flag)]⟩,
  -- Compliance & Policy Simulation
  ⟨"attest_device", .medium, .operator, false, true, [("include_tpm", flag)]⟩,
  ⟨"fail_attestation", .high, .admin, true, true, [("reason", text 200)]⟩,
  ⟨"enter_quarantine", .high, .admin, true, true, [("reason", text 200)]⟩,
  ⟨"exit_quarantine", .medium, .admin, false, true, [("reason", text 200)]⟩,
  ⟨"policy_probe", .medium, .operator, false, true, [("command", text 128)]⟩,
  -- Audit, Evidence & Forensics
  ⟨"get_command_log", .low, .operator, false, true, [("limit", number 1 500)]⟩,
  ⟨"get_audit_trail", .low, .operator, false, true, [("limit", number 1 500)]⟩,
  ⟨"export_artifacts", .medium, .analyst, false, true, [("since", text 64)]⟩,
  ⟨"verify_signature", .low, .operator, false, true, [
    ("artifact_id", text 128),
    ("signature", text 2048),
    ("public_key", text 2048)
  ]⟩,
  ⟨"replay_request", .medium, .operator, false, true, [
    ("command_id", [.required, .string, .max 128])
  ]⟩,
  -- Recovery & Safety
  ⟨"panic_disable_agent", .high, .admin, true, true, [("duration_seconds", number 1 3600)]⟩,
  ⟨"revoke_all_keys", .high, .admin, true, true, [("reason", text 200)]⟩,
  ⟨"restore_defaults", .high, .admin, true, true, [("scope", text 128)]⟩,
  ⟨"unlock_all", .low, .operator, false, true, []⟩,
  ⟨"health_check", .low, .user, false, true, []⟩,
  -- Existing operational commands
  ⟨"ping", .low, .user, false, true, []⟩,
  ⟨"collect_logs", .medium, .analyst, false, false, [("lines", number 10 5000)]⟩,
  ⟨"update_agent", .high, .admin, true, false, [
    ("version", [.required, .string, .max 50]),
    ("reboot_after", [.boolean])
  ]⟩
]

def get (name : String) : Option CommandDefinition :=
  all.find? (·.name = name)

end Registry

def MinRole.weight : MinRole → Nat
  | .user => 1
  | .operator => 2
  | .analyst => 3
  | .admin => 4

-- The roles of users are not those of the definitions.
def roleWeight (role : String) : Nat :=
  match String.ofList (role.toList.map Char.toLower) with
  | "user" => 1
  | "operator" => 2
  | "analyst" => 3
  | "admin" => 4
  | _ => 0

def CommandDefinition.isRoleAllowed (d : CommandDefinition) (role : String) : Bool :=
  roleWeight role ≥ d.minRole.weight

inductive Decision where
  | allow | deny | require2fa
  deriving DecidableEq

structure Evaluation where
  decision : Decision
  reason : String
  deriving DecidableEq

structure PolicyContext where
  userRole : String
  deviceLifecycleState : Lifecycle
  policyHash : Option String
  expectedPolicyHash : Option String
  twoFactorVerified : Bool

-- Models `PolicyEvaluator::evaluate`. A device at risk is refused even if the second factor is
-- missing as well.
def evaluate (ctx : PolicyContext) (definition : CommandDefinition) (device : Option Device) :
    Evaluation :=
  if !definition.isRoleAllowed ctx.userRole then ⟨.deny, "role_not_allowed"⟩
  else if ctx.deviceLifecycleState = .quarantined && !definition.allowedInQuarantine then
    ⟨.deny, "device_quarantined"⟩
  else if ctx.policyHash.any isTruthy && ctx.expectedPolicyHash.any isTruthy &&
      ctx.policyHash ≠ ctx.expectedPolicyHash then
    ⟨.deny, "policy_out_of_sync"⟩
  else if device.any (fun d => d.riskScore.getD 0 ≥ 8000) && definition.riskLevel ≠ .low then
    ⟨.deny, "risk_too_high"⟩
  else if (definition.requires2fa || definition.riskLevel = .high) && !ctx.twoFactorVerified then
    ⟨.require2fa, "2fa_required"⟩
  else ⟨.allow, "ok"⟩

-- The context in which `CommandService` asks whether a command may be run on a device.
def Device.context (d : Device) (role : String) (policyHash : Option String)
    (twoFactorVerified : Bool) : PolicyContext :=
  ⟨role, d.lifecycleState, policyHash, d.policyHash, twoFactorVerified⟩

-- No command that is not meant for a device in quarantine may be run on this one.
def Device.IsBlocked (d : Device) : Prop :=
  ∀ c ∈ Registry.all, !c.allowedInQuarantine → ∀ role hash verified,
    (evaluate (d.context role hash verified) c (some d)).decision ≠ .allow

theorem Registry.exists_low_operator :
    ∃ c ∈ all, c.riskLevel = .low ∧ c.minRole = .operator ∧ !c.requires2fa ∧
      !c.allowedInQuarantine :=
  ⟨all.get ⟨6, by decide⟩, List.get_mem .., rfl, rfl, rfl, rfl⟩

theorem Device.isBlocked_iff {d : Device} : d.IsBlocked ↔ d.lifecycleState = .quarantined := by
  constructor
  case mp =>
    intro h
    by_contra hq
    obtain ⟨c, hc, hl, hr, h2, ha⟩ := Registry.exists_low_operator
    refine h c hc ha "admin" none true ?_
    have hw : c.isRoleAllowed "admin" := by
      simp [CommandDefinition.isRoleAllowed, hr, MinRole.weight, roleWeight]
    simp [evaluate, context, hw, hq, hl]
  case mpr =>
    intro h c _ hc role hash verified
    simp only [evaluate, context, h, hc]
    split <;> simp

end ControlPlane
