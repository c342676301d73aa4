import Quoodle.Json.Nlohmann

namespace Agent

open Json.Nlohmann
open Json (byteLt mapOf insertBy)

structure Request where
  requestId : String
  timestamp : String
  capability : String
  params : Json Number
  agentSequence : Integer
  policyHash : String
  commandMessageId : String
  kid : String
  stored : Stored params

namespace Request

-- Parameters that are not an object are replaced by an empty one.
def objectParams (r : Request) : List (String × Json Number) :=
  match r.params with
  | .obj ms => ms
  | _ => []

def sigMembers (r : Request) (sig : String) : List (String × Json Number) :=
  mapOf byteLt [
    ("alg", .str "Ed25519"),
    ("kid", .str r.kid),
    ("canon", .str "JCS-v1"),
    ("signer", .str "agent"),
    ("sig", .str sig)
  ]

def members (r : Request) (sig : String) : List (String × Json Number) :=
  mapOf byteLt [
    ("request_id", .str r.requestId),
    ("timestamp", .str r.timestamp),
    ("capability", .str r.capability),
    ("params", .obj r.objectParams),
    ("agent_sequence", .num (.integer r.agentSequence)),
    ("policy_hash", .str r.policyHash),
    ("command_message_id", .str r.commandMessageId),
    ("sig", .obj (r.sigMembers sig))
  ]

def payload (r : Request) (sig : String) : Json Number :=
  .obj (r.members sig)

theorem sigMembers_eq (r : Request) (sig : String) :
    r.sigMembers sig = [
      ("alg", .str "Ed25519"), ("canon", .str "JCS-v1"), ("kid", .str r.kid), ("sig", .str sig),
      ("signer", .str "agent")
    ] := by
  let ms : List (String × Fin 5) :=
    [("alg", 0), ("kid", 1), ("canon", 2), ("signer", 3), ("sig", 4)]
  let f : Fin 5 → Json Number :=
    ![.str "Ed25519", .str r.kid, .str "JCS-v1", .str "agent", .str sig]
  have hs : Json.sortKeys ms =
      [("alg", 0), ("canon", 2), ("kid", 1), ("sig", 4), ("signer", 3)] := by
    decide
  have hm := Json.mapOf_eq_onValues_sortKeys Json.byteLt_iff ms (by decide) f
  rwa [hs] at hm

theorem members_eq (r : Request) (sig : String) :
    r.members sig = [
      ("agent_sequence", .num (.integer r.agentSequence)), ("capability", .str r.capability),
      ("command_message_id", .str r.commandMessageId), ("params", .obj r.objectParams),
      ("policy_hash", .str r.policyHash), ("request_id", .str r.requestId),
      ("sig", .obj (r.sigMembers sig)), ("timestamp", .str r.timestamp)
    ] := by
  let ms : List (String × Fin 8) := [
    ("request_id", 0), ("timestamp", 1), ("capability", 2), ("params", 3), ("agent_sequence", 4),
    ("policy_hash", 5), ("command_message_id", 6), ("sig", 7)
  ]
  let f : Fin 8 → Json Number := ![
    .str r.requestId, .str r.timestamp, .str r.capability, .obj r.objectParams,
    .num (.integer r.agentSequence), .str r.policyHash, .str r.commandMessageId,
    .obj (r.sigMembers sig)
  ]
  have hs : Json.sortKeys ms = [
      ("agent_sequence", 4), ("capability", 2), ("command_message_id", 6), ("params", 3),
      ("policy_hash", 5), ("request_id", 0), ("sig", 7), ("timestamp", 1)
    ] := by
    decide
  have hm := Json.mapOf_eq_onValues_sortKeys Json.byteLt_iff ms (by decide) f
  rwa [hs] at hm

theorem stored_objectParams (r : Request) : Stored (.obj r.objectParams) := by
  have h := r.stored
  unfold objectParams
  split
  case h_1 ms hm => exact hm ▸ h
  case h_2 => decide

theorem pairwise_sigMembers (r : Request) (sig : String) :
    (Json.keys (r.sigMembers sig)).Pairwise byteLt := by
  rw [sigMembers_eq]
  show List.Pairwise byteLt ["alg", "canon", "kid", "sig", "signer"]
  decide

theorem pairwise_members (r : Request) (sig : String) :
    (Json.keys (r.members sig)).Pairwise byteLt := by
  rw [members_eq]
  show List.Pairwise byteLt ["agent_sequence", "capability", "command_message_id", "params",
    "policy_hash", "request_id", "sig", "timestamp"]
  decide

theorem stored_payload (r : Request) (sig : String) : Stored (r.payload sig) := by
  refine Json.Objects.obj_iff.mpr ⟨r.pairwise_members sig, ?_⟩
  have hs : Stored (.obj (r.sigMembers sig)) :=
    Json.Objects.obj_iff.mpr ⟨r.pairwise_sigMembers sig, by simp [sigMembers_eq]⟩
  have hp := r.stored_objectParams
  rw [members_eq]
  simp only [List.forall_mem_cons, Json.Objects.leaf, true_and]
  exact ⟨hp, hs, by simp⟩

end Request

def canonicalizeJcs (json : List Char) : Option (List UInt8) := do
  let parsed ← parse json
  if parsed.Nums (¬·.isFloat) then some (dump Number.format parsed) else none

def clearSig : Json Number → Json Number
  | .obj ms =>
    match ms.lookup "sig" with
    | some (.obj ns) => .obj (insertBy byteLt "sig" (.obj (insertBy byteLt "sig" (.str "") ns)) ms)
    | _ => .obj ms
  | v => v

def stripSigForCanonical (payload : Json Number) : Option (List UInt8) :=
  canonicalizeJcs (Json.print .minimal Number.format (clearSig payload))

theorem clearSig_payload (r : Request) (sig : String) : clearSig (r.payload sig) = r.payload "" := by
  have hl : (r.members sig).lookup "sig" = some (.obj (r.sigMembers sig)) := by
    simp [Request.members_eq, List.lookup]
  rw [Request.payload, clearSig, hl]
  dsimp only
  rw [insertBy_of_mem _ (r.pairwise_sigMembers sig) (by simp [Request.sigMembers_eq]),
    insertBy_of_mem _ (r.pairwise_members sig) (by simp [Request.members_eq])]
  simp [Request.payload, Request.members_eq, Request.sigMembers_eq]

-- The agent signs the request without its signature, unless it contains a float.
theorem stripSigForCanonical_payload (r : Request) (sig : String) :
    stripSigForCanonical (r.payload sig) =
      if (r.payload "").Nums (¬·.isFloat) then some (dump Number.format (r.payload "")) else none := by
  rw [stripSigForCanonical, clearSig_payload, canonicalizeJcs, parse_print (r.stored_payload ""),
    Option.bind_eq_bind, Option.bind_some]

end Agent
