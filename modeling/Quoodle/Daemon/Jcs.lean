import Quoodle.Agent.PrivilegedClient
import Quoodle.Json.CJson

namespace Daemon

open Json.CJson
open Json (byteLe sortBy)

-- The double `floor(val + 0.5)`. Adding one half rounds if `val` is large.
def floorHalf (val : Int) : Int :=
  Binary64.round (2 * val + 1) / 2

-- Converting a double outside of the range of `long long` gives its smallest value.
def toLongLong (d : Int) : Int :=
  if -2 ^ 63 ≤ d ∧ d < 2 ^ 63 then d else -2 ^ 63

def Renderable (val : Int) : Prop :=
  floorHalf val = val

instance : DecidablePred Renderable :=
  fun val => inferInstanceAs (Decidable (floorHalf val = val))

def renderNumber : Json.NumberFormat Int where
  text val := Json.intText (toLongLong (floorHalf val))
  isNumber _ := Json.isNumber_intText _

def sortObjects : Json Int → Json Int :=
  Json.fold .leaf .arr fun ms => .obj (sortBy byteLe ms)

-- Fails on numbers that are not integers after rounding.
def renderValue (v : Json Int) : Option (List Char) :=
  if v.Nums Renderable then some (Json.print .minimal renderNumber (sortObjects v)) else none

def jcsCanonicalize (json : List Char) : Option (List Char) := do
  let root ← parse json
  renderValue root

def clearSig : Json Int → Json Int
  | .obj ms => .obj <| modifyItem "sig" clearSigVal ms
  | v => v
where
  clearSigVal : Json Int → Json Int
    | .obj ns =>
      if hasItem "sig" ns then .obj (modifyItem "sig" setEmpty ns)
      else .obj (ns ++ [("sig", .str "")])
    | v => v
  setEmpty : Json Int → Json Int
    | .str _ => .str ""
    | v => v

def canonicalizeWithoutSig (root : Json Int) : Option (List Char) :=
  jcsCanonicalize (printUnformatted (clearSig root))

def verifiedBytes (text : List Char) : Option (List UInt8) := do
  let root ← parse text
  (canonicalizeWithoutSig root).map utf8

theorem sortObjects_eq_normalize (v : Json Int) : sortObjects v = v.normalize := by
  have hs : @sortBy (Json Int) byteLe _ = Json.sortKeys :=
    funext (Json.sortBy_eq_sortKeys Json.byteLe_iff)
  rw [sortObjects, hs]
  rfl

def reread (n : Int) : Int :=
  Binary64.round (printed (Binary64.round n))

-- The daemon renders a number as it was written.
structure Exact (n : Int) : Prop where
  reread : reread n = n
  half : floorHalf n = n
  range : -2 ^ 63 ≤ n ∧ n < 2 ^ 63

theorem exact_iff (n : Int) :
    (Renderable (reread n) ∧ renderNumber.text (reread n) = Json.intText n) ↔ Exact n := by
  simp only [renderNumber, Json.intText_injective.eq_iff]
  constructor
  case mp =>
    intro ⟨hr, ht⟩
    rw [show floorHalf (reread n) = reread n from hr, toLongLong] at ht
    split at ht
    case isTrue h => exact ⟨ht, ht ▸ hr, ht ▸ h⟩
    case isFalse h =>
      subst ht
      exact absurd (by decide) h
  case mpr =>
    intro ⟨hr, hh, hn⟩
    rw [hr]
    refine ⟨hh, ?_⟩
    rw [hh, toLongLong, if_pos hn]

theorem floorHalf_eq_self {n : Int} (h : n.natAbs ≤ 2 ^ 52) : floorHalf n = n := by
  by_cases hn : n = 2 ^ 52
  case pos => subst hn; decide
  rw [floorHalf, Binary64.round_eq_self (by omega)]
  omega

theorem exact_of_natAbs_le {n : Int} (h : n.natAbs ≤ 2 ^ 52) : Exact n where
  reread := by
    have hr : Binary64.round n = n := Binary64.round_eq_self (by omega)
    rw [Daemon.reread, hr, printed_eq_self h, hr]
  half := floorHalf_eq_self h
  range := by omega

def received (v : Json Json.Nlohmann.Number) : Json Int :=
  (v.mapNum fun x => reread x.toInt).mapText cString

section Payload

open Agent Json.Nlohmann

theorem clearSig_payload (f : Number → Int) (r : Request) (sig : String) :
    clearSig (((r.payload sig).mapNum f).mapText cString) =
      ((r.payload "").mapNum f).mapText cString := by
  have hk : ["agent_sequence", "capability", "command_message_id", "params", "policy_hash",
      "request_id", "alg", "canon", "kid"].map (fun k => (cString k, keyEq "sig" k)) =
      [("agent_sequence", false), ("capability", false), ("command_message_id", false),
        ("params", false), ("policy_hash", false), ("request_id", false), ("alg", false),
        ("canon", false), ("kid", false)] := by
    decide
  have hs : cString "sig" = "sig" ∧ keyEq "sig" "sig" = true ∧ cString "" = "" := by decide
  simp only [List.map_cons, List.map_nil, List.cons.injEq, Prod.mk.injEq, and_true] at hk
  simp [Request.payload, Request.members_eq, Request.sigMembers_eq, Json.Scalar.mapNum,
    Json.Scalar.mapText, clearSig, clearSig.clearSigVal, clearSig.setEmpty, modifyItem, hasItem,
    hk, hs]

theorem depth_payload (r : Request) (sig sig' : String) :
    (r.payload sig).depth = (r.payload sig').depth := by
  simp [Request.payload, Request.members_eq, Request.sigMembers_eq, Json.values]

theorem nums_payload {p : Number → Prop} (r : Request) (sig sig' : String) :
    (r.payload sig).Nums p ↔ (r.payload sig').Nums p := by
  simp only [Request.payload, Request.members_eq, Request.sigMembers_eq, Json.Nums.obj_iff,
    List.forall_mem_cons, Json.Nums.leaf_iff, Json.Scalar.Num]

theorem canonicalizeWithoutSig_eq {v : Json Int} (hd : (clearSig v).depth ≤ nestingLimit) :
    canonicalizeWithoutSig v =
      renderValue (((clearSig v).mapNum fun d => Binary64.round (printed d)).mapText cString) := by
  rw [canonicalizeWithoutSig, jcsCanonicalize, printUnformatted,
    parse_print _ (.of_forall readDouble_printNumber _), if_pos hd]
  rfl

theorem verifiedBytes_payload (r : Request) (sig : String)
    (h : (r.payload "").Nums (¬·.isFloat)) :
    verifiedBytes (Json.print .minimal Number.format (r.payload sig)) =
      if (r.payload "").depth ≤ nestingLimit then
        (renderValue (received (r.payload ""))).map utf8
      else none := by
  have hn : (r.payload sig).Nums fun x =>
      readDouble (Number.format.text x) = some (Binary64.round x.toInt) := by
    refine ((nums_payload r "" sig).mp h).imp fun x hx => ?_
    cases x
    case integer n => exact readDouble_intText n.val
    case float => contradiction
  rw [verifiedBytes, Json.CJson.parse_print _ hn, depth_payload r sig ""]
  by_cases hd : (r.payload "").depth ≤ nestingLimit
  case neg => simp [hd]
  have hc := clearSig_payload (fun x => Binary64.round x.toInt) r sig
  rw [if_pos hd, if_pos hd, Option.bind_eq_bind, Option.bind_some, canonicalizeWithoutSig_eq, hc,
    Json.mapNum_mapText, Json.mapText_mapText, Json.mapNum_mapNum, cString_comp_cString]
  · rfl
  · rw [hc, Json.depth_mapText, Json.depth_mapNum]
    exact hd

end Payload

-- The condition under which agent and daemon agree on a request: no string contains a NUL
-- character, it is not nested too deeply, and all numbers are rendered as they were written.
structure Agreed (r : Agent.Request) : Prop where
  depth : (r.payload "").depth ≤ nestingLimit
  texts : (r.payload "").Texts NoNul
  numbers : (r.payload "").Nums fun x => Exact x.toInt

section Received

open Json.Nlohmann

variable {v : Json Number}

theorem nums_exact_iff (hf : v.Nums (¬·.isFloat)) :
    v.Nums (fun x => Exact x.toInt) ↔ v.Nums (fun x => Renderable (reread x.toInt)) ∧
      v.Nums (fun x => renderNumber.text (reread x.toInt) = Number.format.text x) := by
  rw [← Json.Nums.and_iff]
  refine hf.congr fun x hx => ?_
  cases x
  case integer n => exact (exact_iff n.val).symm
  case float => contradiction

theorem texts_received (v : Json Number) : (received v).Texts NoNul :=
  Json.Texts.mapText_iff.mpr <| .of_forall noNul_cString _

theorem received_eq (h : v.Texts NoNul) : received v = v.mapNum fun x => reread x.toInt := by
  refine Json.mapText_eq_self <| Json.Texts.mapNum_iff.mpr ?_
  rwa [funext fun s => propext (cString_eq_self_iff s)]

theorem normalize_received_eq_iff (hs : Stored v) :
    (received v).normalize.mapNum renderNumber.text = v.mapNum Number.format.text ↔
      v.Texts NoNul ∧
        v.Nums fun x => renderNumber.text (reread x.toInt) = Number.format.text x := by
  have hn (h : v.Texts NoNul) : (received v).normalize.mapNum renderNumber.text =
      v.mapNum fun x => renderNumber.text (reread x.toInt) := by
    rw [received_eq h, ← Json.mapNum_normalize, hs.normalize_eq, Json.mapNum_mapNum]
    rfl
  constructor
  case mp =>
    intro h
    have ht : v.Texts NoNul := by
      rw [← Json.Texts.mapNum_iff (f := Number.format.text), ← h, Json.Texts.mapNum_iff,
        Json.Texts.normalize_iff]
      exact texts_received v
    exact ⟨ht, Json.mapNum_eq_mapNum_iff.mp <| (hn ht).symm.trans h⟩
  case mpr =>
    intro ⟨ht, hx⟩
    rw [hn ht, Json.mapNum_eq_mapNum_iff]
    exact hx

theorem renderValue_received_iff (hs : Stored v) (hf : v.Nums (¬·.isFloat)) :
    renderValue (received v) = some (Json.print .minimal Number.format v) ↔
      v.Texts NoNul ∧ v.Nums fun x => Exact x.toInt := by
  have hr : (received v).Nums Renderable ↔ v.Nums fun x => Renderable (reread x.toInt) := by
    rw [received, Json.Nums.mapText_iff, Json.Nums.mapNum_iff]
  have ha : ((received v).normalize).Texts (Json.Style.minimal.Agree .minimal) :=
    .of_forall (fun _ _ _ => rfl) _
  rw [renderValue, Option.ite_none_right_eq_some, Option.some.injEq, sortObjects_eq_normalize,
    Json.print_eq_print_iff rfl, and_iff_left ha, normalize_received_eq_iff hs, nums_exact_iff hf,
    hr, and_left_comm]

end Received

section

open Agent Json.Nlohmann

theorem verifiedBytes_eq_stripSigForCanonical_iff {r : Request} {bytes : List UInt8} (sig : String)
    (h : stripSigForCanonical (r.payload "") = some bytes) :
    verifiedBytes (Json.print .minimal Number.format (r.payload sig)) = some bytes ↔ Agreed r := by
  rw [stripSigForCanonical_payload, Option.ite_none_right_eq_some, Option.some.injEq] at h
  obtain ⟨hf, rfl⟩ := h
  have hu : Function.Injective (Option.map utf8) := Option.map_injective utf8_injective
  rw [verifiedBytes_payload r sig hf, Option.ite_none_right_eq_some, dump, ← Option.map_some,
    hu.eq_iff, renderValue_received_iff (r.stored_payload "") hf]
  exact ⟨fun ⟨hd, ht, hn⟩ => ⟨hd, ht, hn⟩, fun ⟨hd, ht, hn⟩ => ⟨hd, ht, hn⟩⟩

def readFileRequest (offset : Integer) : Request where
  requestId := "r"
  timestamp := "t"
  capability := "CAP_FS_READ"
  params := .obj [("offset", .num (.integer offset)), ("path", .str "é")]
  agentSequence := ⟨7, by decide, by decide⟩
  policyHash := "h"
  commandMessageId := "c"
  kid := "k"
  stored := by
    refine Json.Objects.obj_iff.mpr ⟨?_, by simp⟩
    show List.Pairwise Json.byteLt ["offset", "path"]
    decide

theorem verifiedBytes_eq_stripSigForCanonical_iff_small :
    ∃ bytes, stripSigForCanonical ((readFileRequest ⟨4096, by decide, by decide⟩).payload "") =
        some bytes ∧
      verifiedBytes (Json.print .minimal Number.format
        ((readFileRequest ⟨4096, by decide, by decide⟩).payload "s")) = some bytes := by
  have hs : (stripSigForCanonical
      ((readFileRequest ⟨4096, by decide, by decide⟩).payload "")).isSome = true := by
    decide +kernel
  have hx := Json.Nums.imp (fun x (h : x.toInt.natAbs ≤ 2 ^ 52) => exact_of_natAbs_le h)
    (v := (readFileRequest ⟨4096, by decide, by decide⟩).payload "") (by decide)
  have ⟨bytes, hb⟩ := Option.isSome_iff_exists.mp hs
  exact ⟨bytes, hb, (verifiedBytes_eq_stripSigForCanonical_iff "s" hb).mpr
    ⟨by decide, by decide, hx⟩⟩

-- The daemon sees `2 ^ 53 + 1` as a double and prints that with fifteen digits.
theorem verifiedBytes_ne_of_large_offset :
    (stripSigForCanonical
        ((readFileRequest ⟨2 ^ 53 + 1, by decide, by decide⟩).payload "")).isSome ∧
      verifiedBytes (Json.print .minimal Number.format
          ((readFileRequest ⟨2 ^ 53 + 1, by decide, by decide⟩).payload "s")) ≠
        stripSigForCanonical
          ((readFileRequest ⟨2 ^ 53 + 1, by decide, by decide⟩).payload "") := by
  decide +kernel

end

end Daemon
