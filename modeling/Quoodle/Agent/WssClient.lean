import Quoodle.Agent.Canonical
import Quoodle.Gateway.Received

namespace Agent

open Json.Nlohmann
open Gateway (received member_received received_str)
open Gateway (Value dumps signature signedBytes)

variable {env : Environment} {verify : List UInt8 → String → Bool} {m : Value}

structure Environment where
  -- `VerifyEd25519` with the key in `QUOODLE_CONTROLLER_PUBKEY_B64`, if there is one.
  controllerKey : Option (List UInt8 → String → Bool)
  allowUnverifiedWss : Bool
  -- What the library dumps for the double that it reads from a literal.
  readDouble : List Char → Option FloatText

def Environment.readNumber (env : Environment) (t : List Char) : Option Number :=
  match readInteger t with
  | some n => some (.integer n)
  | none => (env.readDouble t).map .float

def verifyControllerSig (env : Environment) (msg : Json Number) : Bool :=
  match env.controllerKey, msg with
  | none, _ => env.allowUnverifiedWss
  | some verify, .obj ms =>
    match ms.lookup "sig" with
    | some (.str sig) => verify (canonicalizeWss Number.format msg) sig
    | _ => false
  | some _, _ => false

def acceptsInbound (env : Environment) (payload : List Char) : Bool :=
  match parseWith env.readNumber payload with
  | some (.obj ms) => verifyControllerSig env (.obj ms)
  | _ => false

def Environment.Preserves (env : Environment) (n : Gateway.Number) : Prop :=
  (env.readNumber n.text).map Number.text = some n.text

instance (env : Environment) : DecidablePred env.Preserves :=
  fun _ => inferInstanceAs (Decidable (_ = _))

theorem parseWith_dumps (h : m.json.Nums env.Preserves) :
    ∃ f : Gateway.Number → Number, m.json.Nums (fun n => (f n).text = n.text) ∧
      parseWith env.readNumber (dumps Gateway.Number.format false m.json) =
        some (ofJson (m.json.mapNum f)) := by
  let f (n : Gateway.Number) := (env.readNumber n.text).getD (.integer ⟨0, by decide, by decide⟩)
  have hf (n : Gateway.Number) (h : env.Preserves n) :
      env.readNumber n.text = some (f n) ∧ (f n).text = n.text := by
    have ⟨x, hx, ht⟩ := Option.map_eq_some_iff.mp h
    simp only [f, hx, Option.getD_some]
    exact ⟨trivial, ht⟩
  exact ⟨f, h.imp fun n hn => (hf n hn).right, parseWith_print (h.imp fun n hn => (hf n hn).left)⟩

section Received

variable {f : Gateway.Number → Number}

theorem verifyControllerSig_received {env : Environment} {verify : List UInt8 → String → Bool}
    {m : Value} {sig : String} (he : env.controllerKey = some verify)
    (hf : m.json.Nums fun n => (f n).text = n.text) (hs : signature m = some sig) :
    verifyControllerSig env (received f m) = verify (signedBytes m) sig := by
  have hc : canonicalizeWss Number.format (received f m) = signedBytes m :=
    canonicalizeWss_ofJson m.distinct hf
  have hl : member (received f m) "sig" = some (.str sig) := by
    have hi : m.getItem "sig" = some (.str sig) :=
      Value.getItem_eq_some_iff.mpr (Gateway.signature_eq_some_iff.mp hs)
    rw [member_received, hi, Option.map_some, received_str]
  cases ho : received f m
  case obj ps =>
    rw [ho, member] at hl
    rw [ho] at hc
    simp only [verifyControllerSig, he, hl, hc]
  all_goals simp [ho, member] at hl

end Received

theorem acceptsInbound_of_parse
    {payload : List Char} {v : Json Number} (he : env.controllerKey = some verify)
    (hp : parseWith env.readNumber payload = some v) :
    acceptsInbound env payload = verifyControllerSig env v := by
  simp only [acceptsInbound, hp]
  cases v
  case obj => rfl
  all_goals simp [verifyControllerSig, he]

theorem acceptsInbound_eq {sig : String} (he : env.controllerKey = some verify)
    (hn : m.json.Nums env.Preserves) (hs : signature m = some sig) :
    acceptsInbound env (dumps Gateway.Number.format false m.json) =
      verify (signedBytes m) sig := by
  obtain ⟨f, hf, hp⟩ := parseWith_dumps hn
  rw [acceptsInbound_of_parse he hp]
  exact verifyControllerSig_received he hf hs

theorem acceptsInbound_of_signed {cfg : Gateway.Settings}
    {key : Gateway.SigningKey} (hk : cfg.signingKey = some key)
    (he : env.controllerKey = some key.verify) (hn : m.json.Nums env.Preserves)
    (hs : Gateway.Signed cfg m) :
    acceptsInbound env (dumps Gateway.Number.format false m.json) := by
  obtain ⟨sig, hm, hs⟩ := hs
  rw [Gateway.computeSig, hk, Option.some.injEq] at hs
  rw [acceptsInbound_eq he hn hm, ← hs]
  exact key.verify_sign _

end Agent
