import Quoodle.Windows.Canonical
import Quoodle.Windows.WsClient

def Gateway.Number.toInt : Gateway.Number → Int
  | .int n => n
  | .float _ => 0

-- What the agent for Windows verifies the signatures of commands with.
namespace Windows

open Json.Nlohmann
open Json (keys onValues intText rawMember Dialect Everywhere Nums Objects Plain Scalar erase
  erase_obj)
open Gateway (Settings Value received signedBytes)

def buildCanonicalEnvelope (double : FloatText → List Char) (envelopeJson : List Char) :
    List Char :=
  match parse envelopeJson with
  | some envelope => buildCanonicalValue double (eraseMember envelope "sig")
  | none => []

-- Scalars and keys that the agent writes as the gateway does.
def PortableScalar {ν : Type} (toInt : ν → Int) : Scalar ν → Prop
  | .num n => toInt n < 2 ^ 63
  | .str s => ∀ c ∈ s.toList, ¬Lettered c
  | _ => True

def PortableKeys (ks : List String) : Prop :=
  ∀ k ∈ ks, k ≠ "sig" ∧ Plain k.toList

def Portable {ν : Type} (toInt : ν → Int) : Json ν → Prop :=
  Everywhere (PortableScalar toInt) PortableKeys

instance {ν : Type} (toInt : ν → Int) : DecidablePred (PortableScalar toInt)
  | .null => isTrue trivial
  | .bool _ => isTrue trivial
  | .num n => inferInstanceAs (Decidable (toInt n < 2 ^ 63))
  | .str s => decidable_of_iff (s.toList.all fun c => !decide (Lettered c)) <| by
    simp [PortableScalar]

instance : DecidablePred PortableKeys :=
  fun ks => decidable_of_iff (ks.all fun k => decide (k ≠ "sig" ∧ Plain k.toList)) <| by
    simp [PortableKeys]

instance {ν : Type} (toInt : ν → Int) : DecidablePred (Portable toInt) :=
  inferInstanceAs (DecidablePred (Everywhere _ _))

def signedText (v : Json Number) : List Char :=
  Json.print .minimal Number.format (v.erase "sig")

section Cancel

variable {double : FloatText → List Char} {cs ds : List Char}
variable {ms : List (String × Json Number)} {v : Json Number} {m : String × Json Number}
variable {a : Scalar Number}

theorem intText_bmod_iff {n : Integer} :
    intText (n.val.bmod (2 ^ 64)) = intText n.val ↔ n.val < 2 ^ 63 := by
  have hl := n.lower
  rw [Json.intText_injective.eq_iff]
  constructor
  case mp =>
    intro h
    have hb := @Int.bmod_lt n.val (2 ^ 64) (by decide)
    rw [h] at hb
    simpa using hb
  case mpr => exact fun h => Int.bmod_eq_of_le (by simpa using hl) (by simpa using h)

theorem canonicalScalar_cancel (hf : a.Num fun n => ¬n.isFloat)
    (h : canonicalScalar double a ++ cs = Json.Style.minimal.scalar (a.mapNum Number.text) ++ ds)
    (hc : Dialect.Ends cs) (hd : Dialect.Ends ds) :
    PortableScalar Number.toInt a ∧ cs = ds := by
  cases a
  case null => exact ⟨trivial, List.append_cancel_left h⟩
  case bool b => cases b <;> exact ⟨trivial, List.append_cancel_left h⟩
  case num n =>
    cases n
    case integer n =>
      have hb := Dialect.Spells.number (d := .rfc) (Json.isNumber_intText (n.val.bmod (2 ^ 64)))
      have hn := Dialect.Spells.number (d := .rfc) (Json.isNumber_intText n.val)
      have ⟨ht, he⟩ := hb.cancel hn h hc hd
      exact ⟨intText_bmod_iff.mp ht, he⟩
    case float => exact absurd rfl hf
  case str s =>
    have hq : (escaper true).quote s.toList ++ cs =
      (Json.Escaper.ofStyle true .minimal).quote s.toList ++ ds := h
    obtain rfl := (Json.Escaper.quote_cancel (fun _ => rfl) (fun _ => rfl) hq).right
    have ht := (Json.Escaper.quote_eq_quote_iff (fun _ => rfl) (fun _ => rfl)).mp
      (List.append_cancel_right hq)
    exact ⟨fun c hc => escapeChar_eq_minimal_iff.mp (ht c hc), rfl⟩

theorem signedText_arr (vs : List (Json Number)) :
    signedText (.arr vs) = '[' :: [','].intercalate (vs.map signedText) ++ [']'] := by
  simp only [signedText, Json.erase_arr, Json.print_arr, List.map_map]
  rfl

theorem signedText_obj (ms : List (String × Json Number)) :
    signedText (.obj ms) = '{' ::
      [','].intercalate ((ms.filter (·.1 ≠ "sig")).map fun m =>
        Json.Style.minimal.member (m.1, signedText m.2)) ++ ['}'] := by
  rw [signedText, erase_obj, ← Json.onValues_filter_keys, Json.print_obj, Json.onValues_onValues]
  simp only [onValues, List.map_map]
  rfl

-- What follows a member that is signed: no member with the key `sig`.
def Unsigned (ds : List Char) : Prop :=
  Dialect.Ends ds ∧ ∀ es, ds ≠ ',' :: '"' :: 's' :: 'i' :: 'g' :: '"' :: es

def signedMember (m : String × Json Number) : List Char :=
  if m.1 = "sig" then [] else ',' :: Json.Style.minimal.member (m.1, signedText m.2)

theorem flatMap_signedMember (h : ms.filter (·.1 ≠ "sig") ≠ []) :
    ',' :: [','].intercalate ((ms.filter (·.1 ≠ "sig")).map fun m =>
      Json.Style.minimal.member (m.1, signedText m.2)) = ms.flatMap signedMember := by
  have hf := Dialect.append_intercalate [',']
    (fun m : String × Json Number => Json.Style.minimal.member (m.1, signedText m.2)) h
  refine hf.trans ?_
  clear h hf
  induction ms
  case nil => rfl
  case cons m ms hi =>
    by_cases hm : m.1 = "sig"
    case pos | neg => simpa [List.filter_cons, signedMember, hm] using hi

theorem unsigned_signedMember (h : Unsigned ds) : Unsigned (signedMember m ++ ds) := by
  unfold signedMember
  split
  case isTrue => exact h
  case isFalse hm =>
    refine ⟨.cons rfl, fun es he => hm ?_⟩
    rw [List.cons_append, Json.Style.member_append, ← @Json.Escaper.ofStyle_quote true] at he
    have hs : (Json.Escaper.ofStyle true .minimal).quote "sig".toList ++ es =
      '"' :: 's' :: 'i' :: 'g' :: '"' :: es := rfl
    have hk := Json.Escaper.quote_cancel (fun _ => rfl) (fun _ => rfl)
      ((List.cons.inj he).right.trans hs.symm)
    exact String.toList_inj.mp hk.left

theorem member_cancel (hv : ∀ cs ds, Dialect.Ends cs → Dialect.Ends ds →
      buildCanonicalValue double m.2 ++ cs = signedText m.2 ++ ds →
        Portable Number.toInt m.2 ∧ cs = ds)
    (hc : Dialect.Ends cs) (hd : Unsigned ds)
    (h : ',' :: rawMember (m.1, buildCanonicalValue double m.2) ++ cs = signedMember m ++ ds) :
    (m.1 ≠ "sig" ∧ Plain m.1.toList ∧ Portable Number.toInt m.2) ∧ cs = ds := by
  rw [List.cons_append, Json.Spelling.rawMember_append] at h
  by_cases hm : m.1 = "sig"
  case pos =>
    simp only [signedMember, hm, if_true, List.nil_append] at h
    exact absurd h.symm (hd.right _)
  case neg =>
    rw [signedMember, if_neg hm, List.cons_append, Json.Style.member_append] at h
    have hk : Json.Style.minimal.colon = [':'] := rfl
    have hq : m.1.toList ++ '"' :: ':' :: (buildCanonicalValue double m.2 ++ cs) =
        m.1.toList.flatMap Json.Style.minimal.escape ++ '"' :: ':' :: (signedText m.2 ++ ds) := by
      simpa [Json.Style.quote, hk] using h
    obtain ⟨hp, ht⟩ := Json.raw_cancel hq
    obtain ⟨hv, he⟩ := hv cs ds hc hd.left (List.cons.inj ht).right
    exact ⟨⟨hm, hp, hv⟩, he⟩

theorem object_cancel (hv : ∀ m ∈ ms, ∀ cs ds, Dialect.Ends cs → Dialect.Ends ds →
      buildCanonicalValue double m.2 ++ cs = signedText m.2 ++ ds →
        Portable Number.toInt m.2 ∧ cs = ds)
    (h : canonicalObject (onValues (buildCanonicalValue double) ms) ++ cs =
      signedText (.obj ms) ++ ds) :
    (∀ m ∈ ms, m.1 ≠ "sig" ∧ Plain m.1.toList ∧ Portable Number.toInt m.2) ∧ cs = ds := by
  simp only [canonicalObject, Json.rawObject, signedText_obj, onValues, List.map_map, List.cons_append,
    List.append_assoc, List.nil_append, List.cons.injEq, true_and] at h
  by_cases hl : ms = []
  case pos => simpa [hl] using h
  by_cases hf : ms.filter (·.1 ≠ "sig") = []
  case pos =>
    -- The agent writes a member where the gateway closes the object.
    rw [hf] at h
    obtain ⟨m, ms, rfl⟩ := List.exists_cons_of_ne_nil hl
    cases ms <;> simp [rawMember, List.intercalate_cons_cons] at h
  case neg =>
    have hu : Unsigned ('}' :: ds) := ⟨.cons rfl, by simp⟩
    have ha := congrArg (',' :: ·) h
    have hc := Dialect.append_intercalate [',']
      (rawMember ∘ fun m : String × Json Number => (m.1, buildCanonicalValue double m.2)) hl
    simp only [← List.cons_append, flatMap_signedMember hf] at ha
    rw [← List.singleton_append, hc] at ha
    obtain ⟨hp, ht⟩ := Json.flatMap_cancel (c := Dialect.Ends) (.cons rfl) hu
      (fun _ _ _ _ => .cons rfl) (fun _ _ _ => unsigned_signedMember)
      (fun m hm cs ds hc hd => member_cancel (hv m hm) hc hd) ha
    exact ⟨hp, (List.cons.inj ht).right⟩

-- The agent's text and the one that is signed are told apart where the value is not portable.
theorem buildCanonicalValue_cancel (hs : Stored v)
    (hf : v.Nums fun n => ¬n.isFloat) (h : buildCanonicalValue double v ++ cs = signedText v ++ ds)
    (hc : Dialect.Ends cs) (hd : Dialect.Ends ds) : Portable Number.toInt v ∧ cs = ds := by
  induction v generalizing cs ds
  case leaf a =>
    rw [buildCanonicalValue_leaf, signedText, Json.erase_leaf, Json.print_leaf] at h
    have ⟨ha, he⟩ := canonicalScalar_cancel (Nums.leaf_iff.mp hf) h hc hd
    exact ⟨Everywhere.leaf_iff.mpr ha, he⟩
  case arr vs hi =>
    simp only [buildCanonicalValue_arr, signedText_arr, List.cons_append, List.append_assoc,
      List.nil_append, List.cons.injEq, true_and] at h
    have ⟨hp, he⟩ := Dialect.intercalate_cancel rfl rfl (fun v hv cs ds hc hd h =>
      hi v hv (Objects.arr_iff.mp hs v hv) (Nums.arr_iff.mp hf v hv) h hc hd) h
    exact ⟨Everywhere.arr_iff.mpr hp, he⟩
  case obj ms hi =>
    have ⟨hk, hs⟩ := Objects.obj_iff.mp hs
    rw [buildCanonicalValue_obj double hk] at h
    have ⟨hp, he⟩ := object_cancel (fun m hm cs ds hc hd h =>
      hi m hm (hs m hm) (Nums.obj_iff.mp hf m hm) h hc hd) h
    refine ⟨Everywhere.obj_iff.mpr ⟨fun k hk => ?_, fun m hm => (hp m hm).right.right⟩, he⟩
    obtain ⟨m, hm, rfl⟩ := List.mem_map.mp hk
    exact ⟨(hp m hm).left, (hp m hm).right.left⟩

theorem canonicalScalar_eq (hf : a.Num fun n => ¬n.isFloat) (h : PortableScalar Number.toInt a) :
    canonicalScalar double a = Json.Style.minimal.scalar (a.mapNum Number.text) := by
  cases a
  case null => rfl
  case bool b => cases b <;> rfl
  case num n =>
    cases n
    case integer n => exact intText_bmod_iff.mpr h
    case float => exact absurd rfl hf
  case str s =>
    have hl (c : Char) : (escaper true).legible c = true := rfl
    have hm (c : Char) : (Json.Escaper.ofStyle true .minimal).legible c = true := rfl
    exact (Json.Escaper.quote_eq_quote_iff hl hm).mpr fun c hc =>
      escapeChar_eq_minimal_iff.mpr (h c hc)

theorem buildCanonicalValue_eq (hs : Stored v) (hf : v.Nums fun n => ¬n.isFloat)
    (h : Portable Number.toInt v) : buildCanonicalValue double v = signedText v := by
  induction v
  case leaf a =>
    rw [buildCanonicalValue_leaf, signedText, Json.erase_leaf, Json.print_leaf]
    exact canonicalScalar_eq (Nums.leaf_iff.mp hf) (Everywhere.leaf_iff.mp h)
  case arr vs hi =>
    have he := List.map_congr_left fun v hv => hi v hv (Objects.arr_iff.mp hs v hv)
      (Nums.arr_iff.mp hf v hv) (Everywhere.arr_iff.mp h v hv)
    rw [buildCanonicalValue_arr, signedText_arr, he]
  case obj ms hi =>
    have ⟨hk, hs⟩ := Objects.obj_iff.mp hs
    have ⟨hp, hm⟩ := Everywhere.obj_iff.mp h
    have he := Json.onValues_congr fun m hv => hi m hv (hs m hv) (Nums.obj_iff.mp hf m hv) (hm m hv)
    have hg : (onValues (erase "sig") ms).filter (·.1 ≠ "sig") = onValues (erase "sig") ms :=
      List.filter_eq_self.mpr <| Json.forall_mem_onValues.mpr fun m hm =>
        decide_eq_true (hp m.1 (List.mem_map_of_mem hm)).left
    rw [buildCanonicalValue_obj double hk, he, signedText, erase_obj, hg,
      Json.print_minimal_obj fun k hk => (hp k (by simpa using hk)).right, Json.onValues_onValues]
    rfl

theorem buildCanonicalValue_eq_iff (hs : Stored v) (hf : v.Nums fun n => ¬n.isFloat) :
    buildCanonicalValue double v = signedText v ↔ Portable Number.toInt v :=
  ⟨fun h => (buildCanonicalValue_cancel hs hf (congrArg (· ++ []) h) .nil .nil).left,
    buildCanonicalValue_eq hs hf⟩

end Cancel

section Erase

variable {ν μ : Type} {k : String}

theorem erase_eraseMember (v : Json ν) : (eraseMember v k).erase k = v.erase k := by
  cases v
  case obj ms =>
    simp only [eraseMember, erase_obj, Json.onValues_filter_keys, List.filter_filter, Bool.and_self]
  all_goals rfl

theorem mapNum_eraseMember (f : ν → μ) (v : Json ν) :
    (eraseMember v k).mapNum f = eraseMember (v.mapNum f) k := by
  cases v
  case obj ms => simp only [eraseMember, Json.mapNum_obj, Json.onValues_filter_keys]
  all_goals simp [eraseMember]

theorem normalize_eraseMember {v : Json ν} (h : v.Distinct) :
    (eraseMember v k).normalize = eraseMember v.normalize k := by
  cases v
  case obj ms =>
    have hk := (Json.Distinct.obj_iff.mp h).left
    simp only [eraseMember, Json.normalize_obj, Json.onValues_filter_keys]
    rw [Json.sortKeys_filter _ (by simpa using hk)]
  all_goals simp [eraseMember]

theorem everywhere_eraseMember {p : Scalar ν → Prop} {q : List String → Prop} {v : Json ν}
    (hq : ∀ {ks ls : List String}, ks.Sublist ls → q ls → q ks) (h : v.Everywhere p q) :
    (eraseMember v k).Everywhere p q := by
  cases v
  case obj ms =>
    have ⟨hk, hm⟩ := Everywhere.obj_iff.mp h
    refine Everywhere.obj_iff.mpr ⟨hq (List.filter_sublist.map _) hk, fun m hf => ?_⟩
    exact hm m (List.mem_of_mem_filter hf)
  all_goals exact h

end Erase

-- The numbers that the agent reads as integers.
def InRange : Gateway.Number → Prop
  | .int n => -2 ^ 63 ≤ n ∧ n < 2 ^ 64
  | .float _ => False

instance : DecidablePred InRange
  | .int n => inferInstanceAs (Decidable (-2 ^ 63 ≤ n ∧ n < 2 ^ 64))
  | .float _ => isFalse id

theorem number_of_inRange {env : Environment} {n : Gateway.Number} (h : InRange n) :
    (env.number n).text = n.text ∧ (env.number n).toInt = n.toInt ∧ ¬(env.number n).isFloat := by
  cases n
  case int n =>
    have hn : readInteger (intText n) = some ⟨n, h.left, h.right⟩ := readInteger_intText ⟨n, _, _⟩
    simp only [Environment.number, Gateway.Number.text, hn]
    exact ⟨rfl, rfl, by simp [Number.isFloat]⟩
  case float => exact h.elim

theorem perm_portableKeys {ks ls : List String} (h : ks.Perm ls) :
    PortableKeys ks ↔ PortableKeys ls := by
  simp only [PortableKeys, h.mem_iff]

section Envelope

variable {env : Environment} {double : FloatText → List Char} {e : Value}

theorem received_eq (e : Value) :
    received env.number e = (e.json.mapNum env.number).normalize :=
  ofJson_eq_normalize e.distinct.mapNum

-- The gateway's bytes are those of the value that the agent has parsed.
theorem signedBytes_eq (hn : e.json.Nums InRange) :
    signedBytes e =
      utf8 (signedText (eraseMember (received env.number e) "sig")) := by
  have ht : e.json.mapNum Gateway.Number.text = e.json.mapNum (Number.text ∘ env.number) :=
    Json.mapNum_eq_mapNum_iff.mpr <| hn.imp fun n h => (number_of_inRange h).left.symm
  rw [signedBytes, Gateway.canonicalizeJson_eq, Gateway.stripSig_eq_erase, signedText,
    erase_eraseMember, received_eq, ← Json.normalize_erase e.distinct.mapNum]
  refine congrArg utf8 (Json.print_congr .minimal ?_)
  simp only [Json.mapNum_normalize, Json.mapNum_erase, Json.mapNum_mapNum]
  exact congrArg (fun v => (v.erase "sig").normalize) ht

theorem portable_received_iff (hn : e.json.Nums InRange) :
    Portable Number.toInt (eraseMember (received env.number e) "sig") ↔
      Portable Gateway.Number.toInt (eraseMember e.json "sig") := by
  have hi : (eraseMember e.json "sig").Nums InRange := everywhere_eraseMember (fun _ _ => trivial) hn
  rw [received_eq, ← normalize_eraseMember e.distinct.mapNum, ← mapNum_eraseMember]
  refine (Everywhere.normalize_iff perm_portableKeys).trans <|
    Everywhere.mapNum_iff.trans <| hi.everywhere_congr fun a ha => ?_
  cases a
  case num n =>
    change (env.number n).toInt < 2 ^ 63 ↔ n.toInt < 2 ^ 63
    rw [(number_of_inRange ha).right.left]
  all_goals rfl

theorem buildCanonicalEnvelope_dump_iff (hn : e.json.Nums InRange) :
    utf8 (buildCanonicalEnvelope double (dump (received env.number e))) =
        signedBytes e ↔
      Portable Gateway.Number.toInt (eraseMember e.json "sig") := by
  have hs : Stored (received env.number e) := stored_ofJson _
  have hp : parse (dump (received env.number e)) = some _ := parse_print hs
  have hf : (received env.number e).Nums fun n => ¬n.isFloat := by
    rw [received_eq]
    refine (Everywhere.normalize_iff fun _ => .rfl).mpr (Nums.mapNum_iff.mpr ?_)
    exact hn.imp fun n h => (number_of_inRange h).right.right
  rw [@signedBytes_eq env e hn, utf8_injective.eq_iff, buildCanonicalEnvelope, hp,
    buildCanonicalValue_eq_iff (everywhere_eraseMember (fun hk => .sublist hk) hs)
    (everywhere_eraseMember (fun _ _ => trivial) hf), portable_received_iff hn]

-- The agent verifies a command that the gateway has signed with the bytes that were signed exactly if
-- its integers fit a signed word, its strings have no control characters that are escaped with capital
-- letters, its keys need no escapes, and only the envelope itself has a member `sig`.
theorem buildCanonicalEnvelope_eq_iff {cfg : Settings} {stamp : Gateway.DeliveryStamp}
    {payload m : Value} {sessionId : String}
    (hm : Gateway.buildCommandDelivery cfg stamp payload sessionId = some m)
    (hn : m.json.Nums InRange) :
    ∃ e envelope, ((m.getItem "body").bind fun body => body.getItem "command_envelope") = some e ∧
      Gateway.Signed cfg e ∧
      ((member (received env.number m) "body").bind fun body =>
        member body "command_envelope") = some envelope ∧
      (utf8 (buildCanonicalEnvelope double (dump envelope)) = signedBytes e ↔
        Portable Gateway.Number.toInt (eraseMember e.json "sig")) := by
  obtain ⟨_, _, _, body, _, e, hb, he, hs, _⟩ := Gateway.getItem_buildCommandDelivery hm
  refine ⟨e, received env.number e, by simp [hb, he], hs, ?_, ?_⟩
  · simp [Gateway.member_received, hb, he]
  · exact buildCanonicalEnvelope_dump_iff (Gateway.nums_of_getItem he (Gateway.nums_of_getItem hb hn))

def exampleEnvironment : Environment where
  requireSignature := true
  readDouble _ := ⟨"0.5".toList, by decide, by decide⟩
  truncate _ := 0
  verify _ _ := true

def exampleSettings : Settings :=
  { Gateway.plainSettings with signingKey := some ⟨fun _ => "sig", fun _ _ => true, fun _ => rfl⟩ }

def listFiles (path : String) : Value :=
  .dict [
    ("device_id", .str "dev-1"),
    ("method", .str "list_files"),
    ("params", .dict [("path", .str path)])
  ]

def listFilesDelivery (path : String) : Option Value :=
  Gateway.buildCommandDelivery exampleSettings Gateway.stamp (listFiles path) "s-1"

def envelopeOf (m : Value) : Option Value :=
  (m.getItem "body").bind fun body => body.getItem "command_envelope"

theorem buildCanonicalEnvelope_eq_iff_tmp :
    ∃ m e envelope, listFilesDelivery "/tmp" = some m ∧ envelopeOf m = some e ∧
      ((member (received exampleEnvironment.number m) "body").bind fun body =>
        member body "command_envelope") = some envelope ∧
      utf8 (buildCanonicalEnvelope FloatText.text (dump envelope)) = signedBytes e := by
  have hx : (listFilesDelivery "/tmp").any (fun m => decide (m.json.Nums InRange) &&
      (envelopeOf m).all fun e => decide (Portable Gateway.Number.toInt (eraseMember e.json "sig"))) := by
    decide
  simp only [Option.any_eq_true, Bool.and_eq_true, decide_eq_true_eq, Option.all_eq_true] at hx
  obtain ⟨m, hm, hn, hp⟩ := hx
  obtain ⟨e, envelope, he, _, hr, hi⟩ :=
    @buildCanonicalEnvelope_eq_iff exampleEnvironment FloatText.text _ _ _ _ _ hm hn
  exact ⟨m, e, envelope, hm, he, hr, hi.mpr (hp e he)⟩

-- A path with an escape character.
theorem buildCanonicalEnvelope_escape :
    ∃ m e envelope, listFilesDelivery "/tmp/\x1b" = some m ∧ envelopeOf m = some e ∧
      ((member (received exampleEnvironment.number m) "body").bind fun body =>
        member body "command_envelope") = some envelope ∧
      utf8 (buildCanonicalEnvelope FloatText.text (dump envelope)) ≠ signedBytes e := by
  have hx : ((listFilesDelivery "/tmp/\x1b").any fun m => (envelopeOf m).any fun e =>
      decide (e.json.Nums InRange ∧ ¬Portable Gateway.Number.toInt (eraseMember e.json "sig"))) := by
    decide
  simp only [Option.any_eq_true, decide_eq_true_eq] at hx
  obtain ⟨m, hm, e, he, hn, hp⟩ := hx
  refine ⟨m, e, received exampleEnvironment.number e, hm, he, ?_, ?_⟩
  · obtain ⟨body, hb, he⟩ := Option.bind_eq_some_iff.mp he
    simp [Gateway.member_received, hb, he]
  · exact fun h => hp ((buildCanonicalEnvelope_dump_iff hn).mp h)

end Envelope

end Windows
