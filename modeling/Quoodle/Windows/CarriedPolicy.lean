import Quoodle.Windows.PolicyBlob

-- What the driver gets of a policy that it accepts.
namespace Windows.AppLock

open Json.Nlohmann Kernel Kernel.AppLockdown

section Seen

variable {appLock : Json Number} {defaultPolicyHash : List UInt8} {h : Header}
variable {rules rs rs' : List BlobRule} {r : BlobRule} {p : Policy}

def reaching : List BlobRule → List BlobRule
  | [] => []
  | r :: rs => r.held :: if 0 ∈ r.value then [] else reaching rs

-- The rules that the driver gets from a blob that it accepts.
def seen (h : Header) (rules : List BlobRule) : List BlobRule :=
  if 0 ∈ h.policyVersion ∨ 0 ∈ h.policyHash then [] else reaching rules

def Clean (rules : List BlobRule) : Prop :=
  ∀ r ∈ rules, 0 ∉ r.ruleId ∧ 0 ∉ r.value

theorem clean_or_exists (rules : List BlobRule) :
    Clean rules ∨ ∃ rs r rs', rules = rs ++ r :: rs' ∧ Clean rs ∧ (0 ∈ r.ruleId ∨ 0 ∈ r.value) := by
  induction rules
  case nil => exact .inl (by simp [Clean])
  case cons r rules hi =>
    by_cases hr : 0 ∈ r.ruleId ∨ 0 ∈ r.value
    case pos => exact .inr ⟨[], r, rules, rfl, by simp [Clean], hr⟩
    have hc {rs : List BlobRule} (hs : Clean rs) : Clean (r :: rs) :=
      List.forall_mem_cons.mpr ⟨not_or.mp hr, hs⟩
    refine hi.imp hc ?_
    rintro ⟨rs, s, rs', rfl, hs, hz⟩
    exact ⟨r :: rs, s, rs', rfl, hc hs, hz⟩

theorem reaching_append (hc : Clean rs) (rs' : List BlobRule) :
    reaching (rs ++ rs') = rs.map BlobRule.held ++ reaching rs' := by
  induction rs
  case nil => rfl
  case cons r rs hi =>
    obtain ⟨hr, hc⟩ := List.forall_mem_cons.mp hc
    rw [List.cons_append, reaching, if_neg hr.right, hi hc, List.map_cons, List.cons_append]

theorem ruleEntries_append (i : Nat) (rs rs' : List BlobRule) :
    ruleEntries i (rs ++ rs') = ruleEntries i rs ++ ruleEntries (i + rs.length) rs' := by
  induction rs generalizing i
  case nil => rfl
  case cons r rs hi =>
    rw [List.cons_append, ruleEntries, ruleEntries, hi, List.append_assoc, List.length_cons,
      Nat.add_right_comm, Nat.add_assoc]

variable {fields' : List (String × List UInt8)} {f : String × List UInt8}

theorem entries_of_fields {fields : List (String × List UInt8)} (h : Header) (rs rs' : List BlobRule)
    (hs : r.fields = fields ++ f :: fields') :
    h.entries ++ ruleEntries 0 (rs ++ r :: rs') =
      (h.entries ++ ruleEntries 0 rs ++ fields.map (fieldEntry rs.length)) ++
        fieldEntry rs.length f ::
          (fields'.map (fieldEntry rs.length) ++ ruleEntries (rs.length + 1) rs') := by
  simp [ruleEntries_append, ruleEntries, BlobRule.entries_eq, hs]

-- What the driver completes if the text ends within a field of a rule.
theorem exists_of_parse_cut (fields : List (String × List UInt8))
    (hb : Built appLock defaultPolicyHash h (rs ++ r :: rs'))
    (hz : 0 ∉ h.policyVersion ∧ 0 ∉ h.policyHash) (hc : Clean rs)
    (hs : r.fields = fields ++ f :: fields') (hn : ∀ g ∈ fields, 0 ∉ g.2) (hf' : 0 ∈ f.2)
    (hp : Parses h (rs ++ r :: rs') p) :
    ∃ (q : Policy) (i : Fin maxRules) (s : Rule), i.val = rs.length ∧
      Loaded q h.enabled (table 0 (rs.map BlobRule.held) fun _ => .unused) ∧
      (fields ++ [(f.1, terminated f.2)]).foldlM
        (fun s f => Rule.setField s (ascii f.1) (copyAscii maxRuleValue f.2)) .unused = .ok s ∧
      Policy.finish { q with rules := Function.update q.rules i s } = .ok p := by
  have hlen := hb.length_le
  rw [List.length_append, List.length_cons] at hlen
  let i : Fin maxRules := ⟨rs.length, by omega⟩
  have hd := entries_of_fields h rs rs' hs
  have hz : ∀ e ∈ h.entries ++ ruleEntries 0 rs ++ fields.map (fieldEntry i), 0 ∉ e.2 := by
    simp only [List.forall_mem_append, List.forall_mem_map]
    refine ⟨⟨fun e he hz' => ?_, zero_not_mem_ruleEntries hc 0⟩, hn⟩
    exact (Header.zero_not_mem hb.mode hb.failMode e he hz').elim hz.left hz.right
  rw [Parses, parsePolicyBlob_eq (blobText_ne_nil h _) hb.length.le, blobText, hd,
    parseText_of_cut (hd ▸ hb.written) hz hf', List.append_assoc] at hp
  obtain ⟨q, hq, hl⟩ := exists_foldlM_blob hb.mode hb.failMode
    (fun s hs => ⟨hb.normal s (List.mem_append_left _ hs), (hc s hs).right⟩)
    (show rs.length ≤ maxRules from i.isLt.le)
  have hu : q.rules i = .unused := by simp [hl.rules, table, i]
  have ha : ∀ g ∈ fields ++ [(f.1, terminated f.2)], g.1 ∈ ruleFields := by
    have hd := r.field_mem
    rw [hs] at hd
    simp only [List.forall_mem_append, List.forall_mem_cons] at hd ⊢
    exact ⟨hd.left, hd.right.left, by simp⟩
  let e := fieldEntry rs.length f
  have hm : fields.map (fieldEntry i) ++ [(e.1, terminated e.2)] =
      (fields ++ [(f.1, terminated f.2)]).map (fieldEntry i) := by
    simp [fieldEntry, e, i]
  rw [hm, List.foldlM_append, hq] at hp
  obtain ⟨q', hq', hp⟩ := exists_of_bind_eq_ok hp
  have hx : (List.map (fieldEntry i) _).foldlM applyEntry q = .ok q' := hq'
  rw [foldlM_fields i ha, hu] at hx
  obtain ⟨s, hs, rfl⟩ := exists_of_map_eq_ok hx
  exact ⟨q, i, s, rfl, hl, hs, hp⟩

theorem isInvalid_of_finish {q : Policy} (h : p.finish = .ok q) (i : Fin maxRules) :
    (p.rules i).isInvalid = false := by
  unfold Policy.finish at h
  split at h
  case isTrue => cases h
  split at h
  case isTrue => cases h
  split at h
  case isTrue => cases h
  case isFalse hv =>
    exact Bool.eq_false_iff.mpr fun hi => hv (List.any_eq_true.mpr ⟨i, List.mem_finRange i, hi⟩)

-- What the lines of a rule up to its value leave. A priority is only missing until the end.
def BlobRule.unfinished (r : BlobRule) : Rule :=
  { r.held.toKernel with priority := 0 }

theorem finish_unfinished (hr : r.held.Normal) (hz : 0 ∈ r.value) (i : Fin maxRules) :
    r.unfinished.finish i = r.held.toKernel := by
  rw [← finish_toKernel hr r.fits_held i]
  simp [Rule.finish, BlobRule.unfinished, BlobRule.toKernel, BlobRule.held, hz]

theorem setFields_of_zero_mem (hr : r.Normal) (hz : 0 ∈ r.value) :
    [("rule_id", r.ruleId), ("match_type", r.matchType.text), ("value", terminated r.value)].foldlM
      (fun s f => Rule.setField s (ascii f.1) (copyAscii maxRuleValue f.2)) .unused =
        .ok r.unfinished := by
  have hv := copyAscii_value (normalizeAsciiPath_of_isPrefix (terminated_isPrefix _) hr.value)
  simp only [List.foldlM_cons, List.foldlM_nil, Rule.setField_ruleId,
    r.toRuntimeRule.matchType.setField, Rule.setField_value, copyAscii_ruleId, hv]
  simp [BlobRule.unfinished, BlobRule.toKernel, BlobRule.held, hz]
  rfl

theorem Completes.update {i : Fin maxRules} {s : Rule} (hc : Completes p rs) (hi : i.val = rs.length)
    (hs : s.used ∧ s.isInvalid = false ∧ s.finish i = r.toKernel) :
    Completes { p with rules := Function.update p.rules i s } (rs ++ [r]) := by
  intro j
  by_cases hj : j = i
  case pos => simpa [hj, hi] using hs
  have hn : j.val ≠ rs.length := fun h => hj (Fin.ext (h.trans hi.symm))
  have hg : (rs ++ [r])[j.val]? = rs[j.val]? := by grind
  simpa only [Function.update_of_ne hj, hg] using hc j

theorem carries_of_cut_value (hb : Built appLock defaultPolicyHash h (rs ++ r :: rs'))
    (hz : 0 ∉ h.policyVersion ∧ 0 ∉ h.policyHash) (hc : Clean rs) (hi : 0 ∉ r.ruleId)
    (hv : 0 ∈ r.value)
    (hp : Parses h (rs ++ r :: rs') p) :
    Carries p h.enabled (rs.map BlobRule.held ++ [r.held]) := by
  have hn : r.Normal := hb.normal r (by simp)
  have ht := r.matchType.zero_not_mem_text
  obtain ⟨q, i, s, hi, hl, hs, hq⟩ := exists_of_parse_cut
    [("rule_id", r.ruleId), ("match_type", r.matchType.text)] hb hz hc rfl
    (by simp [hi, ht]) hv hp
  cases (setFields_of_zero_mem hn hv).symm.trans hs
  have hu : r.unfinished.isInvalid = false := by simpa using isInvalid_of_finish hq i
  have hne : terminated r.value ≠ [] := by
    intro he
    simp [Rule.isInvalid, BlobRule.unfinished, BlobRule.toKernel, BlobRule.held, he, copyAscii] at hu
  have hc' := completes_table (normal_held fun s hs =>
    ⟨hb.normal s (List.mem_append_left _ hs), (hc s hs).right⟩) hl
  have hn' : (rs.map BlobRule.held ++ [r.held]).length ≤ maxRules := by
    rw [List.length_append, List.length_map, List.length_singleton, ← hi]
    exact i.isLt
  obtain ⟨p', hp', hs⟩ := exists_finish
    (p := { q with rules := Function.update q.rules i r.unfinished }) hn'
    ⟨hl.enabled, hl.mode, hl.failMode, rfl⟩
    (hc'.update (by simpa using hi) ⟨rfl, hu, finish_unfinished (hn.held hne) hv i⟩)
  cases hp'.symm.trans hq
  exact hs

-- A terminator in the identifier of a rule leaves the rule without a value, which is an error.
theorem clean_or_exists_of_parse (hb : Built appLock defaultPolicyHash h rules)
    (hz : 0 ∉ h.policyVersion ∧ 0 ∉ h.policyHash)
    (hp : Parses h rules p) :
    Clean rules ∨
      ∃ rs r rs', rules = rs ++ r :: rs' ∧ Clean rs ∧ 0 ∉ r.ruleId ∧ 0 ∈ r.value := by
  refine (clean_or_exists rules).imp_right ?_
  rintro ⟨rs, r, rs', rfl, hc, hv⟩
  by_cases hi : 0 ∈ r.ruleId
  case neg => exact ⟨rs, r, rs', rfl, hc, hi, hv.resolve_left hi⟩
  obtain ⟨q, i, s, _, _, hs, hq⟩ :=
    exists_of_parse_cut [] hb hz hc rfl (by simp) hi hp
  have hv := isInvalid_of_finish hq i
  rw [List.nil_append, List.foldlM_cons, Rule.setField_ruleId] at hs
  cases hs
  simp [Rule.isInvalid, Rule.unused] at hv

theorem reaching_of_clean (hc : Clean rules) : reaching rules = rules.map BlobRule.held := by
  simpa [reaching] using reaching_append hc []

theorem carries_seen (hb : Built appLock defaultPolicyHash h rules)
    (hp : Parses h rules p) :
    Carries p h.enabled (seen h rules) := by
  by_cases hz : 0 ∈ h.policyVersion ∨ 0 ∈ h.policyHash
  case pos =>
    obtain ⟨q, hq, hc⟩ := (intact_or_exists_carries_nil hb).resolve_left
      fun hn => hz.elim hn.left hn.right
    cases hq.symm.trans hp
    rwa [seen, if_pos hz]
  case neg =>
    rw [seen, if_neg hz]
    rw [not_or] at hz
    obtain hc | ⟨rs, r, rs', rfl, hc, hi, hv⟩ := clean_or_exists_of_parse hb hz hp
    · obtain ⟨q, hq, hs⟩ := exists_carries_of_clean hb hz hc
      cases hq.symm.trans hp
      rwa [reaching_of_clean hc]
    · rw [reaching_append hc, reaching, if_pos hv]
      exact carries_of_cut_value hb hz hc hi hv hp

-- What the buffers and the terminators of the driver leave as it is.
structure Intact (h : Header) (rules : List BlobRule) : Prop where
  policyVersion : 0 ∉ h.policyVersion
  policyHash : 0 ∉ h.policyHash
  rules : ∀ r ∈ rules, r.Fits ∧ 0 ∉ r.ruleId ∧ 0 ∉ r.value

theorem exists_carries (hb : Built appLock defaultPolicyHash h rules) (hi : Intact h rules) :
    ∃ p, Parses h rules p ∧
      Carries p h.enabled rules := by
  have hs : rules.map BlobRule.held = rules :=
    (List.map_congr_left fun r hr =>
      BlobRule.held_eq_self (hi.rules r hr).left (hi.rules r hr).right.right).trans (List.map_id _)
  have hc := exists_carries_of_clean hb ⟨hi.policyVersion, hi.policyHash⟩
    fun r hr => (hi.rules r hr).right
  rwa [hs] at hc

theorem BlobRule.eq_of_toKernel {s : BlobRule} (h : r.toKernel = s.toKernel) : r = s := by
  obtain ⟨⟨m, v⟩, i, n, t⟩ := r
  obtain ⟨⟨m', v'⟩, i', n', t'⟩ := s
  simp only [BlobRule.toKernel, Rule.mk.injEq, true_and] at h
  obtain ⟨rfl, hm, rfl, rfl, ht, ht'⟩ := h
  cases m <;> cases m' <;> cases t <;> cases t' <;> simp_all [MatchType.toKernel]

theorem Carries.eq {enabled : Bool} (hc : Carries p enabled rs) (hc' : Carries p enabled rs')
    (hl : rs.length ≤ maxRules) : rs = rs' := by
  have hn := hc.ruleCount.symm.trans hc'.ruleCount
  refine List.ext_getElem hn fun i hi hi' => BlobRule.eq_of_toKernel ?_
  have hr := hc.rules ⟨i, hi.trans_le hl⟩
  rw [hc'.rules, List.getElem?_eq_getElem hi, List.getElem?_eq_getElem hi'] at hr
  exact hr.symm

theorem intact_of_carries (hb : Built appLock defaultPolicyHash h rules)
    (hp : Parses h rules p)
    (hc : Carries p h.enabled rules) (hn : rules ≠ []) : Intact h rules := by
  have hs := hc.eq (carries_seen hb hp) hb.length_le
  have hz : ¬(0 ∈ h.policyVersion ∨ 0 ∈ h.policyHash) :=
    fun hz => hn (hs.trans (by rw [seen, if_pos hz]))
  rw [seen, if_neg hz] at hs
  rw [not_or] at hz
  obtain hc | ⟨rs, r, rs', rfl, hc, _, hv⟩ := clean_or_exists_of_parse hb hz hp
  · rw [reaching_of_clean hc] at hs
    refine ⟨hz.left, hz.right, fun r hm => ⟨?_, hc r hm⟩⟩
    rw [hs] at hm
    obtain ⟨s, _, rfl⟩ := List.mem_map.mp hm
    exact s.fits_held
  · rw [reaching_append hc, reaching, if_pos hv] at hs
    obtain ⟨_, hs⟩ := List.append_inj hs (by simp)
    rw [(List.cons_eq_cons.mp hs).left] at hv
    exact absurd (List.mem_of_mem_take hv) (zero_not_mem_terminated _)

theorem exists_carries_iff (hb : Built appLock defaultPolicyHash h rules) :
    (∃ p, Parses h rules p ∧
      Carries p h.enabled rules) ↔ rules = [] ∨ Intact h rules := by
  constructor
  · rintro ⟨p, hp, hc⟩
    exact or_iff_not_imp_left.mpr (intact_of_carries hb hp hc)
  · rintro (rfl | hi)
    · cases intact_or_exists_carries_nil hb
      case inl hz => exact exists_carries hb ⟨hz.left, hz.right, by simp⟩
      case inr hp => exact hp
    · exact exists_carries hb hi

end Seen

section Carried

variable {appLock : Json Number} {defaultPolicyHash blob : List UInt8} {h : Header}
variable {rules : List BlobRule}

def Carried (appLock : Json Number) (blob : List UInt8) : Prop :=
  ∃ enabled ∈ value readBool appLock "enabled" false, ∃ rules ∈ emittedRules appLock,
    ∃ p ∈ (parsePolicyBlob blob blob.length).toOption, Carries p enabled rules

def Holds (n : Nat) (text : List UInt8) : Prop :=
  text.length < n ∧ 0 ∉ text

structure Carriable (appLock : Json Number) (defaultPolicyHash : List UInt8) : Prop where
  policyVersion : ∀ text, value readText appLock "policy_version" [] = some text → 0 ∉ text
  policyHash : ∀ text, value readText appLock "policy_hash" defaultPolicyHash = some text → 0 ∉ text
  rules : ∀ rule ∈ ruleList appLock, ∀ r, readRuntimeRule rule = some (some r) →
    Holds maxRuleValue r.value ∧ ∀ ruleId, readRuleId rule = some ruleId → Holds maxRuleId ruleId

theorem eq_nil_iff_forall_not_isTaken (hb : Built appLock defaultPolicyHash h rules) :
    rules = [] ↔ ∀ rule ∈ ruleList appLock, ¬IsTaken rule := by
  constructor
  · rintro rfl rule hm ⟨r, ht⟩
    obtain ⟨_, _, b, hb, _⟩ := exists_mem_of_isTaken hb.emitted hb.length_lt hm ht
    cases hb
  · intro hn
    refine List.eq_nil_iff_forall_not_mem.mpr fun b hm => ?_
    obtain ⟨i, _, rule, hm, hs⟩ := exists_of_mem_emitted hb.emitted hb.length_lt hm
    exact hn rule hm ⟨_, (exists_of_readBlobRule hs).left⟩

theorem holds_ruleId_iff {i : Nat} {rule : Json Number} {b : BlobRule} (hi : i < 64)
    (hb : readBlobRule i rule = some (some b)) :
    (∀ ruleId, readRuleId rule = some ruleId → Holds maxRuleId ruleId) ↔ Holds maxRuleId b.ruleId := by
  obtain ⟨_, ruleId, hr, he, _⟩ := exists_of_readBlobRule hb
  have hd : Holds maxRuleId (ascii "rule-" ++ decimal i) := by
    have hl : (decimal i).length ≤ 2 := length_decimal_le (by decide) (hi.trans (by decide))
    have ha : (ascii "rule-").length = 5 ∧ 0 ∉ ascii "rule-" := by decide
    refine ⟨?_, by simp [ha.right, zero_not_mem_decimal]⟩
    rw [List.length_append, ha.left, maxRuleId]
    omega
  have hn : Holds maxRuleId [] := ⟨by decide, by simp⟩
  simp only [hr, Option.some_inj, forall_eq', he]
  split
  case isTrue hs => simp only [hs, hn, hd]
  case isFalse hs => exact Iff.rfl

theorem intact_iff_carriable (hb : Built appLock defaultPolicyHash h rules) :
    Intact h rules ↔ Carriable appLock defaultPolicyHash := by
  obtain ⟨_, ⟨version, hv, hv'⟩, ⟨hash, hs, hs'⟩, _⟩ := exists_of_readHeader hb.header
  have hr := hb.emitted
  have hl := hb.length_lt
  constructor
  · intro hi
    refine ⟨fun text ht => ?_, fun text ht => ?_, fun rule hm r ht => ?_⟩
    · rw [hv] at ht
      cases ht
      exact zero_mem_sanitizeScalar_iff.not.mp (hv' ▸ hi.policyVersion)
    · rw [hs] at ht
      cases ht
      exact zero_mem_sanitizeScalar_iff.not.mp (hs' ▸ hi.policyHash)
    · obtain ⟨i, hi', b, hb, hc, rfl⟩ := exists_mem_of_isTaken hr hl hm ht
      have hf := hi.rules b hb
      exact ⟨⟨hf.left.value, hf.right.right⟩,
        (holds_ruleId_iff hi' hc).mpr ⟨hf.left.ruleId, hf.right.left⟩⟩
  · intro hc
    refine ⟨?_, ?_, fun b hb => ?_⟩
    · rw [hv', zero_mem_sanitizeScalar_iff]
      exact hc.policyVersion version hv
    · rw [hs', zero_mem_sanitizeScalar_iff]
      exact hc.policyHash hash hs
    · obtain ⟨i, hi, rule, hm, hr⟩ := exists_of_mem_emitted hr hl hb
      obtain ⟨hv, hi'⟩ := hc.rules rule hm _ (exists_of_readBlobRule hr).left
      have hi := (holds_ruleId_iff hi hr).mp hi'
      exact ⟨⟨hi.left, hv.left⟩, hi.right, hv.right⟩

theorem mem_toOption_iff {ε α : Type} {x : Except ε α} {a : α} : a ∈ x.toOption ↔ x = .ok a := by
  cases x
  case error => simp [Except.toOption]
  case ok => simp [Except.toOption, eq_comm]

-- The blob carries the bundle if and only if it has no rules or its texts fit.
theorem carried_iff (hb : buildPolicyBlob appLock defaultPolicyHash = some (.ok blob)) :
    Carried appLock blob ↔
      (∀ rule ∈ ruleList appLock, ¬IsTaken rule) ∨ Carriable appLock defaultPolicyHash := by
  obtain ⟨h, rules, hd, rfl⟩ := buildPolicyBlob_eq_ok_iff.mp hb
  have he := (exists_of_readHeader hd.header).left
  rw [← eq_nil_iff_forall_not_isTaken hd, ← intact_iff_carriable hd, ← exists_carries_iff hd]
  constructor
  · rintro ⟨enabled, he', rules', hr', p, hp, hc⟩
    cases he.symm.trans he'
    cases hd.emitted.symm.trans hr'
    exact ⟨p, mem_toOption_iff.mp hp, hc⟩
  · rintro ⟨p, hp, hc⟩
    exact ⟨h.enabled, he, rules, hd.emitted, p, mem_toOption_iff.mpr hp, hc⟩

instance (p : Policy) (enabled : Bool) (rules : List BlobRule) :
    Decidable (Carries p enabled rules) :=
  decidable_of_iff (p.enabled = enabled ∧ p.ruleCount = rules.length ∧ ∀ i : Fin maxRules,
      p.rules i = (rules[i.val]?).elim .unused BlobRule.toKernel)
    ⟨fun h => ⟨h.left, h.right.left, h.right.right⟩, fun h => ⟨h.enabled, h.ruleCount, h.rules⟩⟩

instance (appLock : Json Number) (blob : List UInt8) : Decidable (Carried appLock blob) :=
  inferInstanceAs (Decidable (∃ _ ∈ _, ∃ _ ∈ _, ∃ _ ∈ _, Carries _ _ _))

def bundle (policyVersion ruleId value : String) : Json Number :=
  .obj [
    ("enabled", .bool true),
    ("policy_version", .str policyVersion),
    ("rules", .arr [.obj [
      ("match_type", .str "full_path"),
      ("rule_id", .str ruleId),
      ("value", .str value)]])]

def outcome (appLock : Json Number) : Option (Except String Bool) :=
  (buildPolicyBlob appLock []).map fun blob => blob.map fun blob => decide (Carried appLock blob)

def calcBundle : Json Number :=
  bundle "7" "calc" "C:\\Tools\\calc.exe"

theorem carried_iff_calcBundle :
    ∃ blob, buildPolicyBlob calcBundle [] = some (.ok blob) ∧ Carried calcBundle blob ∧
      ((∀ rule ∈ ruleList calcBundle, ¬IsTaken rule) ∨ Carriable calcBundle []) := by
  have h : outcome calcBundle = some (.ok true) := by decide +kernel
  obtain ⟨x, hx, h⟩ := Option.map_eq_some_iff.mp h
  obtain ⟨blob, rfl, hd⟩ := exists_of_map_eq_ok h
  have hc := of_decide_eq_true hd
  exact ⟨blob, hx, hc, (carried_iff hx).mp hc⟩

-- Identifiers of 64 characters and terminators are accepted everywhere else.
theorem not_carried :
    outcome (bundle "7" (String.ofList (List.replicate 64 'a')) "C:\\Tools\\calc.exe") =
        some (.ok false) ∧
      outcome (bundle "7\u0000" "calc" "C:\\Tools\\calc.exe") = some (.ok false) := by
  decide +kernel

end Carried

end Windows.AppLock
