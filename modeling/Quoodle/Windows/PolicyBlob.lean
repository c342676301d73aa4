import Quoodle.Kernel.PolicyBlob
import Quoodle.Windows.AppLock

-- The blob that the agent builds, as the driver parses it.
namespace Windows.AppLock

open Json.Nlohmann Kernel Kernel.AppLockdown

section Normalization

variable {c : UInt8} {value : List UInt8} {rule : Json Number} {r : RuntimeRule}

theorem normalizeChar_toLower : ∀ c : UInt8,
    normalizeChar (toLower (toBackslash c)) = toLower (toBackslash c) := by
  apply forall_byte
  decide +kernel

theorem isBreak_toLower : ∀ c : UInt8, isBreak c = false →
    isBreak (toLower (toBackslash c)) = false := by
  apply forall_byte
  decide +kernel

theorem isBreak_sanitizeChar : ∀ c : UInt8, isBreak (sanitizeChar c) = false := by
  apply forall_byte
  decide +kernel

theorem sanitizeChar_eq_zero_iff : ∀ c : UInt8, sanitizeChar c = 0 ↔ c = 0 := by
  apply forall_byte
  decide +kernel

theorem unbroken_sanitizeScalar (value : List UInt8) : Unbroken (sanitizeScalar value) := by
  intro c hc
  obtain ⟨d, _, rfl⟩ := List.mem_map.mp hc
  exact isBreak_sanitizeChar d

theorem zero_mem_sanitizeScalar_iff : 0 ∈ sanitizeScalar value ↔ 0 ∈ value := by
  simp [sanitizeScalar, sanitizeChar_eq_zero_iff]

theorem trimCopy_isInfix (value : List UInt8) : trimCopy value <:+: value :=
  List.IsInfix.trans ( List.rdropWhile_prefix ..).isInfix (List.dropWhile_suffix _).isInfix

theorem stripQuotes_isInfix (value : List UInt8) : stripQuotes value <:+: value := by
  unfold stripQuotes
  split
  case isFalse => exact List.infix_rfl
  exact (trimCopy_isInfix _).trans (( List.dropLast_prefix _).isInfix.trans
    (List.drop_suffix ..).isInfix)

theorem mem_stripNamespace (h : c ∈ stripNamespace value) : c ∈ value ∨ c = '\\'.toUInt8 := by
  simp only [stripNamespace] at h
  split_ifs at h
  case pos =>
    cases List.mem_append.mp h
    case inl h => exact .inr (by simpa [ascii] using h)
    case inr h => exact .inl (List.mem_of_mem_drop h)
  case pos | pos => exact .inl (List.mem_of_mem_drop h)
  case neg => exact .inl h

theorem mem_normalizeWindowsPath (h : c ∈ normalizeWindowsPath value) :
    ∃ d, (d ∈ value ∨ d = '\\'.toUInt8) ∧ toLower (toBackslash d) = c := by
  obtain ⟨e, he, rfl⟩ := List.mem_map.mp h
  obtain ⟨d, hd, rfl⟩ := List.mem_map.mp he
  refine ⟨d, (mem_stripNamespace hd).imp_left fun hd => ?_, rfl⟩
  exact (stripQuotes_isInfix _ |>.trans (trimCopy_isInfix _)).subset hd

theorem mem_normalizeBasename {allowImplicitExe : Bool}
    (h : c ∈ normalizeBasename value allowImplicitExe) :
    c ∈ normalizeWindowsPath value ∧ isSeparator c = false ∨ c ∈ ascii ".exe" := by
  have hb (h : c ∈ trimCopy (basenameFromPath (normalizeWindowsPath value))) :
      c ∈ normalizeWindowsPath value ∧ isSeparator c = false := by
    have hc := (trimCopy_isInfix _).subset h
    exact ⟨(List.rtakeWhile_suffix ..).subset hc, by simpa using List.mem_rtakeWhile_imp hc⟩
  simp only [normalizeBasename] at h
  split_ifs at h
  case pos => cases h
  case pos => exact (List.mem_append.mp h).imp_left hb
  case neg => exact .inl (hb h)

structure RuntimeRule.Normal (r : RuntimeRule) : Prop where
  nonempty : r.value ≠ []
  value : normalizeAsciiPath r.value = r.value
  unbroken : Unbroken r.value
  name : r.matchType = .basename → ∀ c ∈ r.value, isSeparator c = false

theorem exists_of_readRuntimeRule (h : readRuntimeRule rule = some (some r)) :
    r.value ≠ [] ∧ ∃ raw, r.value = r.matchType.normalize (sanitizeScalar raw) := by
  unfold readRuntimeRule at h
  split at h
  case h_2 => simp at h
  case h_1 =>
    obtain ⟨action, _, h⟩ := Option.bind_eq_some_iff.mp h
    split at h
    case isTrue => simp at h
    obtain ⟨matchType, _, h⟩ := Option.bind_eq_some_iff.mp h
    split at h
    case h_1 => simp at h
    obtain ⟨raw, _, h⟩ := Option.bind_eq_some_iff.mp h
    simp only [] at h
    split at h
    case isTrue => simp at h
    case isFalse hn =>
      simp only [Option.some.injEq] at h
      cases h
      exact ⟨fun he => hn (.inr he), raw, rfl⟩

theorem normal_of_read (h : readRuntimeRule rule = some (some r)) : r.Normal := by
  obtain ⟨hn, raw, hr⟩ := exists_of_readRuntimeRule h
  have hp {c : UInt8} (hc : c ∈ normalizeWindowsPath (sanitizeScalar raw)) :
      normalizeChar c = c ∧ isBreak c = false := by
    obtain ⟨d, hd, rfl⟩ := mem_normalizeWindowsPath hc
    refine ⟨normalizeChar_toLower d, isBreak_toLower d ?_⟩
    cases hd
    case inl hd => exact unbroken_sanitizeScalar raw d hd
    case inr hd => exact hd ▸ rfl
  have hx : ∀ c ∈ ascii ".exe", normalizeChar c = c ∧ isBreak c = false ∧ isSeparator c = false := by
    decide +kernel
  have hc : ∀ c ∈ r.value, normalizeChar c = c ∧ isBreak c = false ∧
      (r.matchType = .basename → isSeparator c = false) := by
    intro c hc
    rw [hr] at hc
    cases hm : r.matchType
    case fullPath =>
      rw [hm, MatchType.normalize] at hc
      exact ⟨(hp hc).left, (hp hc).right, by simp⟩
    case basename =>
      rw [hm, MatchType.normalize] at hc
      cases mem_normalizeBasename hc
      case inl hc => exact ⟨(hp hc.left).left, (hp hc.left).right, fun _ => hc.right⟩
      case inr hc => exact ⟨(hx c hc).left, (hx c hc).right.left, fun _ => (hx c hc).right.right⟩
  exact {
    nonempty := hn
    value := (List.map_congr_left fun c h => (hc c h).left).trans (List.map_id _)
    unbroken := fun c h => (hc c h).right.left
    name := fun hm c h => (hc c h).right.right hm }

end Normalization

section Collect

variable {α : Type} {limit : Nat} {read : Nat → Json Number → Option (Option α)}
variable {acc rs : List α} {xs ys before after : List (Json Number)} {rule : Json Number}

-- The rules that get into a policy, and whose number is the index of the next one.
def taken (rules : List (Json Number)) : List RuntimeRule :=
  rules.filterMap fun rule => (readRuntimeRule rule).join

theorem isPrefix_of_collect (h : collect limit read acc xs = some rs) : acc <+: rs := by
  induction xs generalizing acc
  case nil =>
    cases h
    exact List.prefix_rfl
  case cons x xs hi =>
    obtain ⟨o, _, h⟩ := Option.bind_eq_some_iff.mp h
    cases o
    case none => exact hi h
    case some a =>
      simp only [] at h
      split at h
      case isTrue =>
        cases h
        exact List.prefix_append ..
      case isFalse => exact ( List.prefix_append ..).trans (hi h)

theorem exists_of_collect_append (h : collect limit read acc (xs ++ ys) = some rs)
    (hl : rs.length < limit) :
    ∃ mid, collect limit read acc xs = some mid ∧ collect limit read mid ys = some rs := by
  induction xs generalizing acc
  case nil => exact ⟨acc, rfl, h⟩
  case cons x xs hi =>
    obtain ⟨o, ho, h⟩ := Option.bind_eq_some_iff.mp h
    simp only [collect, ho, Option.bind_eq_bind, Option.bind_some]
    cases o
    case none => exact hi h
    case some a =>
      simp only [] at h ⊢
      split at h
      case isTrue hf =>
        cases h
        rw [List.length_append, List.length_singleton] at hl
        omega
      case isFalse hf =>
        rw [if_neg hf]
        exact hi h

theorem exists_getElem?_of_collect (h : collect limit read acc (rule :: xs) = some rs) :
    ∃ o, read acc.length rule = some o ∧ ∀ a, o = some a → rs[acc.length]? = some a := by
  obtain ⟨o, ho, h⟩ := Option.bind_eq_some_iff.mp h
  refine ⟨o, ho, fun a he => ?_⟩
  subst he
  have hp : acc ++ [a] <+: rs := by
    simp only [] at h
    split at h
    case isTrue => cases h; exact List.prefix_rfl
    case isFalse => exact isPrefix_of_collect h
  obtain ⟨_, rfl⟩ := hp
  simp

theorem exists_split_of_lt {β : Type} {f : Json Number → Option β} {i : Nat}
    (h : i < (xs.filterMap f).length) :
    ∃ before x after, xs = before ++ x :: after ∧ (before.filterMap f).length = i ∧ (f x).isSome := by
  induction xs generalizing i
  case nil => simp at h
  case cons x xs hi =>
    cases hx : f x
    case none =>
      obtain ⟨before, y, after, rfl, hb, hy⟩ := hi (by simpa [hx] using h)
      exact ⟨x :: before, y, after, rfl, by simpa [hx] using hb, hy⟩
    case some b =>
      cases i
      case zero => exact ⟨[], x, xs, rfl, rfl, by simp [hx]⟩
      case succ i =>
        obtain ⟨before, y, after, rfl, hb, hy⟩ := hi (by simpa [hx] using h)
        exact ⟨x :: before, y, after, rfl, by simpa [hx] using hb, hy⟩

theorem eq_taken_of_collect {rs acc : List RuntimeRule}
    (h : collect limit (fun _ => readRuntimeRule) acc xs = some rs) (hl : rs.length < limit) :
    rs = acc ++ taken xs := by
  induction xs generalizing acc
  case nil =>
    cases h
    exact (List.append_nil _).symm
  case cons x xs hi =>
    obtain ⟨o, ho, h⟩ := Option.bind_eq_some_iff.mp h
    cases o
    case none => simpa [taken, ho] using hi h
    case some a =>
      simp only [] at h
      split at h
      case isTrue hf =>
        cases h
        rw [List.length_append, List.length_singleton] at hl
        omega
      case isFalse hf => simpa [taken, ho] using hi h

end Collect

section Emitted

variable {rule : Json Number} {i : Nat} {r : BlobRule}

structure BlobRule.Normal (r : BlobRule) : Prop extends r.toRuntimeRule.Normal where
  ruleId_ne_nil : r.ruleId ≠ []
  ruleId : Unbroken r.ruleId
  priority : 0 < r.priority ∧ r.priority < 1000000
  expiresAt : ∀ t, r.expiresAt = some t → 0 < t ∧ t < 2 ^ 64

theorem unbroken_append {s t : List UInt8} (hs : Unbroken s) (ht : Unbroken t) : Unbroken (s ++ t) :=
  fun c hc => (List.mem_append.mp hc).elim (hs c) (ht c)

theorem unbroken_decimal (n : Nat) : Unbroken (decimal n) := by
  have hd : ∀ c : UInt8, isDigit c = true → isBreak c = false := by
    apply forall_byte
    decide +kernel
  exact fun c hc => hd c (isDigit_of_mem_decimal c hc)

theorem readPriority_bounds (rule : Json Number) :
    0 < readPriority rule ∧ readPriority rule < 1000000 := by
  unfold readPriority
  split
  case h_2 => decide
  case h_1 =>
    split
    case isTrue => omega
    case isFalse => decide

theorem tryParseUnixSeconds_lt {v : Json Number} {t : Nat} (h : tryParseUnixSeconds v = some t) :
    t < 2 ^ 64 := by
  unfold tryParseUnixSeconds at h
  split at h
  case h_1 n =>
    split at h
    case isTrue =>
      cases h
      have hn := n.upper
      omega
    case isFalse => cases h
  case h_2 s =>
    simp only [] at h
    split at h
    case isTrue hs =>
      cases h
      exact hs.right.right.left
    case isFalse => cases h
  case h_3 => cases h

theorem readExpiresAt_bounds {t : Nat} (h : readExpiresAt rule = some t) : 0 < t ∧ t < 2 ^ 64 := by
  obtain ⟨h, hp⟩ := Option.filter_eq_some_iff.mp h
  obtain ⟨v, _, h⟩ := Option.bind_eq_some_iff.mp h
  exact ⟨of_decide_eq_true hp, tryParseUnixSeconds_lt h⟩

theorem exists_of_readBlobRule (h : readBlobRule i rule = some (some r)) :
    readRuntimeRule rule = some (some r.toRuntimeRule) ∧ ∃ ruleId, readRuleId rule = some ruleId ∧
      r.ruleId = (if ruleId = [] then ascii "rule-" ++ decimal i else ruleId) ∧
      r.priority = readPriority rule ∧ r.expiresAt = readExpiresAt rule := by
  obtain ⟨o, ho, h⟩ := Option.bind_eq_some_iff.mp h
  cases o
  case none => simp at h
  case some a =>
    obtain ⟨ruleId, hi, h⟩ := Option.bind_eq_some_iff.mp h
    simp only [Option.some.injEq] at h
    cases h
    exact ⟨ho, ruleId, hi, rfl, rfl, rfl⟩

theorem normal_of_readBlobRule (h : readBlobRule i rule = some (some r)) : r.Normal := by
  obtain ⟨hr, ruleId, hi, he, hp, ht⟩ := exists_of_readBlobRule h
  obtain ⟨text, _, rfl⟩ := Option.map_eq_some_iff.mp hi
  have hd : Unbroken (ascii "rule-" ++ decimal i) :=
    unbroken_append (by unfold Unbroken; decide +kernel) (unbroken_decimal i)
  refine { normal_of_read hr with
    ruleId_ne_nil := ?_
    ruleId := ?_
    priority := hp ▸ readPriority_bounds rule
    expiresAt := fun t h => readExpiresAt_bounds (ht ▸ h) }
  · rw [he]
    split
    case isTrue => exact List.append_ne_nil_of_right_ne_nil _ (decimal_ne_nil i)
    case isFalse h => exact h
  · rw [he]
    split
    case isTrue => exact hd
    case isFalse => exact unbroken_sanitizeScalar text

end Emitted

section Numbered

variable {appLock rule : Json Number} {before after : List (Json Number)} {rules : List BlobRule}

def IsTaken (rule : Json Number) : Prop :=
  ∃ r, readRuntimeRule rule = some (some r)

theorem collect_toRuntimeRule {limit : Nat} {acc rules : List BlobRule} {vs : List (Json Number)}
    (h : collect limit readBlobRule acc vs = some rules) (hl : rules.length < limit)
    (hs : limit ≤ 256) :
    collect 256 (fun _ => readRuntimeRule) (acc.map BlobRule.toRuntimeRule) vs =
      some (rules.map BlobRule.toRuntimeRule) := by
  induction vs generalizing acc
  case nil =>
    cases h
    rfl
  case cons v vs hi =>
    obtain ⟨o, ho, h⟩ := Option.bind_eq_some_iff.mp h
    cases o
    case none =>
      obtain ⟨o, hv, ho⟩ := Option.bind_eq_some_iff.mp ho
      cases o
      case some =>
        obtain ⟨_, _, ho⟩ := Option.bind_eq_some_iff.mp ho
        cases ho
      case none =>
        rw [collect, hv]
        exact hi h
    case some b =>
      have hv := (exists_of_readBlobRule ho).left
      simp only [] at h
      split at h
      case isTrue hf =>
        cases h
        rw [List.length_append, List.length_singleton] at hl
        omega
      case isFalse hf =>
        rw [collect, hv]
        have he : acc.map BlobRule.toRuntimeRule ++ [b.toRuntimeRule] =
            (acc ++ [b]).map BlobRule.toRuntimeRule := by
          simp
        simp only [Option.bind_eq_bind, Option.bind_some, List.length_map, he]
        rw [if_neg (by omega)]
        exact hi h

theorem map_toRuntimeRule_emitted (hr : emittedRules appLock = some rules) (hl : rules.length < 64) :
    rules.map BlobRule.toRuntimeRule = taken (ruleList appLock) := by
  have hc := eq_taken_of_collect (collect_toRuntimeRule hr hl (by decide))
    (by rw [List.length_map]; omega)
  simpa using hc

-- A rule is written with the number of those that were taken before it.
theorem exists_getElem?_emitted (hr : emittedRules appLock = some rules) (hl : rules.length < 64)
    (hs : ruleList appLock = before ++ rule :: after) (ht : IsTaken rule) :
    ∃ b, rules[(taken before).length]? = some b ∧
      readBlobRule (taken before).length rule = some (some b) ∧
      (rules.take (taken before).length).map BlobRule.toRuntimeRule = taken before := by
  rw [emittedRules, hs] at hr
  obtain ⟨mid, hm, hr⟩ := exists_of_collect_append hr hl
  have hp := isPrefix_of_collect hr
  have hn := hp.length_le
  have he : mid.map BlobRule.toRuntimeRule = taken before := by
    simpa using eq_taken_of_collect (collect_toRuntimeRule hm (by omega) (by decide))
      (by rw [List.length_map]; omega)
  rw [← he, List.length_map, ← List.prefix_iff_eq_take.mp hp]
  obtain ⟨o, ho, hb⟩ := exists_getElem?_of_collect hr
  obtain ⟨r, ht⟩ := ht
  simp only [readBlobRule, ht, Option.bind_eq_bind, Option.bind_some] at ho
  obtain ⟨_, hi, ho⟩ := Option.bind_eq_some_iff.mp ho
  cases ho
  exact ⟨_, hb _ rfl, by simp [readBlobRule, ht, hi], rfl⟩

theorem length_taken_lt (hr : emittedRules appLock = some rules) (hl : rules.length < 64)
    (hs : ruleList appLock = before ++ rule :: after) (ht : IsTaken rule) :
    (taken before).length < maxRules := by
  obtain ⟨_, hb, _⟩ := exists_getElem?_emitted hr hl hs ht
  exact (List.getElem?_eq_some_iff.mp hb).choose.trans (hl.trans (by decide))

theorem exists_of_getElem?_emitted (hr : emittedRules appLock = some rules) (hl : rules.length < 64)
    {i : Nat} {b : BlobRule} (hb : rules[i]? = some b) :
    ∃ before rule after, ruleList appLock = before ++ rule :: after ∧ (taken before).length = i ∧
      readBlobRule i rule = some (some b) := by
  have hn := congrArg List.length (map_toRuntimeRule_emitted hr hl)
  rw [List.length_map] at hn
  obtain ⟨before, rule, after, hs, rfl, ht⟩ :=
    exists_split_of_lt (hn ▸ (List.getElem?_eq_some_iff.mp hb).choose)
  obtain ⟨r, ht⟩ := Option.isSome_iff_exists.mp ht
  obtain ⟨c, hc, he, _⟩ := exists_getElem?_emitted hr hl hs ⟨r, Option.join_eq_some_iff.mp ht⟩
  cases hc.symm.trans hb
  exact ⟨before, rule, after, hs, rfl, he⟩

theorem exists_of_mem_emitted (hr : emittedRules appLock = some rules) (hl : rules.length < 64)
    {b : BlobRule} (hb : b ∈ rules) :
    ∃ i < 64, ∃ rule ∈ ruleList appLock, readBlobRule i rule = some (some b) := by
  obtain ⟨i, hi⟩ := List.mem_iff_getElem?.mp hb
  obtain ⟨_, rule, _, hs, _, he⟩ := exists_of_getElem?_emitted hr hl hi
  exact ⟨i, (List.getElem?_eq_some_iff.mp hi).choose.trans hl, rule, by simp [hs], he⟩

-- What is written is what was read, up to a name for a rule that has none.
theorem exists_mem_of_isTaken (hr : emittedRules appLock = some rules) (hl : rules.length < 64)
    (hm : rule ∈ ruleList appLock) {r : RuntimeRule} (ht : readRuntimeRule rule = some (some r)) :
    ∃ i < 64, ∃ b ∈ rules, readBlobRule i rule = some (some b) ∧ b.toRuntimeRule = r := by
  obtain ⟨before, after, hs⟩ := List.append_of_mem hm
  obtain ⟨b, hb, he, _⟩ := exists_getElem?_emitted hr hl hs ⟨r, ht⟩
  have hx := (exists_of_readBlobRule he).left
  rw [ht, Option.some_inj, Option.some_inj] at hx
  exact ⟨_, (List.getElem?_eq_some_iff.mp hb).choose.trans hl, b, List.mem_of_getElem? hb, he, hx.symm⟩

theorem normal_of_emitted (hr : emittedRules appLock = some rules) (hl : rules.length < 64) :
    ∀ r ∈ rules, r.Normal := by
  intro r hm
  obtain ⟨_, _, _, _, he⟩ := exists_of_mem_emitted hr hl hm
  exact normal_of_readBlobRule he

end Numbered

section Entries

variable {p q : Policy} {i : Nat} {es : List Entry}

def applyEntry (p : Policy) (e : Entry) : Except String Policy :=
  p.setMember (normalizeAsciiPath (copyAscii 96 e.1)) (copyAscii maxRuleValue e.2)

structure Entry.Written (e : Entry) : Prop where
  key_ne_nil : e.1 ≠ []
  keyNul : 0 ∉ e.1
  key : '='.toUInt8 ∉ e.1
  unbroken : Unbroken e.1
  value : Unbroken e.2

theorem Entry.Written.line {e : Entry} (h : e.Written) :
    e.line ≠ [] ∧ Unbroken e.line ∧ p.applyLine e.line = applyEntry p e := by
  have hl : e.line = e.1 ++ '='.toUInt8 :: e.2 := by simp [Entry.line, ascii]
  have hu : Unbroken (ascii "=") := by
    unfold Unbroken
    decide +kernel
  refine ⟨?_, unbroken_append (unbroken_append h.unbroken hu) h.value, ?_⟩
  · rw [hl]
    exact List.append_ne_nil_of_left_ne_nil h.key_ne_nil _
  · rw [hl]
    exact applyLine_eq h.key

theorem textOf_eq_joined (es : List Entry) : textOf es = joined (es.map Entry.line) := by
  rw [textOf, joined, List.flatMap_map]
  rfl

theorem foldlM_lines (h : ∀ e ∈ es, e.Written) :
    (es.map Entry.line).foldlM Policy.applyLine p = es.foldlM applyEntry p := by
  induction es generalizing p
  case nil => rfl
  case cons e es hi =>
    rw [List.map_cons, List.foldlM_cons, List.foldlM_cons, (h e List.mem_cons_self).line.right.right]
    exact congrArg _ (funext fun q => hi fun e he => h e (List.mem_cons_of_mem _ he))

theorem forall_line (h : ∀ e ∈ es, e.Written) : ∀ l ∈ es.map Entry.line, l ≠ [] ∧ Unbroken l := by
  intro l hl
  obtain ⟨e, he, rfl⟩ := List.mem_map.mp hl
  exact ⟨(h e he).line (p := .reset) |>.left, (h e he).line (p := .reset) |>.right.left⟩

theorem parseText_textOf (h : ∀ e ∈ es, e.Written) :
    parseText (textOf es) = es.foldlM applyEntry .reset >>= Policy.finish := by
  have hn : Unbroken [] := by simp [Unbroken]
  have hs := foldlM_splitLines (p := .reset) (forall_line h) hn
  rw [List.append_nil, List.foldlM_append, foldlM_lines h] at hs
  rw [parseText, textOf_eq_joined, hs, bind_assoc]
  exact congrArg _ (funext fun q => rfl)

theorem parseText_textOf_append {e : Entry} (h : ∀ e ∈ es, e.Written) (he : e.Written) :
    parseText (textOf es ++ e.line) = (es ++ [e]).foldlM applyEntry .reset >>= Policy.finish := by
  have hs := foldlM_splitLines (p := .reset) (forall_line h) (he.line (p := .reset)).right.left
  have hl : es.map Entry.line ++ [e.line] = (es ++ [e]).map Entry.line := by simp
  rw [hl, foldlM_lines fun d hd => (List.mem_append.mp hd).elim (h d) fun hd =>
    List.mem_singleton.mp hd ▸ he] at hs
  rw [parseText, textOf_eq_joined, hs]

end Entries

section Header

variable {appLock : Json Number} {defaultPolicyHash : List UInt8} {h : Header} {p q : Policy}
variable {key : List UInt8} {es : List Entry}

theorem exists_of_readHeader (hr : readHeader appLock defaultPolicyHash = some h) :
    value readBool appLock "enabled" false = some h.enabled ∧
      (∃ text, value readText appLock "policy_version" [] = some text ∧
        h.policyVersion = sanitizeScalar text) ∧
      (∃ text, value readText appLock "policy_hash" defaultPolicyHash = some text ∧
        h.policyHash = sanitizeScalar text) ∧
      Unbroken h.mode ∧ Unbroken h.failMode := by
  obtain ⟨enabled, he, hr⟩ := Option.bind_eq_some_iff.mp hr
  obtain ⟨mode, _, hr⟩ := Option.bind_eq_some_iff.mp hr
  obtain ⟨failMode, _, hr⟩ := Option.bind_eq_some_iff.mp hr
  obtain ⟨version, hv, hr⟩ := Option.bind_eq_some_iff.mp hr
  obtain ⟨hash, hh, hr⟩ := Option.bind_eq_some_iff.mp hr
  cases hr
  exact ⟨he, ⟨version, hv, rfl⟩, ⟨hash, hh, rfl⟩, unbroken_sanitizeScalar _,
    unbroken_sanitizeScalar _⟩

def headerKeys : List (List UInt8) := [
  ascii "enabled",
  ascii "mode",
  ascii "fail_mode",
  ascii "policy_version",
  ascii "policy_hash",
  ascii "event_dedupe_sec"
]

-- Keys are written in characters that the parser neither stops at nor changes.
def isKeyChar (c : UInt8) : Bool :=
  c ≠ 0 && c ≠ '='.toUInt8 && !isBreak c && normalizeChar c = c

theorem isKeyChar_iff {c : UInt8} :
    isKeyChar c = true ↔
      c ≠ 0 ∧ c ≠ '='.toUInt8 ∧ isBreak c = false ∧ normalizeChar c = c := by
  simp [isKeyChar, and_assoc]

theorem normalizeAsciiPath_key (h : ∀ c ∈ key, isKeyChar c = true)
    (hl : key.length < 96) : normalizeAsciiPath (copyAscii 96 key) = key := by
  rw [copyAscii_eq_self hl]
  exact (List.map_congr_left fun c hc => (isKeyChar_iff.mp (h c hc)).right.right.right).trans
    (List.map_id _)

theorem Entry.written_of_isKeyChar {e : Entry} (hk : e.1 ≠ [])
    (hc : ∀ c ∈ e.1, isKeyChar c = true) (hv : Unbroken e.2) : e.Written where
  key_ne_nil := hk
  keyNul := fun h => (isKeyChar_iff.mp (hc _ h)).left rfl
  key := fun h => (isKeyChar_iff.mp (hc _ h)).right.left rfl
  unbroken := fun c h => (isKeyChar_iff.mp (hc c h)).right.right.left
  value := hv

theorem isKeyChar_headerKey (hk : key ∈ headerKeys) :
    key ≠ [] ∧ key.length < 96 ∧ ∀ c ∈ key, isKeyChar c = true := by
  have ht : (headerKeys.all fun key => key ≠ [] && key.length < 96 && key.all isKeyChar) = true := by
    decide
  have hc := List.all_eq_true.mp ht key hk
  simp only [Bool.and_eq_true, decide_eq_true_eq, List.all_eq_true] at hc
  exact ⟨hc.left.left, hc.left.right, hc.right⟩

theorem Header.key_mem (h : Header) : ∀ e ∈ h.entries, e.1 ∈ headerKeys := by
  simp [Header.entries, headerKeys]

theorem Header.written (hr : readHeader appLock defaultPolicyHash = some h) :
    ∀ e ∈ h.entries, e.Written := by
  obtain ⟨_, ⟨version, _, hv⟩, ⟨hash, _, hh⟩, hm, hf⟩ := exists_of_readHeader hr
  have hb : Unbroken (if h.enabled then ascii "1" else ascii "0") := by
    unfold Unbroken
    cases h.enabled
    case false => decide +kernel
    case true => decide +kernel
  have hu : ∀ e ∈ h.entries, Unbroken e.2 := by
    simp only [Header.entries, List.forall_mem_cons]
    exact ⟨hb, hm, hf, hv ▸ unbroken_sanitizeScalar version, hh ▸ unbroken_sanitizeScalar hash,
      unbroken_decimal _, by simp⟩
  intro e he
  have hk := isKeyChar_headerKey (h.key_mem e he)
  exact Entry.written_of_isKeyChar hk.left hk.right.right (hu e he)

def Header.leading (h : Header) : List Entry :=
  h.entries.take 3

def trailingKeys : List (List UInt8) :=
  headerKeys.drop 3

theorem Header.trailing_mem (h : Header) : ∀ e ∈ h.entries.drop 3, e.1 ∈ trailingKeys := by
  simp [Header.entries, trailingKeys, headerKeys]

structure Loaded (p : Policy) (enabled : Bool) (rules : Fin maxRules → Rule) : Prop where
  enabled : p.enabled = enabled
  mode : p.mode = ascii "blocklist"
  failMode : p.failMode = ascii "open"
  rules : p.rules = rules

variable {p : Policy} {enabled : Bool} {rules : Fin maxRules → Rule}

theorem exists_applyEntry_trailing {e : Entry} (hk : e.1 ∈ trailingKeys)
    (hp : Loaded p enabled rules) : ∃ q, applyEntry p e = .ok q ∧ Loaded q enabled rules := by
  have hc := isKeyChar_headerKey (List.mem_of_mem_drop hk)
  rw [applyEntry, normalizeAsciiPath_key hc.right.right hc.right.left]
  simp only [trailingKeys, headerKeys, List.drop_succ_cons, List.drop_zero, List.mem_cons,
    List.not_mem_nil, or_false] at hk
  rcases hk with hk | hk | hk
  all_goals
    simp +decide only [hk, Policy.setMember]
    exact ⟨_, rfl, hp.enabled, hp.mode, hp.failMode, hp.rules⟩

theorem exists_foldlM_trailing (hk : ∀ e ∈ es, e.1 ∈ trailingKeys)
    (hp : Loaded p enabled rules) : ∃ q, es.foldlM applyEntry p = .ok q ∧ Loaded q enabled rules := by
  induction es generalizing p
  case nil => exact ⟨p, rfl, hp⟩
  case cons e es hi =>
    obtain ⟨q, hq, hp⟩ := exists_applyEntry_trailing (hk e List.mem_cons_self) hp
    rw [List.foldlM_cons, hq]
    exact hi (fun d hd => hk d (List.mem_cons_of_mem _ hd)) hp

theorem exists_foldlM_header (hm : h.mode = ascii "blocklist")
    (hf : h.failMode = ascii "open") (hk : ∀ e ∈ es, e.1 ∈ trailingKeys) :
    ∃ q, (h.leading ++ es).foldlM applyEntry .reset = .ok q ∧
      Loaded q h.enabled fun _ => .unused := by
  have he : (copyAscii maxRuleValue (if h.enabled then ascii "1" else ascii "0")).head? =
      some '1'.toUInt8 ∨
        copyAscii maxRuleValue (if h.enabled then ascii "1" else ascii "0") = ascii "true" ↔
      h.enabled := by
    cases h.enabled
    case false => decide
    case true => decide
  have hb : copyAscii maxMode (normalizeAsciiPath (copyAscii maxRuleValue (ascii "blocklist"))) =
      ascii "blocklist" := by
    decide
  have ho : copyAscii maxMode (normalizeAsciiPath (copyAscii maxRuleValue (ascii "open"))) =
      ascii "open" := by
    decide
  obtain ⟨p, hp, hl⟩ : ∃ p, h.leading.foldlM applyEntry .reset = .ok p ∧
      Loaded p h.enabled fun _ => .unused := by
    simp +decide only [Header.leading, Header.entries, List.take_succ_cons, List.take_zero,
      List.foldlM_cons, List.foldlM_nil, applyEntry, Policy.setMember, hm, hf, he]
    exact ⟨_, rfl, by simp, hb, ho, rfl⟩
  rw [List.foldlM_append, hp]
  exact exists_foldlM_trailing hk hl

end Header

section Rules

variable {p : Policy} {field : String} {r : BlobRule} {rules : List BlobRule}

def ruleFields : List String :=
  ["rule_id", "match_type", "value", "priority", "expires_at"]

theorem length_ascii_lt (hf : field ∈ ruleFields) :
    ascii field ≠ [] ∧ (ascii field).length < 32 ∧ ∀ c ∈ ascii field, isKeyChar c = true := by
  have ht : (ruleFields.all fun field => ascii field ≠ [] && (ascii field).length < 32 &&
      (ascii field).all isKeyChar) = true := by
    decide
  have hc := List.all_eq_true.mp ht field hf
  simp only [Bool.and_eq_true, decide_eq_true_eq, List.all_eq_true] at hc
  exact ⟨hc.left.left, hc.left.right, hc.right⟩

theorem isKeyChar_of_mem_ruleKey (i : Nat) (hf : field ∈ ruleFields) :
    ∀ c ∈ ruleKey i field, isKeyChar c = true := by
  have hd : ∀ c : UInt8, isDigit c = true → isKeyChar c = true := by
    apply forall_byte
    decide +kernel
  have hr : (ascii "rule.").all isKeyChar = true ∧ (ascii ".").all isKeyChar = true := by
    decide
  intro c hc
  simp only [ruleKey, List.mem_append] at hc
  rcases hc with ((hc | hc) | hc) | hc
  · exact List.all_eq_true.mp hr.left c hc
  · exact hd c (isDigit_of_mem_decimal c hc)
  · exact List.all_eq_true.mp hr.right c hc
  · exact (length_ascii_lt hf).right.right c hc

theorem length_ruleKey_lt (i : Fin maxRules) (hf : field ∈ ruleFields) :
    (ruleKey i field).length < 96 := by
  have hi : (decimal i).length ≤ 3 :=
    length_decimal_le (by decide) (i.isLt.trans (by decide))
  have hl := (length_ascii_lt hf).right.left
  have hr : (ascii "rule.").length = 5 := rfl
  have hp : (ascii ".").length = 1 := rfl
  simp only [ruleKey, List.length_append, hr, hp]
  omega

theorem ruleKey_not_mem_headerKeys (i : Nat) (field : String) : ruleKey i field ∉ headerKeys := by
  have ht : (headerKeys.all fun key => key.head? ≠ some 'r'.toUInt8) = true := by
    decide
  intro hm
  exact of_decide_eq_true (List.all_eq_true.mp ht _ hm) rfl

theorem setMember_rule {key field value : List UInt8} {i : Fin maxRules} (hk : key ∉ headerKeys)
    (hi : parseRuleKey key = some (i, field)) :
    p.setMember key value = ((p.rules i).setField field value).map fun rule =>
      { p with rules := Function.update p.rules i rule } := by
  simp only [headerKeys, List.mem_cons, List.not_mem_nil, or_false, not_or] at hk
  obtain ⟨h₁, h₂, h₃, h₄, h₅, h₆⟩ := hk
  rw [Policy.setMember, if_neg h₁, if_neg h₂, if_neg h₃, if_neg h₄, if_neg h₅, if_neg h₆, hi]

theorem applyEntry_ruleKey (i : Fin maxRules) (hf : field ∈ ruleFields) (value : List UInt8) :
    applyEntry p (ruleKey i field, value) =
      ((p.rules i).setField (ascii field) (copyAscii maxRuleValue value)).map fun rule =>
        { p with rules := Function.update p.rules i rule } := by
  have hl := length_ascii_lt hf
  rw [applyEntry, normalizeAsciiPath_key (isKeyChar_of_mem_ruleKey i hf) (length_ruleKey_lt i hf)]
  exact setMember_rule (ruleKey_not_mem_headerKeys i field)
    (parseRuleKey_eq_some i hl.left hl.right.left)

def fieldEntry (i : Nat) (f : String × List UInt8) : Entry :=
  (ruleKey i f.1, f.2)

theorem foldlM_fields (i : Fin maxRules) {fields : List (String × List UInt8)}
    (hf : ∀ f ∈ fields, f.1 ∈ ruleFields) :
    (fields.map (fieldEntry i)).foldlM applyEntry p =
      (fields.foldlM (fun r f => Rule.setField r (ascii f.1) (copyAscii maxRuleValue f.2))
        (p.rules i)).map fun rule => { p with rules := Function.update p.rules i rule } := by
  induction fields generalizing p
  case nil => simp [Except.map, pure, Except.pure]
  case cons f fields hi =>
    rw [List.map_cons, List.foldlM_cons, fieldEntry, applyEntry_ruleKey i (hf f List.mem_cons_self),
      List.foldlM_cons]
    cases (p.rules i).setField (ascii f.1) (copyAscii maxRuleValue f.2)
    case error => rfl
    case ok r =>
      have hr := hi (p := { p with rules := Function.update p.rules i r })
        fun f hm => hf f (List.mem_cons_of_mem _ hm)
      simp only [Function.update_self, Function.update_idem] at hr
      exact hr

def MatchType.toKernel : MatchType → Kernel.AppLockdown.MatchType
  | basename => .basename
  | fullPath => .fullPath

def BlobRule.toKernel (r : BlobRule) : Rule where
  used := true
  ruleId := r.ruleId
  matchType := r.matchType.toKernel
  value := r.value
  priority := r.priority
  hasExpiresAt := r.expiresAt.isSome
  expiresAtUnix := r.expiresAt.getD 0

def BlobRule.fields (r : BlobRule) : List (String × List UInt8) := [
  ("rule_id", r.ruleId),
  ("match_type", r.matchType.text),
  ("value", r.value),
  ("priority", decimal r.priority)
] ++ r.expiresAt.toList.map fun t => ("expires_at", decimal t)

theorem BlobRule.entries_eq (i : Nat) (r : BlobRule) :
    r.entries i = r.fields.map (fieldEntry i) := by
  simp [BlobRule.entries, BlobRule.fields, fieldEntry]

theorem BlobRule.field_mem (r : BlobRule) : ∀ f ∈ r.fields, f.1 ∈ ruleFields := by
  cases hr : r.expiresAt
  case none | some t => simp [BlobRule.fields, ruleFields, hr]

theorem BlobRule.unbroken_field (hr : r.Normal) : ∀ f ∈ r.fields, Unbroken f.2 := by
  have hm : Unbroken r.matchType.text := by
    unfold Unbroken
    cases r.matchType
    case basename => decide +kernel
    case fullPath => decide +kernel
  have ht : ∀ f ∈ r.expiresAt.toList.map fun t => ("expires_at", decimal t), Unbroken f.2 := by
    intro f hf
    obtain ⟨t, _, rfl⟩ := List.mem_map.mp hf
    exact unbroken_decimal t
  simp only [BlobRule.fields, List.cons_append, List.nil_append, List.forall_mem_cons]
  exact ⟨hr.ruleId, hm, hr.unbroken, unbroken_decimal _, ht⟩

theorem BlobRule.written (hr : r.Normal) (i : Nat) : ∀ e ∈ r.entries i, e.Written := by
  intro e he
  rw [BlobRule.entries_eq] at he
  obtain ⟨f, hf, rfl⟩ := List.mem_map.mp he
  refine Entry.written_of_isKeyChar ?_ (isKeyChar_of_mem_ruleKey i (r.field_mem f hf))
    (BlobRule.unbroken_field hr f hf)
  exact List.append_ne_nil_of_right_ne_nil _ (length_ascii_lt (r.field_mem f hf)).left

theorem written_ruleEntries (hr : ∀ r ∈ rules, r.Normal) (i : Nat) :
    ∀ e ∈ ruleEntries i rules, e.Written := by
  induction rules generalizing i
  case nil => simp [ruleEntries]
  case cons r rules hi =>
    intro e he
    cases List.mem_append.mp he
    case inl he => exact BlobRule.written (hr r List.mem_cons_self) i e he
    case inr he => exact hi (fun s hs => hr s (List.mem_cons_of_mem _ hs)) _ e he

structure BlobRule.Fits (r : BlobRule) : Prop where
  ruleId : r.ruleId.length < maxRuleId
  value : r.value.length < maxRuleValue

-- A rule as the driver holds it. A terminator in the value ends the text, so that the lines after it
-- are missing.
def BlobRule.held (r : BlobRule) : BlobRule where
  matchType := r.matchType
  value := copyAscii maxRuleValue (terminated r.value)
  ruleId := copyAscii maxRuleId r.ruleId
  priority := if 0 ∈ r.value then 1000 else r.priority
  expiresAt := if 0 ∈ r.value then none else r.expiresAt

theorem BlobRule.held_eq_self (hf : r.Fits) (hz : 0 ∉ r.value) : r.held = r := by
  simp only [BlobRule.held, terminated_eq_self hz, copyAscii_eq_self hf.value,
    copyAscii_eq_self hf.ruleId, if_neg hz]

theorem BlobRule.fits_held (r : BlobRule) : r.held.Fits :=
  ⟨length_copyAscii_lt (by decide) _, length_copyAscii_lt (by decide) _⟩

theorem normalizeAsciiPath_of_isPrefix {v w : List UInt8} (h : v <+: w)
    (hw : normalizeAsciiPath w = w) : normalizeAsciiPath v = v := by
  rw [List.prefix_iff_eq_take.mp h, normalizeAsciiPath, List.map_take]
  exact congrArg _ hw

theorem terminated_isPrefix (v : List UInt8) : terminated v <+: v :=
  List.takeWhile_prefix _

theorem BlobRule.Normal.held (hr : r.Normal) (hv : terminated r.value ≠ []) : r.held.Normal := by
  have hp : r.held.value <+: r.value := ( List.take_prefix ..).trans (terminated_isPrefix r.value)
  exact {
    nonempty := by simp [BlobRule.held, copyAscii, hv, maxRuleValue]
    value := normalizeAsciiPath_of_isPrefix hp hr.value
    unbroken := fun c hc => hr.unbroken c (hp.subset hc)
    name := fun hm c hc => hr.name hm c (hp.subset hc)
    ruleId_ne_nil := by simp [BlobRule.held, copyAscii, hr.ruleId_ne_nil, maxRuleId]
    ruleId := fun c hc => hr.ruleId c (List.mem_of_mem_take hc)
    priority := by
      simp only [BlobRule.held]
      split
      case isTrue => decide
      case isFalse => exact hr.priority
    expiresAt := fun t ht => hr.expiresAt t (by simp only [BlobRule.held] at ht; grind) }

theorem MatchType.setField (m : MatchType) (s : Rule) :
    s.setField (ascii "match_type") (copyAscii maxRuleValue m.text) =
      .ok { s with used := true, matchType := m.toKernel } := by
  cases m
  case basename | fullPath => simp +decide [Rule.setField, MatchType.toKernel]

theorem copyAscii_ruleId (v : List UInt8) :
    copyAscii maxRuleId (copyAscii maxRuleValue v) = copyAscii maxRuleId v := by
  rw [copyAscii, copyAscii, List.take_take]
  rfl

theorem copyAscii_value {v : List UInt8} (hv : normalizeAsciiPath v = v) :
    copyAscii maxRuleValue (normalizeAsciiPath (copyAscii maxRuleValue v)) =
      copyAscii maxRuleValue v := by
  have hp : copyAscii maxRuleValue v <+: v := List.take_prefix ..
  rw [normalizeAsciiPath_of_isPrefix hp hv, copyAscii, copyAscii, List.take_take, min_self]

theorem setFields_unused (hr : r.Normal) (hz : 0 ∉ r.value) :
    r.fields.foldlM (fun s f => Rule.setField s (ascii f.1) (copyAscii maxRuleValue f.2)) .unused =
      .ok r.held.toKernel := by
  have hv := copyAscii_value hr.value
  have hd {n : Nat} (hn : n < 2 ^ 64) : copyAscii maxRuleValue (decimal n) = decimal n :=
    copyAscii_eq_self <| (length_decimal_le (k := 20) (by decide) (by omega)).trans_lt (by decide)
  have hp : parseU32 (copyAscii maxRuleValue (decimal r.priority)) 1000 = r.priority := by
    have hb := hr.priority
    rw [hd (by omega), parseU32_decimal (by rw [maxPriority]; omega)]
  have hs := r.toRuntimeRule.matchType.setField
  cases ht : r.expiresAt
  case none =>
    simp only [BlobRule.fields, ht, Option.toList_none, List.map_nil, List.append_nil,
      List.foldlM_cons, List.foldlM_nil, Rule.setField_ruleId, hs, Rule.setField_value,
      Rule.setField_priority, copyAscii_ruleId, hv, hp]
    simp [BlobRule.toKernel, BlobRule.held, ht, hz, terminated_eq_self hz]
    rfl
  case some t =>
    have hb := hr.expiresAt t ht
    simp only [BlobRule.fields, ht, Option.toList_some, List.map_cons, List.map_nil,
      List.cons_append, List.nil_append, List.foldlM_cons, List.foldlM_nil, Rule.setField_ruleId, hs,
      Rule.setField_value, Rule.setField_priority, Rule.setField_expiresAt, copyAscii_ruleId, hv, hp,
      hd hb.right, parseU64_decimal hb.right]
    simp [BlobRule.toKernel, BlobRule.held, ht, hz, terminated_eq_self hz, hb.left]
    rfl

theorem foldlM_entries (i : Fin maxRules) (hr : r.Normal) (hz : 0 ∉ r.value)
    (hu : p.rules i = .unused) :
    (r.entries i).foldlM applyEntry p =
      .ok { p with rules := Function.update p.rules i r.held.toKernel } := by
  rw [BlobRule.entries_eq, foldlM_fields i r.field_mem, hu, setFields_unused hr hz]
  rfl

def table (i : Nat) (rules : List BlobRule) (rest : Fin maxRules → Rule) (j : Fin maxRules) : Rule :=
  if j < i then rest j else (rules[j - i]?).elim (rest j) BlobRule.toKernel

theorem foldlM_ruleEntries {i : Nat}
    (hr : ∀ r ∈ rules, r.Normal ∧ 0 ∉ r.value) (hl : i + rules.length ≤ maxRules)
    (hu : ∀ j : Fin maxRules, i ≤ j → p.rules j = .unused) :
    (ruleEntries i rules).foldlM applyEntry p =
      .ok { p with rules := table i (rules.map BlobRule.held) p.rules } := by
  induction rules generalizing i p
  case nil =>
    have ht : table i [] p.rules = p.rules := by
      funext j
      simp [table]
    rw [List.map_nil, ht]
    rfl
  case cons r rules hi =>
    rw [List.length_cons] at hl
    let k : Fin maxRules := ⟨i, by omega⟩
    have he : (r.entries i).foldlM applyEntry p = _ :=
      foldlM_entries k (hr r List.mem_cons_self).left (hr r List.mem_cons_self).right (hu k le_rfl)
    have hn : ∀ j : Fin maxRules, i + 1 ≤ j →
        Function.update p.rules k r.held.toKernel j = .unused := by
      intro j hj
      rw [Function.update_of_ne (by simp only [ne_eq, Fin.ext_iff, k]; omega)]
      exact hu j (by omega)
    have ht : table (i + 1) (rules.map BlobRule.held) (Function.update p.rules k r.held.toKernel) =
        table i ((r :: rules).map BlobRule.held) p.rules := by
      funext j
      simp only [table, Function.update_apply, Fin.ext_iff, k, List.map_cons]
      rcases lt_trichotomy j.val i with hj | hj | hj
      · simp [hj, hj.trans (Nat.lt_succ_self i), hj.ne]
      · simp [hj]
      · have hs : j.val - i = (j.val - (i + 1)) + 1 := by omega
        rw [if_neg (by omega), if_neg (by omega), if_neg (by omega), hs, List.getElem?_cons_succ]
    rw [ruleEntries, List.foldlM_append, he]
    have hs := hi (i := i + 1) (p := { p with rules := Function.update p.rules k r.held.toKernel })
      (fun s hs => hr s (List.mem_cons_of_mem _ hs)) (by omega) hn
    rw [ht] at hs
    exact hs

end Rules

section Parsed

variable {h : Header} {rules : List BlobRule} {p q : Policy}

structure Carries (p : Policy) (enabled : Bool) (rules : List BlobRule) : Prop where
  enabled : p.enabled = enabled
  ruleCount : p.ruleCount = rules.length
  rules : ∀ i : Fin maxRules, p.rules i = (rules[i.val]?).elim .unused BlobRule.toKernel

theorem toKernel_isInvalid {r : BlobRule} (hr : r.Normal) : r.toKernel.isInvalid = false := by
  cases hm : r.matchType
  case basename | fullPath =>
    simp [BlobRule.toKernel, Rule.isInvalid, hm, MatchType.toKernel, hr.nonempty]

theorem finish_toKernel {r : BlobRule} (hr : r.Normal) (hf : r.Fits) (i : Fin maxRules) :
    r.toKernel.finish i = r.toKernel := by
  have hv : (if r.matchType.toKernel = .basename then extractBasename r.value maxRuleValue
      else r.value) = r.value := by
    cases hm : r.matchType
    case fullPath => rfl
    case basename =>
      have ha : afterSeparator r.value = r.value :=
        List.rtakeWhile_eq_self_iff.mpr fun c hc => by simp [hr.name hm c hc]
      rw [extractBasename_eq (hf.value.le.trans (by decide)), AppLockdown.basename, ha, ite_self,
        copyAscii_eq_self hf.value, ite_self]
  have hi : r.ruleId ≠ [] := hr.ruleId_ne_nil
  have hp : r.priority ≠ 0 := hr.priority.left.ne'
  simp only [Rule.finish, BlobRule.toKernel, hi, hp, if_false]
  exact congrArg (fun value => { r.toKernel with value }) hv

theorem countP_finRange_lt {m n : Nat} (hn : n ≤ m) :
    ((List.finRange m).countP fun i => decide (i.val < n)) = n := by
  induction m generalizing n
  case zero => simp [Nat.le_zero.mp hn]
  case succ m hi =>
    cases n
    case zero => simp
    case succ n =>
      rw [List.finRange_succ, List.countP_cons, List.countP_map]
      simp [Function.comp_def, hi (Nat.le_of_succ_le_succ hn)]

-- The entries of a policy before they are completed.
def Completes (p : Policy) (rules : List BlobRule) : Prop :=
  ∀ i : Fin maxRules, (rules[i.val]?).elim (p.rules i = .unused) fun r =>
    (p.rules i).used ∧ (p.rules i).isInvalid = false ∧ (p.rules i).finish i = r.toKernel

theorem completes_table {enabled : Bool} (hr : ∀ r ∈ rules, r.Normal ∧ r.Fits)
    (ht : Loaded p enabled (table 0 rules fun _ => .unused)) : Completes p rules := by
  intro i
  cases hg : rules[i.val]?
  case none => simp [ht.rules, table, hg]
  case some r =>
    have hn := hr r (List.mem_of_getElem? hg)
    simp only [ht.rules, table, hg, Nat.not_lt_zero, if_false, Nat.sub_zero, Option.elim_some]
    exact ⟨rfl, toKernel_isInvalid hn.left, finish_toKernel hn.left hn.right i⟩

theorem exists_finish {enabled : Bool} {entries : Fin maxRules → Rule}
    (hl : rules.length ≤ maxRules) (hp : Loaded p enabled entries) (ht : Completes p rules) :
    ∃ q, p.finish = .ok q ∧ Carries q enabled rules := by
  have hu (i : Fin maxRules) : (p.rules i).used = decide (i.val < rules.length) := by
    have hi := ht i
    by_cases hn : i.val < rules.length
    case pos =>
      rw [List.getElem?_eq_getElem hn] at hi
      simpa [hn] using hi.left
    case neg =>
      rw [List.getElem?_eq_none (not_lt.mp hn)] at hi
      rw [show p.rules i = .unused from hi]
      simp [hn, Rule.unused]
  have hv : ((List.finRange maxRules).any fun i => (p.rules i).isInvalid) = false := by
    refine List.any_eq_false.mpr fun i _ => ?_
    have hi := ht i
    cases hg : rules[i.val]? <;> rw [hg] at hi
    case none =>
      rw [show p.rules i = .unused from hi]
      decide
    case some r => simp [hi.right.left]
  obtain ⟨q, hq⟩ : ∃ q, p.finish = .ok q := by
    rw [Policy.finish, if_neg (by simp [hp.mode]), if_neg (by simp [hp.failMode]), hv,
      if_neg (by simp)]
    exact ⟨_, rfl⟩
  obtain ⟨⟨he, hc⟩, hs⟩ := Policy.of_finish hq
  refine ⟨q, hq, he.trans hp.enabled, ?_, fun i => ?_⟩
  · simp only [hc, hu]
    exact countP_finRange_lt hl
  · have hi := ht i
    rw [hs, hu]
    cases hg : rules[i.val]? <;> rw [hg] at hi
    case none =>
      rw [decide_eq_false (not_lt.mpr (List.getElem?_eq_none_iff.mp hg))]
      exact hi
    case some r =>
      rw [decide_eq_true (List.getElem?_eq_some_iff.mp hg).choose]
      exact hi.right.right

end Parsed

section Blob

variable {appLock : Json Number} {defaultPolicyHash blob : List UInt8} {h : Header}
variable {rules : List BlobRule} {p : Policy}

theorem blobText_ne_nil (h : Header) (rules : List BlobRule) : blobText h rules ≠ [] := by
  intro he
  simp [blobText, textOf, Header.entries, ascii] at he

-- What a blob is made of.
structure Built (appLock : Json Number) (defaultPolicyHash : List UInt8) (h : Header)
    (rules : List BlobRule) : Prop where
  header : readHeader appLock defaultPolicyHash = some h
  mode : h.mode = ascii "blocklist"
  failMode : h.failMode = ascii "open"
  emitted : emittedRules appLock = some rules
  length : (blobText h rules).length < maxParams

theorem buildPolicyBlob_eq_ok_iff :
    buildPolicyBlob appLock defaultPolicyHash = some (.ok blob) ↔
      ∃ h rules, Built appLock defaultPolicyHash h rules ∧ blobText h rules = blob := by
  constructor
  · intro hb
    unfold buildPolicyBlob at hb
    split at hb
    case h_2 => simp at hb
    case h_1 =>
      obtain ⟨h, hh, hb⟩ := Option.bind_eq_some_iff.mp hb
      split_ifs at hb with hm hf
      · simp at hb
      · simp at hb
      · obtain ⟨rules, hr, hb⟩ := Option.bind_eq_some_iff.mp hb
        simp only [] at hb
        split_ifs at hb with hn hl
        · simp at hb
        · simp at hb
        · cases hb
          exact ⟨h, rules, ⟨hh, not_not.mp hm, not_not.mp hf, hr, not_le.mp hl⟩, rfl⟩
  · rintro ⟨h, rules, ⟨hh, hm, hf, hr, hl⟩, rfl⟩
    unfold buildPolicyBlob
    split
    case h_1 =>
      simp [hh, hm, hf, hr, blobText_ne_nil, not_le.mpr hl]
    case h_2 hn =>
      have he := (exists_of_readHeader hh).left
      unfold value at he
      split at he
      case h_1 => exact absurd rfl (hn _)
      case h_2 => cases he

theorem two_mul_length_le (es : List Entry) : 2 * es.length ≤ (textOf es).length := by
  induction es
  case nil => simp
  case cons e es hi =>
    have hs : (ascii "=").length = 1 := rfl
    have hn : (ascii "\n").length = 1 := rfl
    simp only [textOf, List.flatMap_cons, List.length_append, Entry.line, hs, hn,
      List.length_cons] at hi ⊢
    omega

theorem four_mul_length_le (i : Nat) (rules : List BlobRule) :
    4 * rules.length ≤ (ruleEntries i rules).length := by
  induction rules generalizing i
  case nil => simp
  case cons r rules hi =>
    have hr := hi (i + 1)
    simp only [ruleEntries, BlobRule.entries, List.length_append, List.length_cons] at hr ⊢
    omega

variable (hb : Built appLock defaultPolicyHash h rules) {es es' : List Entry}
include hb

theorem Built.length_lt : rules.length < 64 := by
  have hl := hb.length
  have ht := two_mul_length_le (h.entries ++ ruleEntries 0 rules)
  have hr := four_mul_length_le 0 rules
  rw [List.length_append] at ht
  rw [blobText, maxParams] at hl
  omega

theorem Built.length_le : rules.length ≤ maxRules :=
  hb.length_lt.le.trans (by decide)

theorem Built.normal : ∀ r ∈ rules, r.Normal :=
  normal_of_emitted hb.emitted hb.length_lt

theorem Built.written : ∀ e ∈ h.entries ++ ruleEntries 0 rules, e.Written := fun e he =>
  (List.mem_append.mp he).elim (Header.written hb.header e) (written_ruleEntries hb.normal 0 e)

omit hb

theorem zero_not_mem_textOf (hw : ∀ e ∈ es, e.Written) (hv : ∀ e ∈ es, 0 ∉ e.2) :
    0 ∉ textOf es := by
  intro hm
  obtain ⟨e, he, hm⟩ := List.mem_flatMap.mp hm
  have hs : 0 ∉ ascii "=" := by decide
  have hn : 0 ∉ ascii "\n" := by decide
  simp only [Entry.line, List.mem_append, (hw e he).keyNul, hv e he, hs, hn, or_self] at hm

theorem zero_not_mem_decimal (n : Nat) : 0 ∉ decimal n :=
  fun hz => absurd (isDigit_of_mem_decimal 0 hz) (by decide)

theorem MatchType.zero_not_mem_text (m : MatchType) : 0 ∉ m.text := by
  cases m <;> decide

theorem Header.zero_not_mem_leading (h : Header) (hm : h.mode = ascii "blocklist")
    (hf : h.failMode = ascii "open") : ∀ e ∈ h.leading, 0 ∉ e.2 := by
  have hb : 0 ∉ if h.enabled then ascii "1" else ascii "0" := by
    cases h.enabled
    case false => decide
    case true => decide
  have hl : 0 ∉ ascii "blocklist" ∧ 0 ∉ ascii "open" := by decide
  simp [Header.leading, Header.entries, hm, hf, hb, hl]

theorem Header.zero_not_mem (hm : h.mode = ascii "blocklist") (hf : h.failMode = ascii "open") :
    ∀ e ∈ h.entries, 0 ∈ e.2 → 0 ∈ h.policyVersion ∨ 0 ∈ h.policyHash := by
  rw [← List.take_append_drop 3 h.entries, List.forall_mem_append]
  refine ⟨fun e he hz => absurd hz (h.zero_not_mem_leading hm hf e he), ?_⟩
  simp only [Header.entries, List.drop_succ_cons, List.drop_zero, List.forall_mem_cons,
    zero_not_mem_decimal, false_implies, List.not_mem_nil, implies_true, and_true]
  exact ⟨.inl, .inr⟩

theorem BlobRule.zero_not_mem {r : BlobRule} (hi : 0 ∉ r.ruleId) (hv : 0 ∉ r.value) (i : Nat) :
    ∀ e ∈ r.entries i, 0 ∉ e.2 := by
  have ht : ∀ e ∈ r.expiresAt.toList.map fun t => (ruleKey i "expires_at", decimal t), 0 ∉ e.2 := by
    intro e he
    obtain ⟨t, _, rfl⟩ := List.mem_map.mp he
    exact zero_not_mem_decimal t
  simp only [BlobRule.entries, List.cons_append, List.nil_append, List.forall_mem_cons]
  exact ⟨hi, r.matchType.zero_not_mem_text, hv, zero_not_mem_decimal _, ht⟩

theorem zero_not_mem_ruleEntries (hr : ∀ r ∈ rules, 0 ∉ r.ruleId ∧ 0 ∉ r.value) (i : Nat) :
    ∀ e ∈ ruleEntries i rules, 0 ∉ e.2 := by
  induction rules generalizing i
  case nil => simp [ruleEntries]
  case cons r rules hi =>
    intro e he
    have hn := hr r List.mem_cons_self
    cases List.mem_append.mp he
    case inl he => exact BlobRule.zero_not_mem hn.left hn.right i e he
    case inr he => exact hi (fun s hs => hr s (List.mem_cons_of_mem _ hs)) _ e he

theorem exists_foldlM_blob (hm : h.mode = ascii "blocklist") (hf : h.failMode = ascii "open")
    (hr : ∀ r ∈ rules, r.Normal ∧ 0 ∉ r.value) (hl : rules.length ≤ maxRules) :
    ∃ q, (h.entries ++ ruleEntries 0 rules).foldlM applyEntry .reset = .ok q ∧
      Loaded q h.enabled (table 0 (rules.map BlobRule.held) fun _ => .unused) := by
  obtain ⟨q, hq, hp⟩ := exists_foldlM_header hm hf h.trailing_mem
  rw [Header.leading, List.take_append_drop] at hq
  have hs : (ruleEntries 0 rules).foldlM applyEntry q = _ :=
    foldlM_ruleEntries hr (by omega) fun j _ => congrFun hp.rules j
  refine ⟨{ q with rules := table 0 _ q.rules }, ?_, hp.enabled, hp.mode, hp.failMode,
    congrArg (table 0 _) hp.rules⟩
  rw [List.foldlM_append, hq]
  exact hs

theorem normal_held (hr : ∀ r ∈ rules, r.Normal ∧ 0 ∉ r.value) :
    ∀ r ∈ rules.map BlobRule.held, r.Normal ∧ r.Fits := by
  intro r hm
  obtain ⟨s, hs, rfl⟩ := List.mem_map.mp hm
  obtain ⟨hn, hz⟩ := hr s hs
  exact ⟨hn.held (by rw [terminated_eq_self hz]; exact hn.nonempty), s.fits_held⟩

theorem exists_carries_held (hm : h.mode = ascii "blocklist") (hf : h.failMode = ascii "open")
    (hr : ∀ r ∈ rules, r.Normal ∧ 0 ∉ r.value) (hl : rules.length ≤ maxRules) :
    ∃ q, (h.entries ++ ruleEntries 0 rules).foldlM applyEntry .reset >>= Policy.finish = .ok q ∧
      Carries q h.enabled (rules.map BlobRule.held) := by
  obtain ⟨q, hq, hp⟩ := exists_foldlM_blob hm hf hr hl
  rw [hq]
  exact exists_finish (by simpa using hl) hp (completes_table (normal_held hr) hp)

def Parses (h : Header) (rules : List BlobRule) (p : Policy) : Prop :=
  parsePolicyBlob (blobText h rules) (blobText h rules).length = .ok p

theorem exists_carries_of_clean (hb : Built appLock defaultPolicyHash h rules)
    (hz : 0 ∉ h.policyVersion ∧ 0 ∉ h.policyHash) (hc : ∀ r ∈ rules, 0 ∉ r.ruleId ∧ 0 ∉ r.value) :
    ∃ p, Parses h rules p ∧ Carries p h.enabled (rules.map BlobRule.held) := by
  have hz : ∀ e ∈ h.entries ++ ruleEntries 0 rules, 0 ∉ e.2 := by
    intro e he he'
    cases List.mem_append.mp he
    case inl he => exact (Header.zero_not_mem hb.mode hb.failMode e he he').elim hz.left hz.right
    case inr he => exact zero_not_mem_ruleEntries hc 0 e he he'
  unfold Parses
  rw [parsePolicyBlob_eq (blobText_ne_nil h rules) hb.length.le, blobText,
    terminated_eq_self (zero_not_mem_textOf hb.written hz), parseText_textOf hb.written]
  exact exists_carries_held hb.mode hb.failMode (fun r hm => ⟨hb.normal r hm, (hc r hm).right⟩)
    hb.length_le

-- The text ends within the first value that has a terminator.
theorem parseText_of_cut {e : Entry}
    (hw : ∀ d ∈ es ++ e :: es', d.Written) (hz : ∀ d ∈ es, 0 ∉ d.2) (he : 0 ∈ e.2) :
    parseText (terminated (textOf (es ++ e :: es'))) =
      (es ++ [(e.1, terminated e.2)]).foldlM applyEntry .reset >>= Policy.finish := by
  have hwe : e.Written := hw e (by simp)
  have hes : ∀ d ∈ es, d.Written := fun d hd => hw d (List.mem_append_left _ hd)
  have hwt : Entry.Written (e.1, terminated e.2) :=
    { hwe with value := fun c hc => hwe.value c ((terminated_isPrefix _).subset hc) }
  have hb : textOf (es ++ e :: es') =
      textOf es ++ (e.1 ++ ascii "=" ++ (e.2 ++ (ascii "\n" ++ textOf es'))) := by
    simp [textOf, Entry.line]
  have hq : 0 ∉ ascii "=" := by decide
  rw [← parseText_textOf_append hes hwt, hb, terminated_append_of_not_mem (zero_not_mem_textOf hes hz),
    terminated_append_of_not_mem (by simp [hwe.keyNul, hq]), terminated_append_of_mem he]
  rfl

-- A terminator in the header hides all rules from the driver.
theorem exists_carries_of_cut {e : Entry}
    (hb : Built appLock defaultPolicyHash h rules) (hs : h.entries = h.leading ++ es ++ e :: es')
    (hz : ∀ d ∈ h.leading ++ es, 0 ∉ d.2) (he : 0 ∈ e.2) :
    ∃ p, Parses h rules p ∧ Carries p h.enabled [] := by
  have hk : ∀ d ∈ es ++ [(e.1, terminated e.2)], d.1 ∈ trailingKeys := by
    have hd : h.entries.drop 3 = es ++ e :: es' := by
      rw [hs, List.append_assoc]
      exact List.drop_left' rfl
    have ht : ∀ d ∈ es ++ e :: es', d.1 ∈ trailingKeys := hd ▸ h.trailing_mem
    simp only [List.forall_mem_append, List.forall_mem_cons] at ht ⊢
    exact ⟨ht.left, ht.right.left, by simp⟩
  have hd : h.entries ++ ruleEntries 0 rules =
      h.leading ++ es ++ e :: (es' ++ ruleEntries 0 rules) := by
    rw [hs, List.append_assoc, List.cons_append]
  obtain ⟨q, hq, hp⟩ := exists_foldlM_header hb.mode hb.failMode hk
  unfold Parses
  rw [parsePolicyBlob_eq (blobText_ne_nil h rules) hb.length.le, blobText, hd,
    parseText_of_cut (hd ▸ hb.written) hz he, List.append_assoc, hq]
  exact exists_finish (by simp) hp fun i => congrFun hp.rules i

-- The driver sees the policy without its rules, or all of it.
theorem intact_or_exists_carries_nil (hb : Built appLock defaultPolicyHash h rules) :
    (0 ∉ h.policyVersion ∧ 0 ∉ h.policyHash) ∨ ∃ p, Parses h rules p ∧ Carries p h.enabled [] := by
  have hl : ∀ d ∈ h.leading, 0 ∉ d.2 := h.zero_not_mem_leading hb.mode hb.failMode
  by_cases hv : 0 ∈ h.policyVersion
  case pos =>
    right
    have hs : h.entries =
        h.leading ++ [] ++ (ascii "policy_version", h.policyVersion) :: h.entries.drop 4 := rfl
    exact exists_carries_of_cut hb hs (by simpa using hl) hv
  case neg =>
    by_cases hs : 0 ∈ h.policyHash
    case neg => exact .inl ⟨hv, hs⟩
    right
    have he : h.entries = h.leading ++ [(ascii "policy_version", h.policyVersion)] ++
        (ascii "policy_hash", h.policyHash) :: h.entries.drop 5 := rfl
    refine exists_carries_of_cut hb he ?_ hs
    simpa only [List.forall_mem_append, List.forall_mem_singleton] using ⟨hl, hv⟩

end Blob

end Windows.AppLock
