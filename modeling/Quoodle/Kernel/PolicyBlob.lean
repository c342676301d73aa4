import Quoodle.Kernel.AppLockdown

-- How the driver reads the lines of a policy, and what its buffers can hold.
namespace Kernel.AppLockdown

section Numbers

theorem le_ofDigits (n : Nat) (text : List UInt8) : n ≤ ofDigits n text := by
  induction text generalizing n
  case nil => exact le_rfl
  case cons c cs hi => exact (by omega : n ≤ n * 10 + digit c).trans (hi _)

theorem ofDigits_decimal (n : Nat) : ofDigits 0 (decimal n) = n := by
  have h : ∀ cs : List Char, (∀ c ∈ cs, c.isDigit = true) → ∀ m,
      ofDigits m (cs.map Char.toUInt8) = Nat.ofDigitChars 10 cs m := by
    intro cs hcs
    induction cs
    case nil => exact fun _ => rfl
    case cons c cs hi =>
      intro m
      have hc := toNat_toUInt8_of_isDigit (hcs c List.mem_cons_self) |>.left
      rw [Nat.ofDigitChars_cons, ← hi fun d hd => hcs d (List.mem_cons_of_mem _ hd)]
      simp only [ofDigits, List.map_cons, List.foldl_cons, digit, hc, Nat.mul_comm m]
  rw [decimal, h _ (fun c hc => isDigit_of_mem_toDigits hc), Nat.ofDigitChars_ten_toDigits]

variable {n : Nat} {text : List UInt8}

theorem parseU32From_eq_some {tmp : Nat} (hd : ∀ c ∈ text, isDigit c = true)
    (h : ofDigits tmp text ≤ maxPriority) : parseU32From tmp text = some (ofDigits tmp text) := by
  induction text generalizing tmp
  case nil => rfl
  case cons c cs hi =>
    have hc := (le_ofDigits (tmp * 10 + digit c) cs).trans h
    rw [parseU32From, if_pos (hd c List.mem_cons_self), if_neg hc.not_gt]
    exact hi (fun d hm => hd d (List.mem_cons_of_mem _ hm)) h

theorem parseU64From_eq_some (hd : ∀ c ∈ text, isDigit c = true)
    (h : ofDigits n text < 2 ^ 64) : parseU64From n text = some (ofDigits n text) := by
  induction text generalizing n
  case nil => rfl
  case cons c cs hi =>
    have hc := (le_ofDigits (n * 10 + digit c) cs).trans_lt h
    rw [parseU64From, if_pos (hd c List.mem_cons_self), Nat.mod_eq_of_lt hc]
    exact hi (fun d hm => hd d (List.mem_cons_of_mem _ hm)) h

theorem parseU32_decimal (h : n ≤ maxPriority) (fallback : Nat) :
    parseU32 (decimal n) fallback = n := by
  rw [parseU32, if_neg (decimal_ne_nil n), parseU32From_eq_some isDigit_of_mem_decimal,
    ofDigits_decimal, Option.getD_some]
  rwa [ofDigits_decimal]

theorem parseU64_decimal (h : n < 2 ^ 64) (fallback : Nat) : parseU64 (decimal n) fallback = n := by
  rw [parseU64, if_neg (decimal_ne_nil n), parseU64From_eq_some isDigit_of_mem_decimal,
    ofDigits_decimal, Option.getD_some]
  rwa [ofDigits_decimal]

theorem parseIndex_append {idx : Fin maxRules} {digits rest : List UInt8}
    (hd : ∀ c ∈ digits, isDigit c = true) (hr : rest.head?.any isDigit = false)
    (h : ofDigits idx digits < maxRules) :
    parseIndex idx (digits ++ rest) = some (⟨ofDigits idx digits, h⟩, rest) := by
  induction digits generalizing idx
  case nil =>
    cases rest
    case nil => rfl
    case cons c rest =>
      have hc : isDigit c = false := hr
      simp [parseIndex, hc, ofDigits]
  case cons c cs hi =>
    have hc := (le_ofDigits (idx * 10 + digit c) cs).trans_lt h
    rw [List.cons_append, parseIndex, if_pos (hd c List.mem_cons_self), dif_pos hc]
    exact hi (fun d hm => hd d (List.mem_cons_of_mem _ hm)) h

theorem parseRuleKey_eq_some (i : Fin maxRules) {field : List UInt8} (hf : field ≠ [])
    (hl : field.length < 32) :
    parseRuleKey (ascii "rule." ++ decimal i ++ ascii "." ++ field) = some (i, field) := by
  obtain ⟨d, field, rfl⟩ := List.exists_cons_of_ne_nil hf
  have hi : parseIndex ⟨0, by decide⟩ (decimal i ++ ascii "." ++ d :: field) =
      some (i, '.'.toUInt8 :: d :: field) := by
    have ho : ofDigits (⟨0, by decide⟩ : Fin maxRules) (decimal i) = i := ofDigits_decimal i
    rw [List.append_assoc, parseIndex_append isDigit_of_mem_decimal rfl (ho.trans_lt i.isLt)]
    exact congrArg some (Prod.ext (Fin.ext ho) rfl)
  have hh : (decimal i ++ ascii "." ++ d :: field).head?.any isDigit = true := by
    obtain ⟨c, cs, hc⟩ := List.exists_cons_of_ne_nil (decimal_ne_nil i)
    simpa [hc] using isDigit_of_mem_decimal c (hc ▸ List.mem_cons_self)
  have hd (cs : List UInt8) : (ascii "rule." ++ cs).drop 5 = cs := List.drop_left' rfl
  rw [List.append_assoc, List.append_assoc, ← List.append_assoc (decimal i), parseRuleKey,
    if_pos (List.prefix_append ..)]
  simp only [hd, hh, if_true, hi, copyAscii_eq_self hl]

end Numbers

section Lines

variable {p : Policy} {c : UInt8} {line l cs : List UInt8}
variable {ls : List (List UInt8)} {last : List UInt8}

def Unbroken (l : List UInt8) : Prop :=
  ∀ c ∈ l, isBreak c = false

theorem splitLines_cons (h : isBreak c = false) :
    splitLines line (c :: cs) = splitLines (line ++ [c]) cs := by
  cases cs
  case nil | cons => simp [splitLines, h]

theorem splitLines_append (h : Unbroken l) :
    splitLines line (l ++ cs) = splitLines (line ++ l) cs := by
  induction l generalizing line
  case nil => simp
  case cons d l hi =>
    rw [List.cons_append, splitLines_cons (h d List.mem_cons_self),
      hi fun e he => h e (List.mem_cons_of_mem _ he), List.append_assoc, List.singleton_append]

theorem splitLines_break (h : isBreak c = true) (hc : cs ≠ [])
    (hh : cs.head?.any isBreak = false) : splitLines line (c :: cs) = line :: splitLines [] cs := by
  cases cs
  case nil => exact absurd rfl hc
  case cons d cs => simp_all [splitLines]

def joined (ls : List (List UInt8)) : List UInt8 :=
  ls.flatMap fun l => l ++ ['\n'.toUInt8]

theorem head_joined_append (hl : ∀ l ∈ ls, l ≠ [] ∧ Unbroken l) (hu : Unbroken last) :
    (joined ls ++ last).head?.any isBreak = false := by
  have hn {l cs : List UInt8} (hl : l ≠ []) (hu : Unbroken l) :
      (l ++ cs).head?.any isBreak = false := by
    cases l
    case nil => exact absurd rfl hl
    case cons d l => exact hu d List.mem_cons_self
  cases ls
  case cons l ls =>
    rw [joined, List.flatMap_cons, List.append_assoc, List.append_assoc]
    exact hn (hl l List.mem_cons_self).left (hl l List.mem_cons_self).right
  case nil =>
    cases last
    case nil => rfl
    case cons d last => exact hu d List.mem_cons_self

theorem foldlM_splitLines (hl : ∀ l ∈ ls, l ≠ [] ∧ Unbroken l) (hu : Unbroken last) :
    (splitLines [] (joined ls ++ last)).foldlM Policy.applyLine p =
      (ls ++ [last]).foldlM Policy.applyLine p := by
  induction ls generalizing p
  case nil =>
    have h : splitLines [] (last ++ []) = splitLines ([] ++ last) [] := splitLines_append hu
    rw [List.append_nil, List.nil_append, splitLines] at h
    rw [joined, List.flatMap_nil, List.nil_append, h, List.nil_append]
  case cons l ls hi =>
    have hls (k : List UInt8) (hk : k ∈ ls) := hl k (List.mem_cons_of_mem _ hk)
    have hs : joined (l :: ls) ++ last = l ++ '\n'.toUInt8 :: (joined ls ++ last) := by
      simp [joined]
    rw [hs, splitLines_append (hl l List.mem_cons_self).right, List.nil_append, List.cons_append,
      List.foldlM_cons]
    by_cases hr : joined ls ++ last = []
    case neg =>
      rw [splitLines_break rfl hr (head_joined_append hls hu), List.foldlM_cons]
      exact congrArg _ (funext fun q => hi hls)
    case pos =>
      rw [hr]
      have hb : splitLines l ['\n'.toUInt8] = [l] := rfl
      rw [hb, List.foldlM_cons]
      refine congrArg _ (funext fun q => ?_)
      rw [← hi hls, hr]
      rfl

theorem applyLine_eq {key value : List UInt8} (h : '='.toUInt8 ∉ key) :
    p.applyLine (key ++ '='.toUInt8 :: value) =
      p.setMember (normalizeAsciiPath (copyAscii 96 key)) (copyAscii maxRuleValue value) := by
  have hk : ∀ c ∈ key, decide (c ≠ '='.toUInt8) = true :=
    fun c hc => by simpa using ne_of_mem_of_not_mem hc h
  have ht : (key ++ '='.toUInt8 :: value).takeWhile (· ≠ '='.toUInt8) = key := by
    rw [List.takeWhile_append_of_pos hk, List.takeWhile_cons_of_neg (by simp), List.append_nil]
  have hd : (key ++ '='.toUInt8 :: value).dropWhile (· ≠ '='.toUInt8) = '='.toUInt8 :: value := by
    rw [List.dropWhile_append_of_pos hk, List.dropWhile_cons_of_neg (by simp)]
  rw [Policy.applyLine, ht, hd]

theorem parsePolicyBlob_eq {blob : List UInt8} (hn : blob ≠ []) (hl : blob.length ≤ maxParams) :
    parsePolicyBlob blob blob.length = parseText (terminated blob) := by
  have hc : copyLength blob blob.length = blob.length :=
    if_neg fun h => hn (List.length_eq_zero_iff.mp h)
  rw [parsePolicyBlob, hc, List.take_length, if_neg]
  rintro (h | h)
  · exact hn (List.length_eq_zero_iff.mp h)
  · omega

end Lines

section Buffers

theorem length_copyAscii_lt {n : Nat} (hn : 0 < n) (value : List UInt8) :
    (copyAscii n value).length < n := by
  rw [copyAscii, List.length_take]
  omega

theorem Rule.setField_ruleId (r : Rule) (value : List UInt8) :
    r.setField (ascii "rule_id") value =
      .ok { r with used := true, ruleId := copyAscii maxRuleId value } := by
  simp +decide [Rule.setField]

theorem Rule.setField_value (r : Rule) (value : List UInt8) :
    r.setField (ascii "value") value =
      .ok { r with used := true, value := copyAscii maxRuleValue (normalizeAsciiPath value) } := by
  simp +decide [Rule.setField]

theorem Rule.setField_priority (r : Rule) (value : List UInt8) :
    r.setField (ascii "priority") value =
      .ok { r with used := true, priority := parseU32 value 1000 } := by
  simp +decide [Rule.setField]

theorem Rule.setField_expiresAt (r : Rule) (value : List UInt8) :
    r.setField (ascii "expires_at") value =
      .ok { r with
        used := true
        hasExpiresAt := decide (parseU64 value 0 > 0)
        expiresAtUnix := parseU64 value 0 } := by
  simp +decide [Rule.setField]

end Buffers

end Kernel.AppLockdown
