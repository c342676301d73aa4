import Quoodle.Json.Style

namespace Json

-- A way to write the characters of a string literal. A reader may refuse what is written for some of
-- them.
structure Escaper (control : Bool) where
  escape : Char → List Char
  legible : Char → Bool
  ne_quote (c cs ds) : escape c ++ cs ≠ '"' :: ds
  read (c cs) : readChar control (escape c ++ cs) = if legible c then some (c, cs) else none

namespace Escaper

variable {control : Bool} (e : Escaper control)

def text (s : List Char) : List Char :=
  s.flatMap e.escape

def quote (s : List Char) : List Char :=
  '"' :: e.text s ++ ['"']

@[simp]
theorem text_nil : e.text [] = [] :=
  rfl

@[simp]
theorem text_cons (c : Char) (s : List Char) : e.text (c :: s) = e.escape c ++ e.text s :=
  rfl

theorem quote_append (s cs : List Char) : e.quote s ++ cs = '"' :: (e.text s ++ '"' :: cs) := by
  simp [quote]

theorem escape_ne_nil (c : Char) : e.escape c ≠ [] := by
  intro h
  apply e.ne_quote c ['"'] []
  simp [h]

theorem readString_text (s cs : List Char) {n : Nat} (hn : (e.text s).length < n) :
    readString control n (e.text s ++ '"' :: cs) =
      if s.all e.legible then some (s, cs) else none := by
  induction s generalizing n
  case nil =>
    obtain ⟨n, rfl⟩ := Nat.exists_eq_add_one.mpr (Nat.zero_lt_of_lt hn)
    simp [readString]
  case cons c s hi =>
    obtain ⟨n, rfl⟩ := Nat.exists_eq_add_one.mpr (Nat.zero_lt_of_lt hn)
    have hc := List.length_pos_of_ne_nil (e.escape_ne_nil c)
    simp only [text_cons, List.length_append, List.append_assoc] at hn ⊢
    have hs := hi (n := n) (by omega)
    rw [readString, e.read]
    · cases hl : e.legible c
      case false => simp [List.all_cons, hl]
      case true =>
        simp only [if_true, Option.bind_eq_bind, Option.bind_some, hs, List.all_cons, hl,
          Bool.true_and]
        cases ha : s.all e.legible <;> simp
    · exact e.ne_quote c _

def ofStyle (control : Bool) (st : Style) : Escaper control where
  escape := st.escape
  legible _ := true
  ne_quote c cs := st.escape_ne_quote c cs
  read c cs := by simpa using st.readChar_escape control c cs

theorem ofStyle_quote (st : Style) (s : String) : (ofStyle control st).quote s.toList = st.quote s :=
  rfl

section Cancel

variable {e} {e' : Escaper control}

-- Whatever follows them, two literals that can be read are told apart by their strings.
theorem quote_cancel {s t cs ds : List Char} (he : ∀ c, e.legible c) (he' : ∀ c, e'.legible c)
    (h : e.quote s ++ cs = e'.quote t ++ ds) : s = t ∧ cs = ds := by
  rw [quote_append, quote_append, List.cons.injEq] at h
  have hs := e.readString_text s cs (n := (e.text s).length + (e'.text t).length + 1) (by omega)
  have ht := e'.readString_text t ds (n := (e.text s).length + (e'.text t).length + 1) (by omega)
  rw [h.right, ht] at hs
  simp only [List.all_eq_true.mpr fun c _ => he c, List.all_eq_true.mpr fun c _ => he' c, if_true,
    Option.some.injEq, Prod.mk.injEq] at hs
  exact ⟨hs.left.symm, hs.right.symm⟩

theorem escape_cancel {c : Char} {cs ds : List Char} (he : ∀ c, e.legible c)
    (he' : ∀ c, e'.legible c) (h : e.escape c ++ cs = e'.escape c ++ ds) :
    e.escape c = e'.escape c ∧ cs = ds := by
  have h₁ := e.read c cs
  have h₂ := e'.read c ds
  rw [h, h₂] at h₁
  simp only [he, he', if_true, Option.some.injEq, Prod.mk.injEq, true_and] at h₁
  subst h₁
  exact ⟨List.append_cancel_right h, rfl⟩

theorem quote_eq_quote_iff {s : List Char} (he : ∀ c, e.legible c) (he' : ∀ c, e'.legible c) :
    e.quote s = e'.quote s ↔ ∀ c ∈ s, e.escape c = e'.escape c := by
  constructor
  case mp =>
    intro h
    simp only [quote, List.cons_append, List.cons.injEq, true_and] at h
    exact (flatMap_cancel_of_forall (fun c _ cs ds => escape_cancel he he') h).left
  case mpr =>
    intro h
    simp only [quote, text, List.flatMap_def, List.map_congr_left h]

end Cancel

end Escaper

-- Strings that may be written without escaping anything.
def Plain (s : List Char) : Prop :=
  ∀ c ∈ s, c ≠ '"' ∧ c ≠ '\\' ∧ 0x20 ≤ c.toNat

instance : DecidablePred Plain :=
  fun s => decidable_of_iff (s.all fun c => c != '"' && c != '\\' && decide (0x20 ≤ c.toNat)) <| by
    simp [Plain, and_assoc]

namespace Plain

theorem cons_iff {c : Char} {s : List Char} :
    Plain (c :: s) ↔ (c ≠ '"' ∧ c ≠ '\\' ∧ 0x20 ≤ c.toNat) ∧ Plain s := by
  simp [Plain]

end Plain

theorem minimal_escape_of_plain {c : Char} (h : c ≠ '"' ∧ c ≠ '\\' ∧ 0x20 ≤ c.toNat) :
    Style.minimal.escape c = [c] := by
  have hn : Style.minimal.short c = none := by
    simp only [Style.minimal, Style.standard]
    split <;> simp_all
  have hl : Style.minimal.long c = false := by
    simp [Style.minimal, Style.standard]
    omega
  simp [Style.escape, hn, hl]

theorem minimal_escape_of_not_plain {c : Char} (h : ¬(c ≠ '"' ∧ c ≠ '\\' ∧ 0x20 ≤ c.toNat)) :
    ∃ cs, Style.minimal.escape c = '\\' :: cs := by
  cases hs : Style.minimal.short c
  case some d => exact ⟨[d], by simp [Style.escape, hs]⟩
  cases hl : Style.minimal.long c
  case false => exact absurd (Style.minimal.raw_read hs hl) h
  case true =>
    simp only [Style.escape, hs, hl, if_true, unicodeEscape]
    split <;> exact ⟨_, rfl⟩

theorem minimal_text_of_plain {s : List Char} (h : Plain s) :
    s.flatMap Style.minimal.escape = s := by
  induction s
  case nil => rfl
  case cons c s hi =>
    rw [Plain.cons_iff] at h
    rw [List.flatMap_cons, minimal_escape_of_plain h.left, hi h.right, List.singleton_append]

-- Every backslash of a string written as it is makes it lag further behind its escaped text.
theorem raw_ne_escaped (n : Nat) (s cs ds : List Char) :
    s ++ '"' :: cs ≠
      List.replicate (n + 1) '\\' ++ (s.flatMap Style.minimal.escape ++ '"' :: ds) := by
  induction s generalizing n
  case nil => simp [List.replicate_succ]
  case cons c s hi =>
    intro h
    have he : Style.minimal.escape '\\' = List.replicate 2 '\\' := rfl
    rw [List.replicate_succ, List.cons_append, List.cons_append, List.cons.injEq] at h
    obtain ⟨rfl, h⟩ := h
    rw [List.flatMap_cons, List.append_assoc, he, ← List.append_assoc,
      List.replicate_append_replicate] at h
    exact hi (n + 1) h

theorem raw_cancel {s cs ds : List Char}
    (h : s ++ '"' :: cs = s.flatMap Style.minimal.escape ++ '"' :: ds) : Plain s ∧ cs = ds := by
  induction s
  case nil => simpa [Plain] using h
  case cons c s hi =>
    rw [List.flatMap_cons, List.append_assoc] at h
    by_cases hc : c ≠ '"' ∧ c ≠ '\\' ∧ 0x20 ≤ c.toNat
    case pos =>
      rw [minimal_escape_of_plain hc, List.cons_append, List.singleton_append, List.cons.injEq] at h
      have ⟨hs, hd⟩ := hi h.right
      exact ⟨Plain.cons_iff.mpr ⟨hc, hs⟩, hd⟩
    case neg =>
      have ⟨t, ht⟩ := minimal_escape_of_not_plain hc
      have hq : c = '\\' := by
        rw [ht] at h
        exact (List.cons.inj h).left
      subst hq
      have he : Style.minimal.escape '\\' = ['\\', '\\'] := rfl
      rw [he] at h
      exact absurd (List.cons.inj h).right (raw_ne_escaped 0 s cs ds)

-- What the reader `d` makes of the text `t`, whatever follows it: the value `v`, or nothing.
structure Dialect.Spells (d : Dialect) (t : List Char) (v : Option (Json (List Char))) : Prop where
  head : ∃ c cs, t = c :: cs ∧ 0x20 < c.toNat ∧ c ≠ ']'
  read : ∀ n cs, t.length ≤ n → Dialect.Ends cs → d.readValue n (t ++ cs) = v.map (·, cs)

theorem intText_natCast (n : Nat) : intText n = Nat.toDigits 10 n := by
  rw [intText, if_neg (by omega), Int.natAbs_natCast]

namespace Dialect.Spells

variable {ν : Type} {d : Dialect} {t u : List Char} {v w : Json (List Char)}

theorem number (h : IsNumber t) : d.Spells t (some (num t)) := by
  refine ⟨?_, fun n cs hn he => ?_⟩
  case refine_1 =>
    cases t
    case nil => exact h.elim
    case cons c t =>
      have ⟨h₁, h₂⟩ := isNumber_head h.left
      exact ⟨c, t, rfl, h₁, by simp_all⟩
  case refine_2 =>
    cases t
    case nil => exact h.elim
    case cons c t =>
      obtain ⟨n, rfl⟩ := Nat.exists_eq_add_one.mpr (Nat.lt_of_lt_of_le (Nat.succ_pos _) hn)
      exact readValue_number n h he

theorem string (e : Escaper d.control) (s : List Char) :
    d.Spells (e.quote s) (if s.all e.legible then some (str (.ofList s)) else none) := by
  refine ⟨⟨'"', _, rfl, by decide, by decide⟩, fun n cs hn he => ?_⟩
  simp only [Escaper.quote, List.length_append, List.length_cons] at hn
  obtain ⟨n, rfl⟩ := Nat.exists_eq_add_one.mpr (Nat.lt_of_lt_of_le (by omega) hn)
  have hs := e.readString_text s cs (n := n) (by omega)
  rw [Escaper.quote_append, readValue, skip_cons (by decide)]
  simp only [hs]
  cases s.all e.legible <;> simp

theorem read_eq {o : Option (Json (List Char))} (h : d.Spells t o) : d.read t = o := by
  have hr := h.read (t.length + 1) [] (Nat.le_succ _) .nil
  rw [List.append_nil] at hr
  rw [Dialect.read, hr]
  cases o <;> simp [skip]

theorem cancel {cs ds : List Char} (ht : d.Spells t (some v)) (hu : d.Spells u (some w))
    (h : t ++ cs = u ++ ds) (hc : Ends cs) (hd : Ends ds) : t = u ∧ cs = ds := by
  have h₁ := ht.read (t.length + u.length) cs (by omega) hc
  have h₂ := hu.read (t.length + u.length) ds (by omega) hd
  rw [h, h₂] at h₁
  simp only [Option.map_some, Option.some.injEq, Prod.mk.injEq] at h₁
  rw [h₁.right] at h
  exact ⟨List.append_cancel_right h, h₁.right.symm⟩

end Dialect.Spells

-- An object whose keys are written as they are, and whose values are given by their texts.
def rawMember (m : String × List Char) : List Char :=
  '"' :: m.1.toList ++ '"' :: ':' :: m.2

def rawObject (ms : List (String × List Char)) : List Char :=
  '{' :: [','].intercalate (ms.map rawMember) ++ ['}']

theorem print_minimal_obj {ν : Type} {fmt : NumberFormat ν} {ms : List (String × Json ν)}
    (hk : ∀ k ∈ keys ms, Plain k.toList) :
    print .minimal fmt (obj ms) = rawObject (onValues (print .minimal fmt) ms) := by
  have hm : (onValues (print .minimal fmt) ms).map Style.minimal.member =
      (onValues (print .minimal fmt) ms).map rawMember := by
    apply List.map_congr_left
    intro m hm
    have hm : m.1 ∈ keys (onValues (print .minimal fmt) ms) := List.mem_map_of_mem hm
    have hp := hk m.1 (by rwa [keys_onValues] at hm)
    have hc : Style.minimal.colon = [':'] := rfl
    rw [Style.member, Style.quote, minimal_text_of_plain hp, hc]
    simp [rawMember]
  rw [print_obj, hm, rawObject]
  rfl

structure Spelling (d : Dialect) where
  text : List Char
  value : Option (Json (List Char))
  spells : d.Spells text value

namespace Spelling

variable {d : Dialect}

def fields (fs : List (String × Spelling d)) : Option (List (String × Json (List Char))) :=
  fs.mapM fun f => f.2.value.map (f.1, ·)

@[simp]
theorem fields_nil : fields ([] : List (String × Spelling d)) = some [] :=
  rfl

@[simp]
theorem fields_cons (f : String × Spelling d) (fs : List (String × Spelling d)) :
    fields (f :: fs) = f.2.value.bind fun v => (fields fs).map ((f.1, v) :: ·) := by
  unfold fields
  rw [List.mapM_cons]
  cases f.2.value
  case none => rfl
  case some v =>
    generalize List.mapM (m := Option) _ fs = ms
    cases ms <;> rfl

theorem rawMember_append (m : String × List Char) (cs : List Char) :
    rawMember m ++ cs = '"' :: (m.1.toList ++ '"' :: ':' :: (m.2 ++ cs)) := by
  simp [rawMember]

theorem readString_raw {k : List Char} (hk : Plain k) (cs : List Char) {n : Nat}
    (hn : k.length < n) : readString d.control n (k ++ '"' :: cs) = some (k, cs) := by
  have h := Dialect.readString_quote .minimal d.control k cs (n := n)
  rw [minimal_text_of_plain hk] at h
  exact h hn

theorem readMembers_raw {fs : List (String × Spelling d)} (hf : fs ≠ [])
    (hk : ∀ k ∈ keys fs, Plain k.toList) (cs : List Char) {n : Nat}
    (hn : ([','].intercalate ((onValues text fs).map rawMember)).length < n) :
    d.readMembers n ([','].intercalate ((onValues text fs).map rawMember) ++ '}' :: cs) =
      (fields fs).map (·, cs) := by
  induction fs generalizing n
  case nil => contradiction
  case cons f fs hi =>
    obtain ⟨n, rfl⟩ := Nat.exists_eq_add_one.mpr (Nat.zero_lt_of_lt hn)
    have hp := hk f.1 List.mem_cons_self
    cases fs
    case nil =>
      simp only [onValues_cons, onValues_nil, List.map_cons, List.map_nil,
        List.intercalate_singleton] at hn ⊢
      rw [rawMember_append]
      simp only [rawMember, List.length_append, List.length_cons] at hn
      have hv := f.2.spells.read n ('}' :: cs) (by omega) (.cons rfl)
      rw [Dialect.readMembers, Dialect.skip_cons (by decide)]
      simp only [readString_raw hp _ (by omega : f.1.toList.length < n), hv, fields_cons, fields_nil,
        Option.bind_eq_bind, Option.bind_some, Dialect.skip_cons (c := ':') (by decide)]
      generalize f.2.value = o
      cases o <;> simp [Dialect.skip_cons]
    case cons g fs =>
      have ht := hi (by simp) (fun k hm => hk k (List.mem_cons_of_mem _ hm)) (n := n)
      simp only [onValues_cons, List.map_cons, List.intercalate_cons_cons, List.length_append,
        List.append_assoc] at hn ht ⊢
      generalize [','].intercalate _ = r at hn ht ⊢
      rw [rawMember_append]
      simp only [rawMember, List.length_append, List.length_cons, List.length_nil] at hn
      have hv := f.2.spells.read n (',' :: (r ++ '}' :: cs)) (by omega) (.cons rfl)
      rw [Dialect.readMembers, Dialect.skip_cons (by decide)]
      simp only [List.cons_append, List.nil_append,
        readString_raw hp _ (by omega : f.1.toList.length < n), hv, Option.bind_eq_bind,
        Option.bind_some, Dialect.skip_cons (c := ':') (by decide)]
      have ht := ht (by omega)
      rw [fields_cons f]
      generalize f.2.value = o
      generalize fields (g :: fs) = ms at ht ⊢
      cases o
      case none => simp
      case some v =>
        simp only [Option.map_some, Option.bind_some, Dialect.skip_cons (c := ',') (by decide), ht]
        cases ms <;> simp

theorem spells_rawObject {fs : List (String × Spelling d)} (hk : ∀ k ∈ keys fs, Plain k.toList) :
    d.Spells (rawObject (onValues text fs)) ((fields fs).map obj) := by
  refine ⟨⟨_, _, rfl, by decide, by decide⟩, fun n cs hn _ => ?_⟩
  simp only [rawObject, List.length_append, List.length_cons, List.length_nil, List.cons_append,
    List.append_assoc, List.nil_append] at hn ⊢
  obtain ⟨n, rfl⟩ := Nat.exists_eq_add_one.mpr (Nat.lt_of_lt_of_le (by omega) hn)
  rw [Dialect.readValue, Dialect.skip_cons (by decide)]
  cases fs
  case nil => simp [Dialect.skip_cons]
  case cons f fs =>
    have hm := readMembers_raw (by simp) hk cs (n := n) (by omega)
    obtain ⟨t, ht⟩ : ∃ t, [','].intercalate ((onValues text (f :: fs)).map rawMember) = '"' :: t := by
      cases fs <;> exact ⟨_, by simp [List.intercalate_cons_cons, rawMember]; rfl⟩
    rw [ht, List.cons_append] at hm ⊢
    generalize fields (f :: fs) = ms at hm ⊢
    simp only [Dialect.skip_cons (c := '"') (by decide)]
    cases ms <;> simp [hm]

end Spelling

end Json
