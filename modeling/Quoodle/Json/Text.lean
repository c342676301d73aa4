import Quoodle.Json.Escape

namespace Json

variable {ν μ : Type}

def isNumberChar (c : Char) : Bool :=
  c.isDigit || c == '-' || c == '+' || c == '.' || c == 'e' || c == 'E'

def IsNumber : List Char → Prop
  | [] => False
  | c :: cs => (c.isDigit || c == '-') = true ∧ ∀ d ∈ cs, isNumberChar d

instance : DecidablePred IsNumber
  | [] => isFalse id
  | c :: cs =>
    letI : Decidable (∀ d ∈ cs, isNumberChar d = true) := List.decidableBAll _ cs
    inferInstanceAs (Decidable ((c.isDigit || c == '-') = true ∧ _))

structure NumberFormat (ν : Type) where
  text : ν → List Char
  isNumber (n) : IsNumber (text n)

section Cancel

variable {α : Type} {f g : α → List Char} {l : List α} {cs ds : List Char} {p : α → Prop}

theorem flatMap_append_induction {c : List Char → Prop} (hc : c cs)
    (hf : ∀ a ∈ l, ∀ cs, c cs → c (f a ++ cs)) : c (l.flatMap f ++ cs) := by
  induction l
  case nil => exact hc
  case cons a l hi =>
    rw [List.flatMap_cons, List.append_assoc]
    exact hf a (.head _) _ <| hi fun a ha => hf a (.tail _ ha)

-- Two texts that are put together along the same list are compared item by item, as long as it can be
-- seen from what may follow an item where it ends.
theorem flatMap_cancel {c d : List Char → Prop} (hc : c cs) (hd : d ds)
    (hf : ∀ a ∈ l, ∀ cs, c cs → c (f a ++ cs)) (hg : ∀ a ∈ l, ∀ ds, d ds → d (g a ++ ds))
    (hp : ∀ a ∈ l, ∀ cs ds, c cs → d ds → f a ++ cs = g a ++ ds → p a ∧ cs = ds)
    (h : l.flatMap f ++ cs = l.flatMap g ++ ds) : (∀ a ∈ l, p a) ∧ cs = ds := by
  induction l
  case nil => exact ⟨by simp, h⟩
  case cons a l hi =>
    simp only [List.forall_mem_cons] at hf hg hp ⊢
    simp only [List.flatMap_cons, List.append_assoc] at h
    have ⟨ha, ht⟩ := hp.left _ _ (flatMap_append_induction hc hf.right)
      (flatMap_append_induction hd hg.right) h
    have ⟨hl, he⟩ := hi hf.right hg.right hp.right ht
    exact ⟨⟨ha, hl⟩, he⟩

theorem flatMap_cancel_of_forall
    (hp : ∀ a ∈ l, ∀ cs ds, f a ++ cs = g a ++ ds → p a ∧ cs = ds)
    (h : l.flatMap f ++ cs = l.flatMap g ++ ds) : (∀ a ∈ l, p a) ∧ cs = ds :=
  flatMap_cancel (c := fun _ => True) (d := fun _ => True) trivial trivial (fun _ _ _ _ => trivial)
    (fun _ _ _ _ => trivial) (fun a ha cs ds _ _ => hp a ha cs ds) h

end Cancel

namespace Style

def quote (st : Style) (s : String) : List Char :=
  '"' :: s.toList.flatMap st.escape ++ ['"']

def comma (st : Style) : List Char :=
  ',' :: List.replicate st.gap ' '

def colon (st : Style) : List Char :=
  ':' :: List.replicate st.gap ' '

def scalar (st : Style) : Scalar (List Char) → List Char
  | .null => ['n', 'u', 'l', 'l']
  | .bool true => ['t', 'r', 'u', 'e']
  | .bool false => ['f', 'a', 'l', 's', 'e']
  | .num t => t
  | .str s => st.quote s

def member (st : Style) (m : String × List Char) : List Char :=
  st.quote m.1 ++ st.colon ++ m.2

-- Prints a value whose numbers are given by the characters they are written with.
def write (st : Style) : Json (List Char) → List Char :=
  fold st.scalar
    (fun ts => '[' :: st.comma.intercalate ts ++ [']'])
    (fun ms => '{' :: st.comma.intercalate (ms.map st.member) ++ ['}'])

end Style

def print (st : Style) (fmt : NumberFormat ν) (v : Json ν) : List Char :=
  st.write (v.mapNum fmt.text)

section Print

variable {st : Style} {fmt : NumberFormat ν}

@[simp]
theorem print_leaf (a : Scalar ν) : print st fmt (leaf a) = st.scalar (a.mapNum fmt.text) := by
  simp [print, Style.write]

@[simp]
theorem print_arr (vs : List (Json ν)) :
    print st fmt (arr vs) = '[' :: st.comma.intercalate (vs.map (print st fmt)) ++ [']'] := by
  simp only [print, Style.write, mapNum_arr, fold_arr, List.map_map]
  rfl

@[simp]
theorem print_obj (ms : List (String × Json ν)) :
    print st fmt (obj ms) =
      '{' :: st.comma.intercalate ((onValues (print st fmt) ms).map st.member) ++ ['}'] := by
  simp only [print, Style.write, mapNum_obj, fold_obj, onValues_onValues]
  rfl

end Print

-- What a reader skips between tokens and whether it accepts raw control characters in strings.
structure Dialect where
  space : Char → Bool
  control : Bool
  blank : space ' ' = true
  invisible {c} : space c = true → c.toNat ≤ 0x20

-- The whitespace of the JSON grammar, which most readers follow.
def Dialect.rfc : Dialect where
  space c := c == ' ' || c == '\t' || c == '\n' || c == '\r'
  control := false
  blank := rfl
  invisible := by
    intro c h
    simp only [Bool.or_eq_true, beq_iff_eq] at h
    rcases h with ((rfl | rfl) | rfl) | rfl <;> decide

-- Reads the characters of a string literal up to and including the closing quote.
def readString (control : Bool) : Nat → List Char → Option (List Char × List Char)
  | 0, _ => none
  | _ + 1, '"' :: cs  => some ([], cs)
  | n + 1, cs => do
    let (c, cs) ← readChar control cs
    let (s, cs) ← readString control n cs
    some (c :: s, cs)

namespace Dialect

def skip (d : Dialect) : List Char → List Char :=
  List.dropWhile d.space

-- The readers below return numbers as the characters they are written with. How these are
-- interpreted differs between JSON libraries.
mutual

def readValue (d : Dialect) : Nat → List Char → Option (Json (List Char) × List Char)
  | 0, _ => none
  | n + 1, cs =>
    match d.skip cs with
    | 'n' :: 'u' :: 'l' :: 'l' :: cs => some (null, cs)
    | 't' :: 'r' :: 'u' :: 'e' :: cs => some (bool true, cs)
    | 'f' :: 'a' :: 'l' :: 's' :: 'e' :: cs => some (bool false, cs)
    | '"' :: cs => do
      let (s, cs) ← readString d.control n cs
      some (str (.ofList s), cs)
    | '[' :: cs =>
      match d.skip cs with
      | ']' :: cs => some (arr [], cs)
      | cs => do
        let (vs, cs) ← d.readItems n cs
        some (arr vs, cs)
    | '{' :: cs =>
      match d.skip cs with
      | '}' :: cs => some (obj [], cs)
      | cs => do
        let (ms, cs) ← d.readMembers n cs
        some (obj ms, cs)
    | c :: cs =>
      if c.isDigit || c == '-' then
        some (num (c :: cs.takeWhile isNumberChar), cs.dropWhile isNumberChar)
      else none
    | [] => none

def readItems (d : Dialect) : Nat → List Char → Option (List (Json (List Char)) × List Char)
  | 0, _ => none
  | n + 1, cs => do
    let (v, cs) ← d.readValue n cs
    match d.skip cs with
    | ']' :: cs => some ([v], cs)
    | ',' :: cs => do
      let (vs, cs) ← d.readItems n cs
      some (v :: vs, cs)
    | _ => none

def readMembers (d : Dialect) :
    Nat → List Char → Option (List (String × Json (List Char)) × List Char)
  | 0, _ => none
  | n + 1, cs =>
    match d.skip cs with
    | '"' :: cs => do
      let (k, cs) ← readString d.control n cs
      match d.skip cs with
      | ':' :: cs => do
        let (v, cs) ← d.readValue n cs
        match d.skip cs with
        | '}' :: cs => some ([(.ofList k, v)], cs)
        | ',' :: cs => do
          let (ms, cs) ← d.readMembers n cs
          some ((.ofList k, v) :: ms, cs)
        | _ => none
      | _ => none
    | _ => none

end

-- The length of a printed text is enough fuel to read it back (cf. `readValue_print`).
def read (d : Dialect) (cs : List Char) : Option (Json (List Char)) :=
  match d.readValue (cs.length + 1) cs with
  | some (v, cs) => if d.skip cs = [] then some v else none
  | none => none

def Ends (cs : List Char) : Prop :=
  ∀ c ∈ cs.head?, isNumberChar c = false

theorem Ends.nil : Ends [] := by
  simp [Ends]

theorem Ends.cons {c : Char} {cs : List Char} (h : isNumberChar c = false) : Ends (c :: cs) := by
  simp [Ends, h]

section Cancel

variable {α : Type} {f g : α → List Char} {l : List α} {cs ds : List Char}

theorem append_intercalate (sep : List Char) (f : α → List Char) (h : l ≠ []) :
    sep ++ sep.intercalate (l.map f) = l.flatMap fun a => sep ++ f a := by
  induction l
  case nil => contradiction
  case cons a l hi =>
    cases l
    case nil => simp
    case cons b l =>
      rw [List.map_cons, List.map_cons, List.intercalate_cons_cons, ← List.map_cons, List.flatMap_cons,
        ← hi (by simp)]
      simp only [List.append_assoc]

theorem intercalate_cancel {p : α → Prop} {sep : List Char} {close : Char}
    (hs : sep.head? = some ',') (hc : isNumberChar close = false)
    (hp : ∀ a ∈ l, ∀ cs ds, Ends cs → Ends ds → f a ++ cs = g a ++ ds → p a ∧ cs = ds)
    (h : sep.intercalate (l.map f) ++ close :: cs = sep.intercalate (l.map g) ++ close :: ds) :
    (∀ a ∈ l, p a) ∧ cs = ds := by
  have he (t : List Char) : Ends (sep ++ t) := by
    simp [Ends, List.head?_append, hs, isNumberChar]
  by_cases hl : l = []
  case pos => simpa [hl] using h
  have ha := congrArg (sep ++ ·) h
  simp only [← List.append_assoc, append_intercalate sep _ hl] at ha
  have ⟨hp, ht⟩ := flatMap_cancel (c := Ends) (d := Ends) (.cons hc) (.cons hc)
    (fun a _ cs _ => List.append_assoc .. ▸ he _) (fun a _ ds _ => List.append_assoc .. ▸ he _)
    (fun a ha cs ds hc hd h => hp a ha cs ds hc hd <| by simpa using h) ha
  exact ⟨hp, (List.cons.inj ht).right⟩

end Cancel

section Skip

variable {d : Dialect}

theorem skip_cons {c : Char} {cs : List Char} (h : 0x20 < c.toNat) : d.skip (c :: cs) = c :: cs := by
  have hs : d.space c = false := by
    by_contra hc
    have := d.invisible (Bool.eq_true_of_not_eq_false hc)
    omega
  simp [skip, hs]

@[simp]
theorem skip_gap (k : Nat) (cs : List Char) :
    d.skip (List.replicate k ' ' ++ cs) = d.skip cs := by
  induction k
  case zero => rfl
  case succ k hi => simp_all [List.replicate_succ, skip, d.blank]

theorem readValue_gap (n k : Nat) (cs : List Char) :
    d.readValue n (List.replicate k ' ' ++ cs) = d.readValue n cs := by
  cases n <;> simp [readValue]

theorem readItems_gap (n k : Nat) (cs : List Char) :
    d.readItems n (List.replicate k ' ' ++ cs) = d.readItems n cs := by
  cases n <;> simp [readItems, readValue_gap]

theorem readMembers_gap (n k : Nat) (cs : List Char) :
    d.readMembers n (List.replicate k ' ' ++ cs) = d.readMembers n cs := by
  cases n <;> simp [readMembers]

end Skip

variable {st : Style} {fmt : NumberFormat ν} {d : Dialect}

theorem readString_quote (st : Style) (control : Bool) (s cs : List Char) {n : Nat}
    (h : (s.flatMap st.escape).length < n) :
    readString control n (s.flatMap st.escape ++ '"' :: cs) = some (s, cs) := by
  induction s generalizing n
  case nil =>
    obtain ⟨n, rfl⟩ := Nat.exists_eq_add_one.mpr (Nat.zero_lt_of_lt h)
    simp [readString]
  case cons c s hi =>
    obtain ⟨n, rfl⟩ := Nat.exists_eq_add_one.mpr (Nat.zero_lt_of_lt h)
    have hc := List.length_pos_of_ne_nil (st.escape_ne_nil c)
    simp only [List.flatMap_cons, List.length_append, List.append_assoc] at h ⊢
    rw [readString]
    · simp [st.readChar_escape, hi (n := n) (by omega)]
    · exact st.escape_ne_quote c _

theorem takeWhile_isNumberChar {ts cs : List Char} (h : ∀ c ∈ ts, isNumberChar c) (he : Ends cs) :
    (ts ++ cs).takeWhile isNumberChar = ts ∧ (ts ++ cs).dropWhile isNumberChar = cs := by
  induction ts
  case nil =>
    cases cs
    case nil => simp
    case cons => simp [he _ rfl]
  case cons t ts hi =>
    have ⟨h₁, h₂⟩ := hi fun c hc => h c (List.mem_cons_of_mem _ hc)
    simp [h t List.mem_cons_self, h₁, h₂]

theorem isNumber_head {c : Char} (h : (c.isDigit || c == '-') = true) :
    0x20 < c.toNat ∧ c ∉ ['n', 't', 'f', '"', '[', '{', ']'] := by
  simp only [Bool.or_eq_true, Char.isDigit_iff_toNat, beq_iff_eq] at h
  constructor
  case left =>
    cases h
    case inl h => simp at h; omega
    case inr h => subst h; decide
  case right =>
    intro hc
    simp only [List.mem_cons, List.not_mem_nil, or_false] at hc
    rcases hc with rfl | rfl | rfl | rfl | rfl | rfl | rfl <;> simp at h

theorem readValue_number {t cs : List Char} (n : Nat) (ht : IsNumber t) (he : Ends cs) :
    d.readValue (n + 1) (t ++ cs) = some (num t, cs) := by
  cases t
  case nil => exact ht.elim
  case cons c t =>
    have ⟨h₁, h₂⟩ := isNumber_head ht.left
    have ⟨h₃, h₄⟩ := takeWhile_isNumberChar ht.right he
    simp only [List.mem_cons, List.not_mem_nil, or_false, not_or] at h₂
    have h₀ := ht.left
    rw [readValue, List.cons_append, skip_cons h₁]
    split <;> simp_all

theorem print_head (st : Style) (fmt : NumberFormat ν) (v : Json ν) :
    ∃ c cs, print st fmt v = c :: cs ∧ 0x20 < c.toNat ∧ c ≠ ']' := by
  cases v
  case arr vs => exact ⟨_, _, print_arr vs, by decide, by decide⟩
  case obj ms => exact ⟨_, _, print_obj ms, by decide, by decide⟩
  case leaf a =>
    rw [print_leaf]
    cases a
    case null => exact ⟨_, _, rfl, by decide, by decide⟩
    case bool b => cases b <;> exact ⟨_, _, rfl, by decide, by decide⟩
    case str s => exact ⟨_, _, rfl, by decide, by decide⟩
    case num n =>
      have h := fmt.isNumber n
      simp only [Scalar.mapNum, Style.scalar]
      cases ht : fmt.text n <;> rw [ht] at h
      case nil => exact h.elim
      case cons c cs =>
        obtain ⟨h₁, h₂⟩ := isNumber_head h.left
        exact ⟨c, cs, rfl, h₁, by simp_all⟩

def Reads (d : Dialect) (st : Style) (fmt : NumberFormat ν) (v : Json ν) : Prop :=
  ∀ n cs, (print st fmt v).length ≤ n → Ends cs →
    d.readValue n (print st fmt v ++ cs) = some (v.mapNum fmt.text, cs)

theorem print_ne_nil (st : Style) (fmt : NumberFormat ν) (v : Json ν) : print st fmt v ≠ [] := by
  have ⟨_, _, h, _⟩ := print_head st fmt v
  simp [h]

theorem print_items_head (st : Style) (fmt : NumberFormat ν) (v : Json ν) (vs : List (Json ν)) :
    ∃ c cs, st.comma.intercalate ((v :: vs).map (print st fmt)) = c :: cs ∧
      0x20 < c.toNat ∧ c ≠ ']' := by
  have ⟨c, cs, h, hc, hb⟩ := print_head st fmt v
  cases vs
  case nil => exact ⟨c, cs, by simp [h], hc, hb⟩
  case cons w vs =>
    exact ⟨c, cs ++ (st.comma ++ st.comma.intercalate ((w :: vs).map (print st fmt))),
      by simp [h, List.intercalate_cons_cons], hc, hb⟩

theorem print_members_head (st : Style) (fmt : NumberFormat ν) (m : String × Json ν)
    (ms : List (String × Json ν)) :
    ∃ cs, st.comma.intercalate ((onValues (print st fmt) (m :: ms)).map st.member) = '"' :: cs := by
  cases ms
  case nil => exact ⟨_, by simp [Style.member, Style.quote]; rfl⟩
  case cons m' ms => exact ⟨_, by simp [List.intercalate_cons_cons, Style.member, Style.quote]; rfl⟩

theorem readItems_print {vs : List (Json ν)} (hv : vs ≠ []) (hr : ∀ v ∈ vs, Reads d st fmt v)
    {n : Nat} (cs : List Char) (hn : (st.comma.intercalate (vs.map (print st fmt))).length < n) :
    d.readItems n (st.comma.intercalate (vs.map (print st fmt)) ++ ']' :: cs) =
      some (vs.map (mapNum fmt.text), cs) := by
  induction vs generalizing n
  case nil => contradiction
  case cons v vs hi =>
    obtain ⟨n, rfl⟩ := Nat.exists_eq_add_one.mpr (Nat.zero_lt_of_lt hn)
    cases vs
    case nil =>
      simp only [List.map_cons, List.map_nil, List.intercalate_singleton] at hn ⊢
      rw [readItems, hr v List.mem_cons_self n _ (by omega) (.cons rfl)]
      simp [skip_cons]
    case cons w vs =>
      simp only [List.map_cons, List.intercalate_cons_cons, List.length_append,
        List.append_assoc] at hn ⊢
      simp only [Style.comma, List.cons_append, List.length_cons] at hn ⊢
      rw [readItems, hr v List.mem_cons_self n _ (by omega) (.cons rfl)]
      have := hi (by simp) (fun u hu => hr u (List.mem_cons_of_mem _ hu)) (n := n)
      simp only [List.map_cons, Style.comma] at this
      simp [skip_cons, readItems_gap, this (by omega)]

theorem readMembers_print {ms : List (String × Json ν)} (hm : ms ≠ [])
    (hr : ∀ m ∈ ms, Reads d st fmt m.2) {n : Nat} (cs : List Char)
    (hn : (st.comma.intercalate ((onValues (print st fmt) ms).map st.member)).length < n) :
    d.readMembers n (st.comma.intercalate ((onValues (print st fmt) ms).map st.member) ++ '}' :: cs) =
      some (onValues (mapNum fmt.text) ms, cs) := by
  induction ms generalizing n
  case nil => contradiction
  case cons m ms hi =>
    obtain ⟨n, rfl⟩ := Nat.exists_eq_add_one.mpr (Nat.zero_lt_of_lt hn)
    have hk := readString_quote st d.control m.1.toList (n := n)
    cases ms
    case nil =>
      simp only [onValues_cons, onValues_nil, List.map_cons, List.map_nil,
        List.intercalate_singleton, Style.member, Style.quote, Style.colon, List.length_append,
        List.length_cons, List.append_assoc, List.cons_append, List.nil_append] at hn ⊢
      have hv := hr m List.mem_cons_self n ('}' :: cs) (by omega) (.cons rfl)
      simp [readMembers, skip_cons, hk _ (by omega), readValue_gap, hv]
    case cons m' ms =>
      have := hi (by simp) (fun u hu => hr u (List.mem_cons_of_mem _ hu)) (n := n)
      simp only [onValues_cons, List.map_cons, List.intercalate_cons_cons, List.length_append,
        List.append_assoc] at hn this ⊢
      generalize st.comma.intercalate _ = r at hn this ⊢
      simp only [Style.member, Style.quote, Style.colon, Style.comma, List.length_append,
        List.length_cons, List.append_assoc, List.cons_append, List.nil_append] at hn ⊢
      have hv (t : List Char) := hr m List.mem_cons_self n (',' :: t) (by omega) (.cons rfl)
      simp [readMembers, skip_cons, hk _ (by omega), readValue_gap, hv, readMembers_gap,
        this (by omega)]

theorem readValue_print (d : Dialect) (st : Style) (fmt : NumberFormat ν) (v : Json ν) :
    Reads d st fmt v := by
  induction v <;> intro n cs hn he
  all_goals
    obtain ⟨n, rfl⟩ := Nat.exists_eq_add_one.mpr <|
      Nat.lt_of_lt_of_le (List.length_pos_of_ne_nil <| print_ne_nil st fmt _) hn
  case leaf a =>
    cases a
    case null => simp [Style.scalar, readValue, skip_cons, Scalar.mapNum]
    case bool b => cases b <;> simp [Style.scalar, readValue, skip_cons, Scalar.mapNum]
    case num k =>
      simp only [print_leaf, Style.scalar, mapNum_leaf, Scalar.mapNum]
      exact readValue_number n (fmt.isNumber k) he
    case str s =>
      simp only [print_leaf, Scalar.mapNum, Style.scalar, Style.quote, List.length_append, List.length_cons,
        List.cons_append, List.append_assoc] at hn ⊢
      have := readString_quote st d.control s.toList cs (n := n) (by omega)
      simp [readValue, skip_cons, this, Scalar.mapNum]
  case arr vs hi =>
    simp only [print_arr, List.length_append, List.length_cons, List.length_nil, List.cons_append,
      List.append_assoc, List.nil_append] at hn ⊢
    cases vs
    case nil => simp [readValue, skip_cons]
    case cons v vs =>
      obtain ⟨c, t, ht, hc, hb⟩ := print_items_head st fmt v vs
      have := readItems_print (by simp) hi cs (n := n) (by omega)
      rw [readValue, skip_cons (by decide)]
      rw [ht, List.cons_append] at this ⊢
      simp [skip_cons hc, hb, this]
  case obj ms hi =>
    simp only [print_obj, List.length_append, List.length_cons, List.length_nil, List.cons_append,
      List.append_assoc, List.nil_append] at hn ⊢
    cases ms
    case nil => simp [readValue, skip_cons]
    case cons m ms =>
      obtain ⟨t, ht⟩ := print_members_head st fmt m ms
      have := readMembers_print (by simp) hi cs (n := n) (by omega)
      rw [readValue, skip_cons (by decide)]
      rw [ht, List.cons_append] at this ⊢
      simp [skip_cons, this]

theorem read_print (d : Dialect) (st : Style) (fmt : NumberFormat ν) (v : Json ν) :
    d.read (print st fmt v) = some (v.mapNum fmt.text) := by
  have h := readValue_print d st fmt v ((print st fmt v).length + 1) [] (Nat.le_succ _) Ends.nil
  rw [List.append_nil] at h
  simp [read, h, skip]

end Dialect
end Json
