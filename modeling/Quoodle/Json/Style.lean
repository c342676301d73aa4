import Quoodle.Json.Number

namespace Json

variable {ν μ : Type} {fmt' : NumberFormat μ} {fmt : NumberFormat ν}

theorem print_congr (st : Style) {v : Json ν}
    {w : Json μ} (h : v.mapNum fmt.text = w.mapNum fmt'.text) : print st fmt v = print st fmt' w :=
  congrArg st.write h

namespace Style

variable {st st' : Style} {cs ds : List Char}

def Agree (st st' : Style) (s : String) : Prop :=
  ∀ c ∈ s.toList, st.escape c = st'.escape c

theorem escape_cancel {c : Char}
    (h : st.escape c ++ cs = st'.escape c ++ ds) : st.escape c = st'.escape c ∧ cs = ds := by
  have h₁ := st.readChar_escape true c cs
  have h₂ := st'.readChar_escape true c ds
  rw [h, h₂] at h₁
  simp only [Option.some.injEq, Prod.mk.injEq, true_and] at h₁
  subst h₁
  exact ⟨List.append_cancel_right h, rfl⟩

theorem quote_cancel {s : String}
    (h : st.quote s ++ cs = st'.quote s ++ ds) : Agree st st' s ∧ cs = ds := by
  simp only [quote, List.cons_append, List.append_assoc, List.nil_append, List.cons.injEq,
    true_and] at h
  obtain ⟨ha, ht⟩ := flatMap_cancel_of_forall (fun c _ cs ds => escape_cancel) h
  exact ⟨ha, (List.cons.inj ht).right⟩

theorem member_append (st : Style) (m : String × List Char) (cs : List Char) :
    st.member m ++ cs = st.quote m.1 ++ (st.colon ++ (m.2 ++ cs)) := by
  simp only [member, List.append_assoc]

theorem Agree.quote {s : String} (h : Agree st st' s) : st.quote s = st'.quote s := by
  simp only [Style.quote, List.flatMap_def, List.map_congr_left h]

end Style

section Agreement

variable {st st' : Style} {fmt : NumberFormat ν} {d : Dialect} {cs ds : List Char}

theorem print_cancel {v : Json ν}
    (h : print st fmt v ++ cs = print st' fmt v ++ ds) (hc : Dialect.Ends cs) (hd : Dialect.Ends ds) :
    print st fmt v = print st' fmt v ∧ cs = ds := by
  let n := (print st fmt v).length + (print st' fmt v).length
  have h₁ := Dialect.readValue_print .rfc st fmt v n cs (Nat.le_add_right ..) hc
  have h₂ := Dialect.readValue_print .rfc st' fmt v n ds (Nat.le_add_left ..) hd
  rw [h, h₂] at h₁
  simp only [Option.some.injEq, Prod.mk.injEq, true_and] at h₁
  subst h₁
  exact ⟨List.append_cancel_right h, rfl⟩

theorem items_cancel (hg : st.comma = st'.comma) {vs : List (Json ν)}
    (h : st.comma.intercalate (vs.map (print st fmt)) ++ ']' :: cs =
      st'.comma.intercalate (vs.map (print st' fmt)) ++ ']' :: ds) :
    ∀ v ∈ vs, print st fmt v = print st' fmt v := by
  rw [← hg] at h
  exact (Dialect.intercalate_cancel rfl rfl (fun v _ cs ds hc hd h => print_cancel h hc hd) h).left

theorem members_cancel (hc : st.comma = st'.comma) (hk : st.colon = st'.colon)
    {ms : List (String × Json ν)}
    (h : st.comma.intercalate ((onValues (print st fmt) ms).map st.member) ++ '}' :: cs =
      st'.comma.intercalate ((onValues (print st' fmt) ms).map st'.member) ++ '}' :: ds) :
    ∀ m ∈ ms, st.Agree st' m.1 ∧ print st fmt m.2 = print st' fmt m.2 := by
  rw [← hc] at h
  simp only [onValues, List.map_map] at h
  refine (Dialect.intercalate_cancel rfl rfl (fun m _ cs ds hc hd h => ?_) h).left
  simp only [Function.comp_apply, Style.member_append, hk] at h
  obtain ⟨hs, ht⟩ := Style.quote_cancel h
  obtain ⟨hv, hr⟩ := print_cancel (List.append_cancel_left ht) hc hd
  exact ⟨⟨hs, hv⟩, hr⟩

end Agreement

-- Two printers with the same gap agree on a value exactly if they agree on the strings and keys in
-- it.
theorem print_eq_print_iff_agree {st st' : Style} (hg : st.gap = st'.gap) (fmt : NumberFormat ν)
    (v : Json ν) : print st fmt v = print st' fmt v ↔ Texts (st.Agree st') v := by
  have hc : st.comma = st'.comma := by rw [Style.comma, Style.comma, hg]
  have hk : st.colon = st'.colon := by rw [Style.colon, Style.colon, hg]
  induction v
  case leaf a =>
    simp only [print_leaf, Texts.leaf_iff]
    cases a
    case str s =>
      simp only [Scalar.mapNum, Style.scalar, Scalar.Text]
      refine ⟨fun h => ?_, Style.Agree.quote⟩
      exact (Style.quote_cancel (congrArg (· ++ []) h)).left
    case bool b => cases b <;> simp [Scalar.mapNum, Style.scalar, Scalar.Text]
    all_goals simp [Scalar.mapNum, Style.scalar, Scalar.Text]
  case arr vs hi =>
    rw [Texts.arr_iff, ← forall₂_congr hi]
    constructor
    case mp =>
      intro h
      simp only [print_arr, List.cons_append, List.cons.injEq, true_and] at h
      exact items_cancel hc h
    case mpr =>
      intro h
      simp only [print_arr, List.map_congr_left h, hc]
  case obj ms hi =>
    rw [Texts.obj_iff, ← forall₂_congr hi]
    constructor
    case mp =>
      intro h
      simp only [print_obj, List.cons_append, List.cons.injEq, true_and] at h
      have hm := members_cancel hc hk h
      refine ⟨fun k hk => ?_, fun m hm' => (hm m hm').right⟩
      obtain ⟨m, hm', rfl⟩ := List.mem_map.mp hk
      exact (hm m hm').left
    case mpr =>
      rintro ⟨hs, hv⟩
      have hm : (onValues (print st fmt) ms).map st.member =
          (onValues (print st' fmt) ms).map st'.member := by
        simp only [onValues, List.map_map, List.map_inj_left, Function.comp_apply, Style.member]
        intro m hm
        rw [(hs m.1 (List.mem_map_of_mem hm)).quote, hk, hv m hm]
      simp only [print_obj, hm, hc]

theorem print_eq_print_iff {st st' : Style} (hg : st.gap = st'.gap)
    {v : Json ν} {w : Json μ} : print st fmt v = print st' fmt' w ↔
      v.mapNum fmt.text = w.mapNum fmt'.text ∧ Texts (st.Agree st') v := by
  constructor
  case mp =>
    intro h
    have hr := congrArg Dialect.rfc.read h
    rw [Dialect.read_print, Dialect.read_print, Option.some.injEq] at hr
    refine ⟨hr, ?_⟩
    rw [← print_eq_print_iff_agree hg fmt, h, print_congr st' hr]
  case mpr =>
    intro ⟨hr, ha⟩
    rw [(print_eq_print_iff_agree hg fmt v).mpr ha, print_congr st' hr]

namespace Style

-- The escapes JSON asks for. Printers differ in whether they escape slashes, and in which of the
-- other characters (`wide`) they write by code unit.
def standard (slash : Bool) (wide : Char → Bool) (gap : Nat) : Style where
  short c :=
    match c with
    | '"'    => some '"'
    | '\\' => some '\\'
    | '\x08' => some 'b'
    | '\x0c' => some 'f'
    | '\n' => some 'n'
    | '\r' => some 'r'
    | '\t' => some 't'
    | '/' => if slash then some '/' else none
    | _ => none
  long c := c.toNat < 0x20 || wide c
  gap := gap
  short_read := by
    intro c d h
    split at h
    case h_8 =>
      split at h <;> cases h
      rfl
    all_goals cases h
    all_goals rfl
  raw_read := by
    intro c h hl
    simp only [Bool.or_eq_false_iff, decide_eq_false_iff_not, not_lt] at hl
    split at h <;> simp_all

-- Escapes nothing that may be written raw.
def minimal : Style :=
  standard false (fun _ => false) 0

theorem standard_escape_of_not_wide {wide : Char → Bool} {c : Char} (gap : Nat)
    (h : wide c = false) : (standard false wide gap).escape c = minimal.escape c := by
  have hl : (standard false wide gap).long c = minimal.long c := by simp [minimal, standard, h]
  unfold escape
  rw [hl]
  rfl

end Style
end Json
