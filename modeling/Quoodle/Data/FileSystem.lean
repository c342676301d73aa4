import Quoodle.Data.Utf8

-- Directory trees with symbolic links and the POSIX functions that resolve paths in them.
namespace Posix

def IsName (s : List Char) : Prop :=
  s ≠ [] ∧ s ≠ ['.'] ∧ s ≠ ['.', '.'] ∧ '/' ∉ s

instance : DecidablePred IsName :=
  fun s => inferInstanceAs (Decidable (s ≠ [] ∧ s ≠ ['.'] ∧ s ≠ ['.', '.'] ∧ '/' ∉ s))

-- The name of a directory entry.
@[ext]
structure Name where
  text : List Char
  valid : IsName text
  deriving DecidableEq

-- The names on the way from an entry up to the root. There are no links on that way, so every
-- location has only one such list.
abbrev Location :=
  List Name

inductive Component where
  | here
  | up
  | down (n : Name)
  deriving DecidableEq

namespace Component

def ofText (s : List Char) : Component :=
  if h : IsName s then down ⟨s, h⟩ else if s = ['.', '.'] then up else here

@[simp]
theorem ofText_text (n : Name) : ofText n.text = down n := by
  rw [ofText, dif_pos n.valid]

@[simp]
theorem ofText_nil : ofText [] = here :=
  rfl

end Component

-- Repeated slashes and slashes at the end are components, too. They stay where they are.
def components (path : List Char) : List Component :=
  (path.splitOn '/').map .ofText

theorem components_child (path : List Char) (n : Name) :
    components (path ++ '/' :: n.text) = components path ++ [.down n] := by
  rw [components, List.splitOn_append_cons_self, List.splitOn_eq_singleton n.valid.2.2.2]
  simp [components]

def splitLast (path : List Char) : Option (List Char × List Char) :=
  if '/' ∈ path then
    some ((path.rdropWhile (· ≠ '/')).dropLast, path.rtakeWhile (· ≠ '/'))
  else none

theorem splitLast_append {s t : List Char} (h : '/' ∉ t) :
    splitLast (s ++ '/' :: t) = some (s, t) := by
  have ht : ∀ c ∈ t.reverse, decide (c ≠ '/') = true := by
    intro c hc
    rw [decide_eq_true_eq]
    rintro rfl
    exact h (List.mem_reverse.mp hc)
  rw [splitLast, if_pos (by simp), List.rdropWhile, List.rtakeWhile, List.reverse_append,
    List.reverse_cons, List.append_assoc, List.dropWhile_append_of_pos ht,
    List.takeWhile_append_of_pos ht]
  simp

theorem notMem_of_splitLast {path s t : List Char} (h : splitLast path = some (s, t)) : '/' ∉ t := by
  have ⟨_, h⟩ := Option.ite_none_right_eq_some.mp h
  cases h
  intro hm
  simpa using List.mem_rtakeWhile_imp hm

-- The path without slashes at its end. A path of slashes only is the root.
def trimSlashes (path : List Char) : List Char :=
  if path.all (· = '/') then path else path.rdropWhile (· = '/')

def pathMax : Nat :=
  4096

def fits (path : List Char) : Bool :=
  (utf8 path).length < pathMax

namespace Location

def trail : Location → List Char
  | [] => []
  | n :: l => trail l ++ '/' :: n.text

def path : Location → List Char
  | [] => ['/']
  | l => trail l

theorem splitOn_trail (l : Location) :
    (trail l).splitOn '/' = [] :: l.reverse.map Name.text := by
  induction l
  case nil => rfl
  case cons n l hi =>
    rw [trail, List.splitOn_append_cons_self, hi, List.splitOn_eq_singleton n.valid.2.2.2]
    simp

theorem trail_cons (n : Name) (l : Location) : ∃ s, trail (n :: l) = '/' :: s := by
  induction l generalizing n
  case nil => exact ⟨n.text, rfl⟩
  case cons m l hi =>
    have ⟨s, hs⟩ := hi m
    exact ⟨s ++ '/' :: n.text, by rw [trail, hs, List.cons_append]⟩

theorem path_eq_cons (l : Location) : ∃ s, l.path = '/' :: s := by
  cases l
  case nil => exact ⟨[], rfl⟩
  case cons n l => exact trail_cons n l

theorem components_path (l : Location) :
    ∃ cs, (∀ c ∈ cs, c = Component.here) ∧ components l.path = cs ++ l.reverse.map .down := by
  cases l
  case nil => exact ⟨[.here, .here], by simp, rfl⟩
  case cons n l =>
    refine ⟨[.here], by simp, ?_⟩
    rw [path, components, splitOn_trail, List.map_cons, List.map_map]
    · simp [Function.comp_def]
    · simp

-- A test on texts for being below `r`. If `r` is the root, only the root itself passes it.
theorem isSuffix_of_path_eq_append {r l : Location} {s : List Char}
    (h : l.path = r.path ++ s) (hs : s = [] ∨ ∃ t, s = '/' :: t) : r <:+ l := by
  cases r
  case nil => exact List.nil_suffix
  case cons n r =>
    have hp : l.path = trail l := by
      cases l
      case nil =>
        have hl := congrArg List.length h
        have := List.length_pos_of_ne_nil n.valid.1
        simp [path, trail] at hl
        omega
      case cons => rfl
    have hr : path (n :: r) = trail (n :: r) := rfl
    rw [hp, hr] at h
    have he := congrArg (List.splitOn '/') h
    rw [splitOn_trail] at he
    suffices hm : (n :: r).reverse.map Name.text <+: l.reverse.map Name.text by
      have hi : Function.Injective Name.text := fun _ _ => Name.ext
      exact List.reverse_prefix.mp <| (List.prefix_map_iff_of_injective hi).mp hm
    cases hs
    case inl hs =>
      rw [hs, List.append_nil, splitOn_trail, List.cons.injEq] at he
      rw [he.right]
    case inr hs =>
      have ⟨t, hs⟩ := hs
      rw [hs, List.splitOn_append_cons_self, splitOn_trail, List.cons_append, List.cons.injEq] at he
      exact ⟨_, he.right.symm⟩

end Location

inductive Node where
  | dir
  | file (content : List UInt8)
  | link (target : List Char)
  deriving DecidableEq

namespace Node

def isLink : Node → Bool
  | link _ => true
  | _ => false

end Node

@[ext]
structure FileSystem where
  node : Location → Option Node
  root : node [] = some .dir
  tree : ∀ {n l}, node (n :: l) ≠ none → node l = some .dir

def FileSystem.empty : FileSystem where
  node l := if l = [] then some .dir else none
  root := rfl
  tree := by simp

inductive Errno where
  | noent
  | notdir
  | isdir
  | exist
  | loop
  | nametoolong
  | acces
  | xdev
  | io
  deriving DecidableEq

inductive Entry where
  | existing (l : Location)
  | missing (n : Name) (l : Location)
  deriving DecidableEq

namespace Entry

def location : Entry → Location
  | existing l => l
  | missing n l => n :: l

def existingLocation : Entry → Except Errno Location
  | existing l => .ok l
  | missing _ _ => .error .noent

end Entry

def start (path : List Char) (cwd : Location) : Location :=
  if path.head? = some '/' then [] else cwd

namespace FileSystem

variable (fs : FileSystem)

def walkWith (follow : Location → List Component → Except Errno Entry) :
    Location → List Component → Except Errno Entry
  | l, [] => .ok (.existing l)
  | l, .here :: cs => walkWith follow l cs
  | l, .up :: cs => walkWith follow l.tail cs
  | l, .down n :: cs =>
    match fs.node (n :: l) with
    | none => if cs.isEmpty then .ok (.missing n l) else .error .noent
    | some .dir => walkWith follow (n :: l) cs
    | some (.file _) => if cs.isEmpty then .ok (.existing (n :: l)) else .error .notdir
    | some (.link t) => follow (start t l) (components t ++ cs)

-- Resolves components and follows at most the given number of links.
def walk : Nat → Location → List Component → Except Errno Entry
  | 0 => fs.walkWith fun _ _ => .error .loop
  | k + 1 => fs.walkWith (walk k)

-- Where a path leads once all directories on the way that are missing have been made.
def landingWith (follow : Location → List Component → Option Location) :
    Location → List Component → Option Location
  | l, [] => some l
  | l, .here :: cs => landingWith follow l cs
  | l, .up :: cs => landingWith follow l.tail cs
  | l, .down n :: cs =>
    match fs.node (n :: l) with
    | none => landingWith follow (n :: l) cs
    | some .dir => landingWith follow (n :: l) cs
    | some (.file _) => if cs.isEmpty then some (n :: l) else none
    | some (.link t) => follow (start t l) (components t ++ cs)

def landing : Nat → Location → List Component → Option Location
  | 0 => fs.landingWith fun _ _ => none
  | k + 1 => fs.landingWith (landing k)

def maxSymlinks : Nat :=
  40

def resolve (cwd : Location) (path : List Char) : Except Errno Entry :=
  if path = [] then .error .noent
  else if fits path then fs.walk maxSymlinks (start path cwd) (components path)
  else .error .nametoolong

def resolveEntry (cwd : Location) (path : List Char) : Except Errno Entry :=
  if path = [] then .error .noent
  else if fits path then
    match (components path).getLast? with
    | some (.down n) => do
      let e ← fs.walk maxSymlinks (start path cwd) (components path).dropLast
      let l ← e.existingLocation
      if fs.node l ≠ some .dir then .error .notdir
      else if fs.node (n :: l) = none then .ok (.missing n l)
      else .ok (.existing (n :: l))
    | _ => do
      let e ← fs.walk maxSymlinks (start path cwd) (components path)
      return .existing (← e.existingLocation)
  else .error .nametoolong

def realLocation (cwd : Location) (path : List Char) : Except Errno Location := do
  let e ← fs.resolve cwd path
  e.existingLocation

def realpath (cwd : Location) (path : List Char) : Except Errno (List Char) := do
  let l ← fs.realLocation cwd path
  if fits l.path then .ok l.path else .error .nametoolong

def stat (cwd : Location) (path : List Char) : Option Node :=
  match fs.realLocation cwd path with
  | .ok l => fs.node l
  | .error _ => none

def put (n : Name) (l : Location) (nd : Node) : Option FileSystem :=
  if h : fs.node l = some .dir ∧ fs.node (n :: l) ≠ some .dir then
    some {
      node := fun k => if k = n :: l then some nd else fs.node k
      root := by simp [fs.root]
      tree := by
        intro m k hk
        by_cases hm : m :: k = n :: l
        case pos =>
          rw [(List.cons.inj hm).right, if_neg (by simp)]
          exact h.left
        case neg =>
          rw [if_neg hm] at hk
          have ht := fs.tree hk
          rwa [if_neg fun he : k = n :: l => h.right (he ▸ ht)]
    }
  else none

def mkdir (cwd : Location) (path : List Char) : Except Errno FileSystem := do
  match ← fs.resolveEntry cwd (trimSlashes path) with
  | .existing _ => .error .exist
  | .missing n l =>
    match fs.put n l .dir with
    | some fs => .ok fs
    | none => .error .noent

-- Opens a file with mode `wb`: a new file is created and an old one is emptied.
def openWrite (cwd : Location) (path : List Char) : Except Errno (Location × FileSystem) := do
  match (← fs.resolve cwd path).location with
  | [] => .error .isdir
  | n :: l =>
    match fs.put n l (.file []) with
    | some fs => .ok (n :: l, fs)
    | none => .error .isdir

def write (l : Location) (content : List UInt8) : FileSystem :=
  match l with
  | [] => fs
  | n :: l => (fs.put n l (.file content)).getD fs

def read (l : Location) : List UInt8 :=
  match fs.node l with
  | some (.file content) => content
  | _ => []

variable {fs fs' : FileSystem}
variable {follow : Location → List Component → Except Errno Entry} {l : Location}
variable {cs : List Component} {e : Entry} {k : Nat}

theorem tail_eq_dir (h : fs.node l = some .dir) : fs.node l.tail = some .dir := by
  cases l
  case nil => exact h
  case cons n l => exact fs.tree (n := n) (by simp [h])

inductive Resolved (fs : FileSystem) : Entry → Prop
  | dir {l : Location} : fs.node l = some .dir → Resolved fs (.existing l)
  | file {l : Location} {c : List UInt8} : fs.node l = some (.file c) → Resolved fs (.existing l)
  | missing {n : Name} {l : Location} :
    fs.node (n :: l) = none → fs.node l = some .dir → Resolved fs (.missing n l)

theorem Resolved.walkWith
    (hf : ∀ {l cs e}, fs.node l = some .dir → follow l cs = .ok e → Resolved fs e)
    (hl : fs.node l = some .dir) (h : fs.walkWith follow l cs = .ok e) : Resolved fs e := by
  induction cs generalizing l
  case nil =>
    cases h
    exact .dir hl
  case cons c cs hi =>
    cases c
    case here => exact hi hl h
    case up => exact hi (tail_eq_dir hl) h
    case down n =>
      rw [FileSystem.walkWith] at h
      split at h
      case h_1 hn =>
        split at h <;> cases h
        exact .missing hn hl
      case h_2 hn => exact hi hn h
      case h_3 hn =>
        split at h <;> cases h
        exact .file hn
      case h_4 t _ =>
        refine hf ?_ h
        unfold start
        split
        case isTrue => exact fs.root
        case isFalse => exact hl

theorem Resolved.walk
    (hl : fs.node l = some .dir) (h : fs.walk k l cs = .ok e) : Resolved fs e := by
  induction k generalizing l cs e
  case zero =>
    refine .walkWith (fun _ hf => ?_) hl h
    contradiction
  case succ k hi => exact .walkWith hi hl h

theorem walk_eq_walkWith (fs : FileSystem) (k : Nat) : ∃ follow, fs.walk k = fs.walkWith follow := by
  cases k <;> exact ⟨_, rfl⟩

theorem walkWith_heres {cs ds : List Component} (h : ∀ c ∈ cs, c = .here) :
    fs.walkWith follow l (cs ++ ds) = fs.walkWith follow l ds := by
  induction cs
  case nil => rfl
  case cons c cs hi =>
    have ⟨hc, hcs⟩ := List.forall_mem_cons.mp h
    rw [hc, List.cons_append, walkWith, hi hcs]

theorem walkWith_descend (h : fs.node l = some .dir) :
    fs.walkWith follow [] (l.reverse.map .down ++ cs) = fs.walkWith follow l cs := by
  induction l generalizing cs
  case nil => rfl
  case cons n l hi =>
    rw [List.reverse_cons, List.map_append, List.append_assoc, hi (tail_eq_dir h)]
    simp [walkWith, h]

theorem walk_path (h : fs.node l = some .dir) :
    fs.walk k [] (components l.path ++ cs) = fs.walk k l cs := by
  have ⟨ds, hd, hc⟩ := l.components_path
  have ⟨_, hw⟩ := fs.walk_eq_walkWith k
  rw [hw, hc, List.append_assoc, walkWith_heres hd, walkWith_descend h]

theorem location_of_walk_child {n : Name}
    (hn : ¬(fs.node (n :: l)).any Node.isLink) (h : fs.walk k l [.down n] = .ok e) :
    e.location = n :: l := by
  have ⟨_, hw⟩ := fs.walk_eq_walkWith k
  rw [hw, walkWith] at h
  split at h
  case h_4 hl => exact absurd (by simp [hl, Node.isLink]) hn
  all_goals
    cases h
    rfl

section

variable {cwd l w : Location} {n : Name} {path : List Char}

theorem start_path_append (s : List Char) : start (l.path ++ s) cwd = [] := by
  have ⟨t, ht⟩ := l.path_eq_cons
  simp [start, ht]

theorem resolve_child (h : fs.node l = some .dir) (hf : fits (l.path ++ '/' :: n.text)) :
    fs.resolve cwd (l.path ++ '/' :: n.text) = fs.walk maxSymlinks l [.down n] := by
  rw [resolve, if_neg (by simp), if_pos hf, start_path_append, components_child, walk_path h]

theorem walk_components_path {k : Nat} (h : Resolved fs (.existing l)) :
    fs.walk k [] (components l.path) = .ok (.existing l) := by
  have ⟨_, hw⟩ := fs.walk_eq_walkWith k
  cases h
  case dir h =>
    rw [← List.append_nil (components _), walk_path h, hw]
    rfl
  case file h =>
    cases l
    case nil => exact nomatch fs.root.symm.trans h
    case cons n l =>
      have ⟨ds, hd, hc⟩ := Location.components_path (n :: l)
      rw [hw, hc, walkWith_heres hd, List.reverse_cons, List.map_append,
        walkWith_descend (fs.tree (n := n) (by simp [h]))]
      simp [walkWith, h]

theorem realLocation_path (h : Resolved fs (.existing l)) (hf : fits l.path) :
    fs.realLocation cwd l.path = .ok l := by
  have ⟨s, hs⟩ := l.path_eq_cons
  have hp : start l.path cwd = [] := by simp [start, hs]
  rw [realLocation, resolve, if_neg (by simp [hs]), if_pos hf, hp, walk_components_path h]
  rfl

theorem realpath_eq_ok {path p : List Char} (h : fs.realpath cwd path = .ok p) :
    ∃ l, fs.realLocation cwd path = .ok l ∧ p = l.path ∧ fits l.path := by
  unfold realpath at h
  cases hl : fs.realLocation cwd path
  case error => simp [hl, bind, Except.bind] at h
  case ok l =>
    simp only [hl, bind, Except.bind] at h
    split at h <;> cases h
    case isTrue hf => exact ⟨l, rfl, rfl, hf⟩

theorem resolved_of_realLocation (hc : fs.node (start path cwd) = some .dir)
    (h : fs.realLocation cwd path = .ok l) : Resolved fs (.existing l) := by
  unfold realLocation resolve at h
  repeat' split at h
  any_goals contradiction
  cases hw : fs.walk maxSymlinks (start path cwd) (components path)
  case error => simp [hw, bind, Except.bind] at h
  case ok e =>
    have hr := Resolved.walk hc hw
    rw [hw] at h
    cases e
    case existing => cases h; exact hr
    case missing => contradiction

theorem node_eq_none_of_resolveEntry
    (h : fs.resolveEntry cwd path = .ok (.missing n l)) : fs.node (n :: l) = none := by
  unfold resolveEntry at h
  split at h
  case isTrue => contradiction
  split at h
  case isFalse => contradiction
  split at h
  case h_1 =>
    simp only [bind, Except.bind] at h
    repeat' split at h
    all_goals cases h
    assumption
  simp only [bind, Except.bind, pure, Except.pure] at h
  repeat' split at h
  all_goals cases h

theorem node_put {nd : Node} (h : fs.put n l nd = some fs') (k : Location) :
    fs'.node k = if k = n :: l then some nd else fs.node k := by
  unfold put at h
  split at h <;> cases h
  rfl

theorem node_write_of_ne (h : l ≠ w) (content : List UInt8) :
    (fs.write w content).node l = fs.node l := by
  unfold write
  split
  case h_1 => rfl
  case h_2 n k =>
    cases hp : fs.put n k (.file content)
    case none => rfl
    case some => simp [node_put hp, h]

theorem openWrite_eq_ok (h : fs.openWrite cwd path = .ok (w, fs')) :
    ∃ e, fs.resolve cwd path = .ok e ∧ w = e.location ∧
      ∀ k ≠ w, fs'.node k = fs.node k := by
  unfold openWrite at h
  cases he : fs.resolve cwd path
  case error => simp [he, bind, Except.bind] at h
  case ok e =>
    simp only [he, bind, Except.bind] at h
    split at h
    case h_1 => contradiction
    case h_2 n l hl =>
      split at h <;> cases h
      case h_1 hp => exact ⟨e, rfl, hl.symm, fun k hk => by rw [node_put hp, if_neg hk]⟩

end

def Prepares (fs fs' : FileSystem) : Prop :=
  ∀ l, fs'.node l = fs.node l ∨ fs.node l = none ∧ fs'.node l = some .dir

namespace Prepares

theorem refl (fs : FileSystem) : Prepares fs fs :=
  fun _ => .inl rfl

theorem trans {fs'' : FileSystem} (h : Prepares fs fs') (h' : Prepares fs' fs'') :
    Prepares fs fs'' := by
  intro l
  cases h' l
  case inl h' => exact h' ▸ h l
  case inr h' =>
    cases h l
    case inl h => exact .inr ⟨h ▸ h'.left, h'.right⟩
    case inr h => exact .inr ⟨h.left, h'.right⟩

variable {l : Location} {cs : List Component}

theorem eq_of_ne_none (h : Prepares fs fs') (hn : fs.node l ≠ none) : fs'.node l = fs.node l :=
  h l |>.resolve_right fun hl => hn hl.left

theorem not_isLink (h : Prepares fs fs')
    (hn : ¬(fs.node l).any Node.isLink) : ¬(fs'.node l).any Node.isLink := by
  cases h l
  case inl h => rwa [h]
  case inr h => simp [h.right, Node.isLink]

theorem landingWith {follow : Location → List Component → Except Errno Entry}
    {follow' : Location → List Component → Option Location} (hp : Prepares fs fs')
    (hf : ∀ {l cs e}, follow l cs = .ok e → follow' l cs = some e.location)
    {e : Entry} (h : fs'.walkWith follow l cs = .ok e) :
    fs.landingWith follow' l cs = some e.location := by
  induction cs generalizing l
  case nil =>
    cases h
    rfl
  case cons c cs hi =>
    cases c
    case here => exact hi h
    case up => exact hi h
    case down n =>
      rw [walkWith] at h
      rw [FileSystem.landingWith]
      cases hp (n :: l)
      case inl hn =>
        rw [← hn]
        split at h
        case h_1 hn =>
          split at h <;> cases h
          case isTrue hc => rw [List.isEmpty_iff.mp hc]; rfl
        case h_2 => exact hi h
        case h_3 =>
          split at h <;> cases h
          case isTrue hc => exact if_pos hc
        case h_4 => exact hf h
      case inr hn =>
        rw [hn.right] at h
        rw [hn.left]
        exact hi h

theorem landing {k : Nat} {e : Entry} (hp : Prepares fs fs')
    (h : fs'.walk k l cs = .ok e) : fs.landing k l cs = some e.location := by
  induction k generalizing l cs e
  case zero =>
    refine landingWith hp (fun hf => ?_) h
    contradiction
  case succ k hi => exact landingWith hp hi h

theorem mkdir {cwd : Location} {path : List Char} (h : fs.mkdir cwd path = .ok fs') :
    Prepares fs fs' := by
  unfold FileSystem.mkdir at h
  cases he : fs.resolveEntry cwd (trimSlashes path)
  case error => simp [he, bind, Except.bind] at h
  case ok e =>
    simp only [he, bind, Except.bind] at h
    cases e
    case existing => contradiction
    case missing n l =>
      dsimp only at h
      split at h <;> cases h
      case h_1 hp =>
        intro k
        rw [node_put hp]
        split
        case isTrue hk => exact .inr ⟨hk ▸ node_eq_none_of_resolveEntry he, rfl⟩
        case isFalse => exact .inl rfl

end Prepares

end FileSystem

end Posix
