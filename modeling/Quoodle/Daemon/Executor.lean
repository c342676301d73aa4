import Quoodle.Data.FileSystem
import Quoodle.Json.CJson

-- The commands by which the privileged daemon writes files below its allowed root.
namespace Daemon.Executor

open Posix
open Json.CJson (getItem getString)

structure Config where
  allowedRoot : List Char
  artifactDir : List Char
  cwd : Location
  decode : String → Option (List UInt8)

inductive Reply where
  | error (type : String) (code : Nat) (message : String)
  | failure (type : String) (code : Nat) (message : String)
  | success (path : List Char)
  deriving DecidableEq

namespace Reply

def schemaInvalid (message : String) : Reply :=
  error "ERR_SCHEMA_INVALID" 1001 message

def executionFailed (message : String) : Reply :=
  failure "ERR_EXECUTION_FAILED" 2001 message

def isSuccess : Reply → Bool
  | success _ => true
  | _ => false

end Reply

def pathIsWithin (base path : List Char) : Bool :=
  base = path || (base.isPrefixOf path && path[base.length]? = some '/')

def isSafeArtifactId (value : String) : Bool :=
  value ≠ "" && value.toList.all fun c => c.isAlphanum || c = '-' || c = '_' || c = '.'

-- What `snprintf` leaves of a text in a buffer of `PATH_MAX` bytes.
def clip (text : List Char) : List Char :=
  (text.inits.filter fits).getLast?.getD []

section

variable (cfg : Config) (fs : FileSystem)

-- The paths up to each slash behind the first character, and the whole path.
def ancestors (path : List Char) : List (List Char) :=
  ((List.range path.length).filter fun i => 0 < i && path[i]? = some '/').map path.take ++ [path]

def mkdirAll : List (List Char) → FileSystem → FileSystem × Bool
  | [], fs => (fs, true)
  | p :: ps, fs =>
    match fs.mkdir cfg.cwd p with
    | .ok fs => mkdirAll ps fs
    | .error .exist => mkdirAll ps fs
    | .error _ => (fs, false)

def mkdirP (path : List Char) : FileSystem × Bool :=
  if path = [] || !fits path then (fs, false) else mkdirAll cfg (ancestors path) fs

def ensureDir (path : List Char) : FileSystem × Bool :=
  match fs.stat cfg.cwd path with
  | some .dir => (fs, true)
  | some _ => (fs, false)
  | none => mkdirP cfg fs path

inductive ResolveError where
  | invalid
  | notFound
  deriving DecidableEq

def parentAndLeaf (relPath : List Char) : List Char × List Char :=
  match splitLast relPath with
  | none => (['.'], relPath)
  | some ([], leaf) => (['.'], leaf)
  | some (dirs, leaf) => (dirs, leaf)

def resolveTargetUnderAllowedRoot (relPath : List Char) : Except ResolveError (List Char) := do
  if relPath = [] ∨ relPath.head? = some '/' then
    throw .invalid
  let .ok root := fs.realpath cfg.cwd cfg.allowedRoot
    | throw .invalid
  if !fits relPath then
    throw .invalid
  let (parentRel, leaf) := parentAndLeaf relPath
  if leaf = [] ∨ leaf = ['.'] ∨ leaf = ['.', '.'] then
    throw .invalid
  if !fits (root ++ '/' :: parentRel) then
    throw .invalid
  match fs.realpath cfg.cwd (root ++ '/' :: parentRel) with
  | .error .noent => throw .notFound
  | .error _ => throw .invalid
  | .ok parent =>
    if !pathIsWithin root parent then
      throw .invalid
    if !fits (parent ++ '/' :: leaf) then
      throw .invalid
    return parent ++ '/' :: leaf

def relpathFromAllowedRoot (fullPath : List Char) : Option (List Char) :=
  match fs.realpath cfg.cwd cfg.allowedRoot with
  | .error _ => none
  | .ok root =>
    if !pathIsWithin root fullPath then none
    else if root = fullPath then some ['.']
    else some (fullPath.drop (root.length + 1))

def artifactPathForId (artifactId : String) : FileSystem × Option (List Char) :=
  if !isSafeArtifactId artifactId then (fs, none)
  else
    match ensureDir cfg fs cfg.artifactDir with
    | (fs, false) => (fs, none)
    | (fs, true) =>
      let candidate := clip (cfg.artifactDir ++ '/' :: artifactId.toList)
      let binary := clip (cfg.artifactDir ++ '/' :: artifactId.toList ++ ".bin".toList)
      if (fs.stat cfg.cwd candidate).isSome then (fs, some candidate)
      else if (fs.stat cfg.cwd binary).isSome then (fs, some binary)
      else (fs, none)

end

-- The files of an upload for which the operating system does not do what it usually does.
structure Device where
  sourceOpens : Bool
  destOpens : Bool
  -- The numbers of bytes that can be read from the artifact, that `fwrite` accepts, and that are in
  -- the file once it is closed.
  readable : Nat
  accepted : Nat
  flushed : Nat

structure Outcome where
  fs : FileSystem
  written : List Location
  reply : Reply

section

variable {ν : Type} (cfg : Config) (dev : Device) (params : List (String × Json ν))

def writeFile (dest : List Char) (data : FileSystem → List UInt8) (message : String)
    (fs : FileSystem) : Outcome :=
  match dev.destOpens, fs.openWrite cfg.cwd dest with
  | true, .ok (w, fs) =>
    let fs' := fs.write w ((data fs).take dev.flushed)
    if dev.accepted < (data fs).length then ⟨fs', [w], .executionFailed message⟩
    else
      match relpathFromAllowedRoot cfg fs' dest with
      | none => ⟨fs', [w], .executionFailed "relative path failed"⟩
      | some rel => ⟨fs', [w], .success rel⟩
  | _, _ => ⟨fs, [], .executionFailed "open failed"⟩

def storeUpload (dest : List Char) (fs : FileSystem) : Outcome :=
  match getString "content_b64" params with
  | some content =>
    match cfg.decode content with
    | none => ⟨fs, [], .schemaInvalid "invalid base64 content"⟩
    | some decoded => writeFile cfg dev dest (fun _ => decoded) "write failed" fs
  | none =>
    match getString "artifact_id" params with
    | none => ⟨fs, [], .schemaInvalid "content_b64 or artifact_id required"⟩
    | some artifactId =>
      match artifactPathForId cfg fs artifactId with
      | (fs, none) => ⟨fs, [], .executionFailed "artifact not found"⟩
      | (fs, some artifactPath) =>
        match dev.sourceOpens, fs.realLocation cfg.cwd artifactPath with
        | true, .ok source =>
          writeFile cfg dev dest (fun fs => (fs.read source).take dev.readable) "copy failed" fs
        | _, _ => ⟨fs, [], .executionFailed "artifact open failed"⟩

def overwrite : Bool :=
  match getItem "overwrite" params with
  | some (.bool b) => b
  | _ => false

def handleUploadFile (fs : FileSystem) : Outcome :=
  match getString "destination" params with
  | none => ⟨fs, [], .schemaInvalid "missing destination"⟩
  | some destination =>
    match resolveTargetUnderAllowedRoot cfg fs destination.toList with
    | .error .notFound => ⟨fs, [], .executionFailed "destination parent not found"⟩
    | .error .invalid => ⟨fs, [], .schemaInvalid "invalid destination"⟩
    | .ok dest =>
      if (fs.stat cfg.cwd dest).isSome && !overwrite params then
        ⟨fs, [], .schemaInvalid "destination exists"⟩
      else if fs.stat cfg.cwd dest = some .dir then
        ⟨fs, [], .schemaInvalid "destination is directory"⟩
      else
        match splitLast dest with
        | none => ⟨fs, [], .schemaInvalid "invalid destination"⟩
        | some (parent, _) =>
          match ensureDir cfg fs parent with
          | (fs, false) => ⟨fs, [], .executionFailed "unable to prepare destination"⟩
          | (fs, true) => storeUpload cfg dev params dest fs

def openedTree (fs : FileSystem) : FileSystem :=
  if (getString "content_b64" params).isSome then fs else (ensureDir cfg fs cfg.artifactDir).1

end

theorem eq_append_of_pathIsWithin {base path : List Char} (h : pathIsWithin base path) :
    path = base ∨ ∃ t, path = base ++ '/' :: t := by
  rw [pathIsWithin, Bool.or_eq_true, Bool.and_eq_true, decide_eq_true_eq, decide_eq_true_eq,
    List.isPrefixOf_iff_prefix] at h
  cases h
  case inl h => exact .inl h.symm
  case inr h =>
    have ⟨⟨s, hs⟩, hc⟩ := h
    rw [← hs, List.getElem?_append_right (Nat.le_refl _), Nat.sub_self] at hc
    cases s
    case nil => contradiction
    case cons c t =>
      have hc : c = '/' := by simpa using hc
      exact .inr ⟨t, by rw [← hs, hc]⟩

theorem isSuffix_of_pathIsWithin {r l : Location} (h : pathIsWithin r.path l.path) : r <:+ l := by
  cases eq_append_of_pathIsWithin h
  case inl h => exact Location.isSuffix_of_path_eq_append (s := []) (by simp [h]) (.inl rfl)
  case inr h =>
    have ⟨t, ht⟩ := h
    exact Location.isSuffix_of_path_eq_append ht (.inr ⟨t, rfl⟩)

theorem notMem_leaf (relPath : List Char) : '/' ∉ (parentAndLeaf relPath).2 := by
  unfold parentAndLeaf
  split
  case h_1 h =>
    intro hm
    simp [splitLast, hm] at h
  case h_2 h | h_3 h => exact notMem_of_splitLast h

section

variable {cfg : Config} {fs fs' : FileSystem}

structure Target (cfg : Config) (fs : FileSystem) (relPath dest : List Char)
    (root parent : Location) (leaf : Posix.Name) : Prop where
  allowed : fs.realLocation cfg.cwd cfg.allowedRoot = .ok root
  real : fs.realLocation cfg.cwd (root.path ++ '/' :: (parentAndLeaf relPath).1) = .ok parent
  name : leaf.text = (parentAndLeaf relPath).2
  resolved : fs.Resolved (.existing parent)
  below : root <:+ parent
  eq : dest = parent.path ++ '/' :: leaf.text
  fits : fits dest
  fits' : Posix.fits parent.path

theorem target_of_resolveTarget {relPath dest : List Char}
    (h : resolveTargetUnderAllowedRoot cfg fs relPath = .ok dest) :
    ∃ root parent leaf, Target cfg fs relPath dest root parent leaf := by
  unfold resolveTargetUnderAllowedRoot at h
  simp only [bind, Except.bind, pure, Except.pure, throw, throwThe, MonadExceptOf.throw] at h
  repeat' split at h
  all_goals try contradiction
  case _ _ _ hr _ hl _ _ _ hp hw hf =>
    cases h
    have ⟨root, hr, hr', _⟩ := FileSystem.realpath_eq_ok hr
    have ⟨parent, hp, hp', hpf⟩ := FileSystem.realpath_eq_ok hp
    rw [hr', hp'] at hw
    rw [hr'] at hp
    simp only [not_or] at hl
    refine ⟨root, parent, ⟨_, hl.1, hl.2.1, hl.2.2, notMem_leaf relPath⟩, hr, hp, rfl, ?_, ?_, ?_,
      ?_, hpf⟩
    · refine FileSystem.resolved_of_realLocation ?_ hp
      rw [FileSystem.start_path_append]
      exact fs.root
    · exact isSuffix_of_pathIsWithin (by simpa using hw)
    · rw [hp']
    · simpa using hf

theorem prepares_mkdirAll (ps : List (List Char)) (fs : FileSystem) :
    fs.Prepares (mkdirAll cfg ps fs).1 := by
  induction ps generalizing fs
  case nil => exact .refl fs
  case cons p ps hi =>
    rw [mkdirAll]
    split
    case h_1 h => exact (FileSystem.Prepares.mkdir h).trans (hi _)
    case h_2 => exact hi fs
    case h_3 => exact .refl fs

theorem prepares_ensureDir (cfg : Config) (fs : FileSystem) (path : List Char) :
    fs.Prepares (ensureDir cfg fs path).1 := by
  unfold ensureDir mkdirP
  repeat' split
  any_goals exact .refl fs
  exact prepares_mkdirAll _ fs

theorem Target.ensureDir {relPath dest : List Char} {root parent : Location} {leaf : Posix.Name}
    (ht : Target cfg fs relPath dest root parent leaf)
    (h : Executor.ensureDir cfg fs parent.path = (fs', true)) :
    fs' = fs ∧ fs.node parent = some .dir := by
  have hs : fs.stat cfg.cwd parent.path = fs.node parent := by
    rw [FileSystem.stat, FileSystem.realLocation_path ht.resolved ht.fits']
  rw [Executor.ensureDir, hs] at h
  cases ht.resolved
  case dir hd =>
    rw [hd] at h
    cases h
    exact ⟨rfl, hd⟩
  case file hd =>
    rw [hd] at h
    cases h

theorem eq_ensureDir_of_artifactPathForId {artifactId : String} {path : List Char}
    (h : artifactPathForId cfg fs artifactId = (fs', some path)) :
    fs' = (ensureDir cfg fs cfg.artifactDir).1 := by
  unfold artifactPathForId at h
  split at h
  case isTrue => cases h
  split at h
  case h_1 => cases h
  case h_2 he =>
    rw [he]
    dsimp only at h
    repeat' split at h
    all_goals cases h
    all_goals rfl

end

section

variable {ν : Type} {cfg : Config} {dev : Device} {params : List (String × Json ν)}
variable {fs : FileSystem} {dest : List Char} {out : Outcome}

inductive Wrote (cfg : Config) (tree : FileSystem) (dest : List Char) (out : Outcome) : Prop
  | intro {e : Entry} :
    tree.resolve cfg.cwd dest = .ok e → out.written = [e.location] →
    (∀ l ≠ e.location, out.fs.node l = tree.node l) → Wrote cfg tree dest out

namespace Wrote

theorem writeFile {data : FileSystem → List UInt8} {message : String}
    (ho : writeFile cfg dev dest data message fs = out) (h : out.reply.isSuccess) :
    Wrote cfg fs dest out := by
  simp only [Executor.writeFile] at ho
  split at ho
  case h_2 =>
    subst ho
    contradiction
  case h_1 w fs' _ hw =>
    have ⟨e, he, hw, hf⟩ := FileSystem.openWrite_eq_ok hw
    have hf' content : ∀ l ≠ e.location, (fs'.write w content).node l = fs.node l :=
      fun l hl => (FileSystem.node_write_of_ne (hw ▸ hl) content).trans (hf l (hw ▸ hl))
    repeat' split at ho
    all_goals
      subst ho
      try contradiction
    exact ⟨he, by rw [hw], hf' _⟩

theorem storeUpload (ho : storeUpload cfg dev params dest fs = out) (h : out.reply.isSuccess) :
    Wrote cfg (openedTree cfg params fs) dest out := by
  unfold Executor.storeUpload at ho
  unfold openedTree
  split at ho
  case h_1 hc =>
    rw [hc, if_pos Option.isSome_some]
    split at ho
    case h_1 => exact nomatch ho ▸ h
    case h_2 => exact writeFile ho h
  case h_2 hc =>
    rw [hc, if_neg (by simp)]
    split at ho
    case h_1 => exact nomatch ho ▸ h
    split at ho
    case h_1 => exact nomatch ho ▸ h
    case h_2 ha =>
      split at ho
      case h_1 => exact eq_ensureDir_of_artifactPathForId ha ▸ writeFile ho h
      case h_2 => exact nomatch ho ▸ h

end Wrote

theorem prepares_openedTree (cfg : Config) (params : List (String × Json ν)) (fs : FileSystem) :
    fs.Prepares (openedTree cfg params fs) := by
  unfold openedTree
  split
  case isTrue => exact .refl fs
  case isFalse => exact prepares_ensureDir cfg fs _

theorem wrote_of_handleUploadFile (ho : handleUploadFile cfg dev params fs = out)
    (h : out.reply.isSuccess) :
    ∃ destination dest root parent leaf, getString "destination" params = some destination ∧
      Target cfg fs destination.toList dest root parent leaf ∧ fs.node parent = some .dir ∧
      Wrote cfg (openedTree cfg params fs) dest out := by
  simp only [handleUploadFile] at ho
  split at ho
  case h_1 => exact nomatch ho ▸ h
  case h_2 destination hd =>
    split at ho
    case h_1 | h_2 => exact nomatch ho ▸ h
    case h_3 dest hr =>
      have ⟨root, parent, leaf, ht⟩ := target_of_resolveTarget hr
      rw [ht.eq, splitLast_append leaf.valid.2.2.2, ← ht.eq] at ho
      split at ho
      case isTrue => exact nomatch ho ▸ h
      split at ho
      case isTrue => exact nomatch ho ▸ h
      dsimp only at ho
      split at ho
      case h_1 => exact nomatch ho ▸ h
      case h_2 he =>
        have ⟨hf, hp⟩ := ht.ensureDir he
        exact ⟨destination, dest, root, parent, leaf, hd, ht, hp, .storeUpload (hf ▸ ho) h⟩

def Confined (cfg : Config) (fs : FileSystem) (out : Outcome) : Prop :=
  ∀ root, fs.realLocation cfg.cwd cfg.allowedRoot = .ok root →
    ∀ l, l ∈ out.written ∨ out.fs.node l ≠ fs.node l ∧ out.fs.node l ≠ some .dir → root <:+ l

-- If the entry for the destination in its real directory is a link, it leads to a location below the
-- allowed root.
def StaysInside (cfg : Config) (params : List (String × Json ν)) (fs : FileSystem) : Prop :=
  ∀ destination root parent, ∀ leaf : Posix.Name, ∀ l,
    getString "destination" params = some destination →
    fs.realLocation cfg.cwd cfg.allowedRoot = .ok root →
    fs.realLocation cfg.cwd (root.path ++ '/' :: (parentAndLeaf destination.toList).1) =
      .ok parent →
    leaf.text = (parentAndLeaf destination.toList).2 →
    (fs.node (leaf :: parent)).any Node.isLink →
    fs.landing FileSystem.maxSymlinks parent [.down leaf] = some l → root <:+ l

theorem confined_iff_staysInside (h : (handleUploadFile cfg dev params fs).reply.isSuccess) :
    Confined cfg fs (handleUploadFile cfg dev params fs) ↔ StaysInside cfg params fs := by
  have ⟨destination, dest, root, parent, leaf, hd, ht, hp, hw⟩ := wrote_of_handleUploadFile rfl h
  obtain ⟨he, hs, hf⟩ := hw
  have hpr := prepares_openedTree cfg params fs
  have hp' := hpr.eq_of_ne_none (l := parent) (by simp [hp])
  rw [ht.eq, FileSystem.resolve_child (hp'.trans hp) (ht.eq ▸ ht.fits)] at he
  have hl := hpr.landing he
  constructor
  case mp =>
    intro hc destination' root' parent' leaf' l' hd' ha' hr' hf' _ hl'
    cases hd.symm.trans hd'
    cases ht.allowed.symm.trans ha'
    cases ht.real.symm.trans hr'
    cases Posix.Name.ext (ht.name.trans hf'.symm)
    cases hl.symm.trans hl'
    exact hc root ha' _ <| .inl (by simp [hs])
  case mpr e =>
    intro hi root' ha'
    cases ht.allowed.symm.trans ha'
    have hb : root <:+ e.location := by
      by_cases hn : (fs.node (leaf :: parent)).any Node.isLink
      case pos => exact hi destination root parent leaf _ hd ha' ht.real ht.name hn hl
      rw [FileSystem.location_of_walk_child (hpr.not_isLink hn) he]
      exact ht.below.trans (List.suffix_cons ..)
    intro l hl
    by_cases hle : l = e.location
    case pos => exact hle ▸ hb
    refine absurd hl ?_
    rw [hs, hf l hle, List.mem_singleton, not_or, not_and, not_not]
    exact ⟨hle, fun hne => hpr l |>.resolve_left hne |>.right⟩

end

def dataName : Posix.Name :=
  ⟨"data".toList, by decide⟩

def notesName : Posix.Name :=
  ⟨"notes".toList, by decide⟩

def etcName : Posix.Name :=
  ⟨"etc".toList, by decide⟩

def passwdName : Posix.Name :=
  ⟨"passwd".toList, by decide⟩

def sampleTree (notes : Node) : FileSystem :=
  let put fs n l nd := (FileSystem.put fs n l nd).getD fs
  let fs := put .empty etcName [] .dir
  let fs := put fs passwdName [etcName] (.file [])
  let fs := put fs dataName [] .dir
  put fs notesName [dataName] notes

def sampleConfig : Config where
  allowedRoot := "/data".toList
  artifactDir := "/artifacts".toList
  cwd := []
  decode _ := some [1]

def reliable : Device where
  sourceOpens := true
  destOpens := true
  readable := 1
  accepted := 1
  flushed := 1

def uploadNotes : List (String × Json Int) :=
  [("destination", .str "notes"), ("overwrite", .bool true), ("content_b64", .str "AQ==")]

theorem confined_overwritten_notes :
    Confined sampleConfig (sampleTree (.file []))
      (handleUploadFile sampleConfig reliable uploadNotes (sampleTree (.file []))) := by
  refine (confined_iff_staysInside (by decide +kernel)).mpr ?_
  intro destination root parent leaf l hd hr hp hl hn _
  have hd' : getString "destination" uploadNotes = some "notes" := by decide
  have hr' : (sampleTree (.file [])).realLocation [] "/data".toList = .ok [dataName] := by
    decide
  have hp' : (sampleTree (.file [])).realLocation [] "/data/.".toList = .ok [dataName] := by
    decide
  cases hd.symm.trans hd'
  cases hr.symm.trans hr'
  cases hp.symm.trans hp'
  cases Posix.Name.ext (hl.trans (show _ = notesName.text by decide))
  exact absurd hn (by decide)

theorem upload_through_link :
    let fs := sampleTree (.link "/etc/passwd".toList)
    let out := handleUploadFile sampleConfig reliable uploadNotes fs
    out.reply = .success "notes".toList ∧ ¬Confined sampleConfig fs out := by
  refine ⟨by decide +kernel, fun hc => ?_⟩
  have hm := hc [dataName] rfl [passwdName, etcName] (.inl (by decide +kernel))
  exact absurd hm (by decide)

end Daemon.Executor
