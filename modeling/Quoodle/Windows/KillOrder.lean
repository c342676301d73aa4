import Quoodle.Data.PostOrder

-- In which order the agent terminates a process and those that it has started.
namespace Windows.KillOrder

open Relation PostOrder

structure Process where
  pid : UInt32
  ppid : UInt32
  deriving DecidableEq

variable (entries : List Process)

def childrenByParent (ppid : UInt32) : List UInt32 :=
  (entries.filter fun e => 2 ≤ e.pid ∧ e.ppid = ppid).map (·.pid)

-- In the order in which they are taken from the stack again.
def children (pid : UInt32) : List UInt32 :=
  ((childrenByParent entries pid).insertionSort (· ≤ ·)).filter (2 ≤ ·)

def buildProcessTreeKillOrder (snapshot : Option (List Process)) (rootPid : UInt32) :
    Option (List UInt32) :=
  match snapshot with
  | none => some [rootPid]
  | some entries =>
    (run (children entries) (fuel (children entries) (rootPid :: entries.map (·.pid)))
      (start rootPid)).map fun ordered => if ordered = [] then [rootPid] else ordered

structure Killed where
  killed : Nat
  failed : Nat
  failedPids : List UInt32

structure Report where
  status : String
  rootPid : UInt32
  attempted : Nat
  counts : Killed

def Killed.count (kill : UInt32 → Bool) (k : Killed) (pid : UInt32) : Killed :=
  if kill pid then { k with killed := k.killed + 1 }
  else { k with failed := k.failed + 1, failedPids := k.failedPids ++ [pid] }

def killProcessTree (kill : UInt32 → Bool) (snapshot : Option (List Process)) (rootPid : UInt32) :
    Option Report :=
  (buildProcessTreeKillOrder snapshot rootPid).map fun targets =>
    let counts := targets.foldl (Killed.count kill) ⟨0, 0, []⟩
    ⟨if counts.failed = 0 then "ok" else "partial", rootPid, targets.length, counts⟩

def ParentOf (p c : UInt32) : Prop :=
  ⟨c, p⟩ ∈ entries

-- The agent does not know the processes with the lowest numbers as children of others.
def Child (p c : UInt32) : Prop :=
  2 ≤ c ∧ ParentOf entries p c

variable {entries} {p c pid rootPid : UInt32}

theorem mem_children : c ∈ children entries p ↔ Child entries p c := by
  simp only [children, childrenByParent, List.mem_filter, List.mem_insertionSort, List.mem_map,
    decide_eq_true_eq, Child, ParentOf]
  constructor
  · rintro ⟨⟨⟨c, p⟩, ⟨hm, hc, rfl⟩, rfl⟩, _⟩
    exact ⟨hc, hm⟩
  · rintro ⟨hc, hm⟩
    exact ⟨⟨⟨c, p⟩, ⟨hm, hc, rfl⟩, rfl⟩, hc⟩

theorem edge_children : Edge (children entries) = Child entries :=
  funext fun _ => funext fun _ => propext mem_children

theorem exists_order (entries : List Process) (rootPid : UInt32) :
    ∃ order, buildProcessTreeKillOrder (some entries) rootPid = some order ∧
      IsPostOrder (children entries) rootPid order := by
  obtain ⟨order, hr, ho⟩ : ∃ order, run (children entries)
      (fuel (children entries) (rootPid :: entries.map (·.pid))) (start rootPid) = some order ∧
        IsPostOrder (children entries) rootPid order := by
    refine run_start List.mem_cons_self fun p _ c hc => List.mem_cons_of_mem _ ?_
    exact List.mem_map.mpr ⟨_, (mem_children.mp hc).right, rfl⟩
  have hn : order ≠ [] := by
    rintro rfl
    cases ho.last
  exact ⟨order, by simp [buildProcessTreeKillOrder, hr, hn], ho⟩

theorem two_le_of_reachable (h : ReflTransGen (Child entries) rootPid pid) :
    pid = rootPid ∨ 2 ≤ pid := by
  cases h
  case refl => exact .inl rfl
  case tail _ _ hc => exact .inr hc.left

-- The order is found for any snapshot, and if there are no cycles, each process comes after all that
-- have been started by it.
theorem buildProcessTreeKillOrder_eq (entries : List Process) (rootPid : UInt32) :
    ∃ order, buildProcessTreeKillOrder (some entries) rootPid = some order ∧ order.Nodup ∧
      (∀ pid, pid ∈ order ↔
        pid = rootPid ∨ 2 ≤ pid ∧ ReflTransGen (Child entries) rootPid pid) ∧
      order.getLast? = some rootPid ∧
      ((∀ pid, ReflTransGen (Child entries) rootPid pid → ¬TransGen (Child entries) pid pid) →
        ∀ pid ∈ order, ∀ d, TransGen (Child entries) pid d → order.idxOf d < order.idxOf pid) := by
  obtain ⟨order, hb, hn, hm, hl, hd⟩ := exists_order entries rootPid
  rw [Acyclic, edge_children] at hd
  refine ⟨order, hb, hn, fun pid => ?_, hl, hd⟩
  rw [hm, edge_children]
  constructor
  · intro h
    exact (two_le_of_reachable h).imp_right fun hp => ⟨hp, h⟩
  · rintro (rfl | ⟨_, h⟩)
    · exact .refl
    · exact h

-- What has been started by a process with a low number stays, even if that was started by the root.
theorem behind_idle_process_missed :
    ∃ entries rootPid pid, 2 ≤ rootPid ∧ 2 ≤ pid ∧ ReflTransGen (ParentOf entries) rootPid pid ∧
      ∃ order, buildProcessTreeKillOrder (some entries) rootPid = some order ∧ pid ∉ order := by
  refine ⟨[⟨0, 4⟩, ⟨8, 0⟩], 4, 8, by decide, by decide, ?_, [4], by decide, by decide⟩
  have h₀ : ParentOf [⟨0, 4⟩, ⟨8, 0⟩] 4 0 := by simp [ParentOf]
  have h₈ : ParentOf [⟨0, 4⟩, ⟨8, 0⟩] 0 8 := by simp [ParentOf]
  exact .tail (.single h₀) h₈

section Report

variable {kill : UInt32 → Bool} {k : Killed} {targets : List UInt32}

theorem foldl_count :
    targets.foldl (Killed.count kill) k = {
      killed := k.killed + targets.countP kill
      failed := k.failed + targets.countP (!kill ·)
      failedPids := k.failedPids ++ targets.filter (!kill ·) } := by
  induction targets generalizing k
  case nil => simp
  case cons pid targets hi =>
    rw [List.foldl_cons, hi]
    cases hk : kill pid <;> simp [Killed.count, hk] <;> omega

-- Success means that nothing is left of the whole tree.
theorem killProcessTree_eq_ok_iff :
    (killProcessTree kill (some entries) rootPid).map (·.status) = some "ok" ↔
      ∀ pid, ReflTransGen (Child entries) rootPid pid → kill pid := by
  obtain ⟨order, hb, ho⟩ := exists_order entries rootPid
  simp only [killProcessTree, hb, Option.map_some, foldl_count, ← edge_children, ← ho.mem_iff]
  simp [List.countP_eq_zero]

end Report

end Windows.KillOrder
