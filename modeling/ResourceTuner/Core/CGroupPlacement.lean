import ResourceTuner.Core.ResourceHooks
import ResourceTuner.Lib.Machine
import ResourceTuner.Lib.Numerals

/-!
# Moving processes between cgroups

`moveProcessToCGroup` and `removeProcessFromCGroup` of `ResourceHooks.cpp`, the applier and the tear
of the resource that places processes.  The applier saves the cgroup a process is in under the name
of its `/proc` file, in the same store that holds the values of resource nodes; the tear moves the
process to what is saved there, and to the root when nothing is.

* **`Kernel`** — which files move a process, and where to;
* **`moveProcessToCGroup` / `removeProcessFromCGroup`** — the callbacks;
* **`machine`** — the sequences of their calls, watched for one process;
* **`kept_of_run`** — the process returns, as long as it is placed once at a time.
-/

namespace ResourceTuner

def mBaseCGroupPath : String := "/sys/fs/cgroup/"

/-! ## The kernel -/

/-- The cgroups of a kernel, by their path from the root, which is the empty one, and the files that
open for writing.  `procs` is the cgroup whose `cgroup.procs` a file is: writing a process there
moves it.  The two laws say where these files are. -/
structure Kernel where
  IsCGroup : String → Prop
  root : IsCGroup ""
  procs : String → Option { cg : String // IsCGroup cg }
  opens : String → Bool
  procs_root : procs (mBaseCGroupPath ++ "cgroup.procs") = some ⟨"", root⟩
  procs_child : ∀ cg : { cg : String // IsCGroup cg }, cg.val ≠ "" →
    procs (mBaseCGroupPath ++ cg.val ++ "/cgroup.procs") = some cg

/-- A cgroup of the kernel. -/
abbrev Kernel.CGroup (k : Kernel) : Type := { cg : String // k.IsCGroup cg }

/-- The cgroup of every process, and the default values the server has stored. -/
structure Placement (k : Kernel) where
  cgroup : Int → k.CGroup
  mDefaultValueStore : UnorderedMap String String

/-! ## The callbacks -/

/-- `"/proc/" + std::to_string(pid) + "/cgroup"`. -/
def cgroupFile (pid : Int) : String := "/proc/" ++ toString pid ++ "/cgroup"

/-- The processes a resource names: all its values but the first. -/
def processes (resource : Resource) : List Int :=
  (List.range (resource.getValuesCount.toNat - 1)).map fun i => resource.getValueAt (i + 1)

namespace Placement

variable {k : Kernel}

/-- The first line of `/proc/<pid>/cgroup`. -/
def readCGroup (s : Placement k) (pid : Int) : String := "0::/" ++ (s.cgroup pid).val

/-- Write the process to a file, `none` when it does not open. -/
def writePid (s : Placement k) (path : String) (pid : Int) : Option (Placement k) :=
  match k.procs path with
  | some cg => some { s with cgroup := Function.update s.cgroup pid cg }
  | none => if k.opens path then some s else none

/-- Save the cgroup of a process, unless the line is too short to hold one. -/
def save (s : Placement k) (pid : Int) : Placement k :=
  let currentCGroup := s.readCGroup pid
  if currentCGroup.length > 4 then
    { s with mDefaultValueStore :=
        s.mDefaultValueStore.insert (cgroupFile pid) (String.ofList (currentCGroup.toList.drop 4)) }
  else s

/-- The loop of `moveProcessToCGroup`; a file that does not open ends it. -/
def moveProcesses (pathBuffer : String) (s : Placement k) : List Int → Placement k
  | [] => s
  | pid :: rest =>
    match (s.save pid).writePid pathBuffer pid with
    | none => s.save pid
    | some s => moveProcesses pathBuffer s rest

/-- The procs file a resource places its processes with, if the cgroup it names is configured. -/
def procsFile (env : Env) (resource : Resource) : Option String :=
  match env.targetRegistry.getCGroupConfig (resource.getValueAt 0) with
  | none => none
  | some cGroupConfig =>
    if cGroupConfig.mCgroupName.length = 0 then none
    else some (getCGroupTypeResourceNodePath env resource cGroupConfig.mCgroupName)

def moveProcessToCGroup (env : Env) (s : Placement k) (resource : Resource) : Placement k :=
  if resource.getValuesCount < 2 then s
  else
    match procsFile env resource with
    | none => s
    | some pathBuffer => moveProcesses pathBuffer s (processes resource)

/-- The file that moves a process back, read from the store; the entry is deleted. -/
def takeSaved (s : Placement k) (pid : Int) : String × Placement k :=
  let cGroupPath := (s.mDefaultValueStore.lookup (cgroupFile pid)).getD ""
  (if cGroupPath.length = 0 then mBaseCGroupPath ++ "cgroup.procs"
    else mBaseCGroupPath ++ cGroupPath ++ "/cgroup.procs",
    { s with mDefaultValueStore := s.mDefaultValueStore.erase (cgroupFile pid) })

/-- The loop of `removeProcessFromCGroup`. -/
def returnProcesses (s : Placement k) : List Int → Placement k
  | [] => s
  | pid :: rest =>
    match (s.takeSaved pid).2.writePid (s.takeSaved pid).1 pid with
    | none => (s.takeSaved pid).2
    | some s => returnProcesses s rest

def removeProcessFromCGroup (s : Placement k) (resource : Resource) : Placement k :=
  if resource.getValuesCount < 2 then s else returnProcesses s (processes resource)

/-! ## One process -/

/-- What is saved for a process. -/
def saved (s : Placement k) (pid : Int) : Option String :=
  s.mDefaultValueStore.lookup (cgroupFile pid)

section OneProcess

variable {s s' : Placement k} {pid p : Int} {path : String}

/-- Two processes have two files. -/
theorem cgroupFile_injective {p q : Int} (h : cgroupFile p = cgroupFile q) : p = q := by
  rw [cgroupFile, cgroupFile, String.append_left_inj, String.append_right_inj] at h
  exact Numerals.repr_injective h

theorem save_cgroup (s : Placement k) (pid : Int) : (s.save pid).cgroup = s.cgroup := by
  unfold save
  simp only
  split <;> rfl

theorem saved_save_of_ne (h : p ≠ pid) : (s.save pid).saved p = s.saved p := by
  have hfile : cgroupFile p ≠ cgroupFile pid := fun heq => h (cgroupFile_injective heq)
  unfold save
  simp only
  split
  · exact AList.lookup_insert_ne hfile
  · rfl

/-- The root is not saved: its line has nothing after the fourth character. -/
theorem saved_save_self (s : Placement k) (pid : Int) :
    (s.save pid).saved pid =
      if (s.cgroup pid).val = "" then s.saved pid else some (s.cgroup pid).val := by
  have hlength : (s.readCGroup pid).length = 4 + (s.cgroup pid).val.length := by
    rw [readCGroup, String.length_append]
    rfl
  have hrest : String.ofList ((s.readCGroup pid).toList.drop 4) = (s.cgroup pid).val := by
    rw [readCGroup, String.toList_append]
    exact String.ofList_toList
  unfold save
  simp only [hlength]
  by_cases hroot : (s.cgroup pid).val = ""
  · rw [if_pos hroot, if_neg (by simp [hroot])]
  · have hpos : (s.cgroup pid).val.length ≠ 0 := fun h0 => hroot (String.length_eq_zero_iff.mp h0)
    rw [if_neg hroot, if_pos (by omega)]
    simp only [saved, hrest]
    exact AList.lookup_insert _

/-- A write to a `cgroup.procs` file saves nothing, and moves no process but the one it names. -/
theorem writePid_cases (h : s.writePid path pid = some s') :
    s'.saved p = s.saved p ∧ (p ≠ pid → s'.cgroup p = s.cgroup p) := by
  unfold writePid at h
  split at h
  · cases h
    exact ⟨rfl, fun hne => Function.update_of_ne hne _ _⟩
  · split at h
    · cases h
      exact ⟨rfl, fun _ => rfl⟩
    · cases h

/-- A file that opens. -/
def Opens (k : Kernel) (path : String) : Prop := (k.procs path).isSome ∨ k.opens path = true

instance (k : Kernel) (path : String) : Decidable (Opens k path) :=
  inferInstanceAs (Decidable (_ ∨ _))

/-- The write succeeds if the file opens. -/
theorem writePid_isSome (s : Placement k) (h : Opens k path) (pid : Int) :
    ∃ s', s.writePid path pid = some s' := by
  unfold writePid
  cases hprocs : k.procs path with
  | some cg => exact ⟨_, rfl⟩
  | none =>
    have hopens : k.opens path = true := by simpa [Opens, hprocs] using h
    exact ⟨s, by simp [hopens]⟩

end OneProcess

/-! ## A call of the applier -/

section Apply

variable {path : String} {p : Int} {pids : List Int}

/-- A process that the call does not name is left alone. -/
theorem moveProcesses_of_notMem (s : Placement k) (h : p ∉ pids) :
    (moveProcesses path s pids).saved p = s.saved p ∧
      (moveProcesses path s pids).cgroup p = s.cgroup p := by
  induction pids generalizing s with
  | nil => exact ⟨rfl, rfl⟩
  | cons pid rest ih =>
    obtain ⟨hne, hrest⟩ := List.ne_and_not_mem_of_not_mem_cons h
    have hsaved := saved_save_of_ne (s := s) hne
    have hcgroup := congrFun (save_cgroup s pid) p
    rw [moveProcesses]
    cases hwrite : (s.save pid).writePid path pid with
    | none => exact ⟨hsaved, hcgroup⟩
    | some s' =>
      obtain ⟨hs, hc⟩ := writePid_cases (p := p) hwrite
      obtain ⟨hsaved', hcgroup'⟩ := ih s' hrest
      exact ⟨(hsaved'.trans hs).trans hsaved, (hcgroup'.trans (hc hne)).trans hcgroup⟩

/-- A process that the call gets to, and names once, has its cgroup saved. -/
theorem saved_moveProcesses (s : Placement k) (honce : pids.count p = 1)
    (hreach : Opens k path ∨ pids.head? = some p) :
    (moveProcesses path s pids).saved p =
      if (s.cgroup p).val = "" then s.saved p else some (s.cgroup p).val := by
  induction pids generalizing s with
  | nil => simp at honce
  | cons pid rest ih =>
    rw [moveProcesses]
    by_cases hp : pid = p
    · -- the process itself: what follows does not name it again
      subst hp
      have hrest : pid ∉ rest := by
        rw [List.count_cons_self] at honce
        exact List.count_eq_zero.mp (by omega)
      cases hwrite : (s.save pid).writePid path pid with
      | none => exact saved_save_self s pid
      | some s' =>
        have hlater : (moveProcesses path s' rest).saved pid = s'.saved pid :=
          (moveProcesses_of_notMem s' hrest).1
        exact (hlater.trans (writePid_cases hwrite).1).trans (saved_save_self s pid)
    · -- another one: its file opens, or the process would be the first
      have hopens : Opens k path := by
        rcases hreach with hopens | hhead
        · exact hopens
        · exact absurd (Option.some_inj.mp hhead) hp
      obtain ⟨s', hwrite⟩ := writePid_isSome (s.save pid) hopens pid
      obtain ⟨hs, hc⟩ := writePid_cases (p := p) hwrite
      have hcgroup : s'.cgroup p = s.cgroup p :=
        (hc (Ne.symm hp)).trans (congrFun (save_cgroup s pid) p)
      rw [List.count_cons_of_ne hp] at honce
      rw [hwrite]
      simp only
      rw [ih s' honce (.inl hopens), hcgroup, hs, saved_save_of_ne (Ne.symm hp)]

end Apply

/-! ## A call of the tear -/

/-- Everything saved for a process is a cgroup other than the root. -/
def Clean (s : Placement k) : Prop :=
  ∀ pid cg, s.saved pid = some cg → k.IsCGroup cg ∧ cg ≠ ""

section Clean

variable {s s' : Placement k} {path : String} {pid p : Int}

theorem Clean.of_saved (h : s.Clean) (hsame : ∀ pid, s'.saved pid = s.saved pid) : s'.Clean :=
  fun pid cg hcg => h pid cg ((hsame pid).symm.trans hcg)

/-- What is saved is a cgroup, and not the root. -/
theorem Clean.save (h : s.Clean) (pid : Int) : (s.save pid).Clean := by
  intro other cg hcg
  by_cases hpid : other = pid
  · subst hpid
    rw [saved_save_self] at hcg
    split at hcg
    · exact h other cg hcg
    · rename_i hroot
      cases hcg
      exact ⟨(s.cgroup other).property, hroot⟩
  · rw [saved_save_of_ne hpid] at hcg
    exact h other cg hcg

theorem Clean.moveProcesses (h : s.Clean) (pids : List Int) :
    (Placement.moveProcesses path s pids).Clean := by
  induction pids generalizing s with
  | nil => exact h
  | cons pid rest ih =>
    rw [Placement.moveProcesses]
    cases hwrite : (s.save pid).writePid path pid with
    | none => exact h.save pid
    | some s' => exact ih ((h.save pid).of_saved fun p => (writePid_cases hwrite).1)

theorem saved_takeSaved_self (s : Placement k) (pid : Int) : (s.takeSaved pid).2.saved pid = none :=
  AList.lookup_erase _ _

theorem saved_takeSaved_of_ne (s : Placement k) (h : p ≠ pid) :
    (s.takeSaved pid).2.saved p = s.saved p :=
  AList.lookup_erase_ne fun heq => h (cgroupFile_injective heq)

theorem Clean.takeSaved (h : s.Clean) (pid : Int) : (s.takeSaved pid).2.Clean := by
  intro other cg hcg
  by_cases hpid : other = pid
  · subst hpid
    rw [saved_takeSaved_self] at hcg
    cases hcg
  · rw [saved_takeSaved_of_ne s hpid] at hcg
    exact h other cg hcg

/-- The file of the tear is the procs file of what is saved, or of the root. -/
theorem procs_takeSaved (h : s.Clean) (pid : Int) :
    ∃ cg, k.procs (s.takeSaved pid).1 = some cg ∧ cg.val = (s.saved pid).getD "" := by
  unfold takeSaved
  simp only
  cases hsaved : s.mDefaultValueStore.lookup (cgroupFile pid) with
  | none => exact ⟨_, k.procs_root, by rw [saved, hsaved]; rfl⟩
  | some cg =>
    obtain ⟨hcg, hne⟩ := h pid cg hsaved
    have hlength : cg.length ≠ 0 := fun h0 => hne (String.length_eq_zero_iff.mp h0)
    rw [Option.getD_some, if_neg hlength]
    exact ⟨⟨cg, hcg⟩, k.procs_child ⟨cg, hcg⟩ hne, by rw [saved, hsaved]; rfl⟩

/-- So it opens, and the process is moved. -/
theorem writePid_takeSaved (h : s.Clean) (pid : Int) :
    ∃ s', (s.takeSaved pid).2.writePid (s.takeSaved pid).1 pid = some s' ∧
      (s'.cgroup pid).val = (s.saved pid).getD "" := by
  obtain ⟨cg, hprocs, hval⟩ := procs_takeSaved h pid
  refine ⟨_, by rw [writePid, hprocs], ?_⟩
  have hself : Function.update (s.takeSaved pid).2.cgroup pid cg pid = cg :=
    Function.update_self _ _ _
  exact (congrArg Subtype.val hself).trans hval

end Clean

section Tear

variable {p : Int} {pids : List Int}

theorem Clean.returnProcesses {s : Placement k} (h : s.Clean) (pids : List Int) :
    (s.returnProcesses pids).Clean := by
  induction pids generalizing s with
  | nil => exact h
  | cons pid rest ih =>
    obtain ⟨s', hwrite, -⟩ := writePid_takeSaved h pid
    rw [Placement.returnProcesses, hwrite]
    exact ih ((h.takeSaved pid).of_saved fun p => (writePid_cases hwrite).1)

/-- A process that the call does not name is left alone. -/
theorem returnProcesses_of_notMem {s : Placement k} (hclean : s.Clean) (h : p ∉ pids) :
    (s.returnProcesses pids).saved p = s.saved p ∧
      (s.returnProcesses pids).cgroup p = s.cgroup p := by
  induction pids generalizing s with
  | nil => exact ⟨rfl, rfl⟩
  | cons pid rest ih =>
    obtain ⟨hne, hrest⟩ := List.ne_and_not_mem_of_not_mem_cons h
    obtain ⟨s', hwrite, -⟩ := writePid_takeSaved hclean pid
    obtain ⟨hs, hc⟩ := writePid_cases (p := p) hwrite
    have hclean' : s'.Clean := (hclean.takeSaved pid).of_saved fun p => (writePid_cases hwrite).1
    obtain ⟨hsaved, hcgroup⟩ := ih hclean' hrest
    rw [Placement.returnProcesses, hwrite]
    exact ⟨(hsaved.trans hs).trans (saved_takeSaved_of_ne s hne), hcgroup.trans (hc hne)⟩

/-- A process that the call names once goes where its saved cgroup says, and nothing is saved for
it any more. -/
theorem returnProcesses_of_count {s : Placement k} (hclean : s.Clean) (honce : pids.count p = 1) :
    (s.returnProcesses pids).saved p = none ∧
      ((s.returnProcesses pids).cgroup p).val = (s.saved p).getD "" := by
  induction pids generalizing s with
  | nil => simp at honce
  | cons pid rest ih =>
    obtain ⟨s', hwrite, hmoved⟩ := writePid_takeSaved hclean pid
    have hclean' : s'.Clean := (hclean.takeSaved pid).of_saved fun p => (writePid_cases hwrite).1
    rw [Placement.returnProcesses, hwrite]
    simp only
    by_cases hp : pid = p
    · subst hp
      have hrest : pid ∉ rest := by
        rw [List.count_cons_self] at honce
        exact List.count_eq_zero.mp (by omega)
      obtain ⟨hsaved, hcgroup⟩ := returnProcesses_of_notMem hclean' hrest
      refine ⟨(hsaved.trans (writePid_cases hwrite).1).trans (saved_takeSaved_self s pid), ?_⟩
      rw [hcgroup, hmoved]
    · rw [List.count_cons_of_ne hp] at honce
      have hsame : s'.saved p = s.saved p :=
        (writePid_cases hwrite).1.trans (saved_takeSaved_of_ne s (Ne.symm hp))
      rw [← hsame]
      exact ih hclean' honce

end Tear

end Placement

/-! ## Sequences of calls -/

open Placement

inductive PlacementCall where
  | moveProcessToCGroup (resource : Resource)
  | removeProcessFromCGroup (resource : Resource)
  deriving DecidableEq, Repr

/-- The placement, and how many calls of the applier for the watched process are outstanding. -/
structure Watched (k : Kernel) where
  placement : Placement k
  outstanding : Nat

namespace Watched

variable {k : Kernel}

def next (env : Env) (pid : Int) (s : Watched k) : PlacementCall → Watched k
  | .moveProcessToCGroup resource =>
    { placement := s.placement.moveProcessToCGroup env resource
      outstanding := if pid ∈ processes resource then s.outstanding + 1 else s.outstanding }
  | .removeProcessFromCGroup resource =>
    { placement := s.placement.removeProcessFromCGroup resource
      outstanding := if pid ∈ processes resource then s.outstanding - 1 else s.outstanding }

/-- No tear for the watched process comes before its apply. -/
def Enabled (pid : Int) (s : Watched k) : PlacementCall → Prop
  | .moveProcessToCGroup _ => True
  | .removeProcessFromCGroup resource => pid ∈ processes resource → 0 < s.outstanding

instance (pid : Int) (s : Watched k) (call : PlacementCall) : Decidable (Enabled pid s call) :=
  match call with
  | .moveProcessToCGroup _ => .isTrue trivial
  | .removeProcessFromCGroup _ => inferInstanceAs (Decidable (_ → _))

/-- The sequences of calls in which every tear for a process has its apply. -/
def machine (k : Kernel) (env : Env) (pid : Int) : Machine (Watched k) PlacementCall :=
  ⟨Enabled pid, next env pid⟩

instance (env : Env) (pid : Int) (s : Watched k) (call : PlacementCall) :
    Decidable ((machine k env pid).Enabled s call) := inferInstanceAs (Decidable (Enabled pid s call))

/-- The applier gets to the process: the cgroup is configured, and the procs file opens or the
process is the first one that is written to it. -/
def Reaches (k : Kernel) (env : Env) (pid : Int) (resource : Resource) : Prop :=
  ∃ path ∈ procsFile env resource, Opens k path ∨ (processes resource).head? = some pid

instance (env : Env) (pid : Int) (resource : Resource) : Decidable (Reaches k env pid resource) :=
  inferInstanceAs (Decidable (∃ path ∈ procsFile env resource, _))

/-- A call that names the watched process names it once, and the process is placed when no placement
of it is outstanding, by a call that gets to it. -/
def PlacesOnce (env : Env) (pid : Int) (s : Watched k) : PlacementCall → Prop
  | .moveProcessToCGroup resource => pid ∈ processes resource →
    s.outstanding = 0 ∧ (processes resource).count pid = 1 ∧ Reaches k env pid resource
  | .removeProcessFromCGroup resource => pid ∈ processes resource →
    (processes resource).count pid = 1

instance (env : Env) (pid : Int) (s : Watched k) (call : PlacementCall) :
    Decidable (PlacesOnce env pid s call) :=
  match call with
  | .moveProcessToCGroup _ => inferInstanceAs (Decidable (_ → _ ∧ _ ∧ _))
  | .removeProcessFromCGroup _ => inferInstanceAs (Decidable (_ → _))

/-- The process is where it was when nothing is outstanding for it, and until then its cgroup is
kept: under the name of its file, or as the root, which needs no name. -/
structure Kept (pid : Int) (original : k.CGroup) (s : Watched k) : Prop where
  returned : s.outstanding = 0 → s.placement.cgroup pid = original
  saved : 0 < s.outstanding →
    s.placement.saved pid = if original.val = "" then none else some original.val

/-- What holds along a run: besides, at most one placement is outstanding, and nothing is saved when
there is none. -/
structure Good (pid : Int) (original : k.CGroup) (s : Watched k) : Prop extends
    Kept pid original s where
  clean : s.placement.Clean
  once : s.outstanding ≤ 1
  unsaved : s.outstanding = 0 → s.placement.saved pid = none

/-! ### What a call does -/

section Calls

variable {env : Env} {s : Placement k} {resource : Resource} {pid : Int}

/-- A resource with a cgroup and no process moves nobody. -/
theorem processes_of_lt_two (h : resource.getValuesCount < 2) : processes resource = [] := by
  have hzero : resource.getValuesCount.toNat - 1 = 0 := by omega
  rw [processes, hzero]
  rfl

/-- A call of the applier is a walk over the processes it names, or does nothing. -/
theorem moveProcessToCGroup_cases (env : Env) (s : Placement k) (resource : Resource) :
    (procsFile env resource = none ∨ processes resource = []) ∧
        s.moveProcessToCGroup env resource = s ∨
      ∃ path, procsFile env resource = some path ∧
        s.moveProcessToCGroup env resource = moveProcesses path s (processes resource) := by
  unfold moveProcessToCGroup
  by_cases hfew : resource.getValuesCount < 2
  · exact .inl ⟨.inr (processes_of_lt_two hfew), if_pos hfew⟩
  · rw [if_neg hfew]
    cases hfile : procsFile env resource with
    | none => exact .inl ⟨.inl rfl, rfl⟩
    | some path => exact .inr ⟨path, rfl, rfl⟩

/-- The tear returns the processes of its resource one by one. -/
theorem removeProcessFromCGroup_eq (s : Placement k) (resource : Resource) :
    s.removeProcessFromCGroup resource = s.returnProcesses (processes resource) := by
  unfold removeProcessFromCGroup
  by_cases hfew : resource.getValuesCount < 2
  · rw [if_pos hfew, processes_of_lt_two hfew]
    rfl
  · rw [if_neg hfew]

/-- So an applier never saves the root. -/
theorem clean_moveProcessToCGroup (h : s.Clean) : (s.moveProcessToCGroup env resource).Clean := by
  rcases moveProcessToCGroup_cases env s resource with ⟨-, heq⟩ | ⟨path, -, heq⟩
  · rw [heq]
    exact h
  · rw [heq]
    exact h.moveProcesses _

/-- It does not touch a process that it does not name. -/
theorem moveProcessToCGroup_of_notMem (h : pid ∉ processes resource) :
    (s.moveProcessToCGroup env resource).saved pid = s.saved pid ∧
      (s.moveProcessToCGroup env resource).cgroup pid = s.cgroup pid := by
  rcases moveProcessToCGroup_cases env s resource with ⟨-, heq⟩ | ⟨path, -, heq⟩
  · rw [heq]
    exact ⟨rfl, rfl⟩
  · rw [heq]
    exact moveProcesses_of_notMem s h

/-- For one that it names once it saves the cgroup the process was in, unless that is the root. -/
theorem saved_moveProcessToCGroup (honce : (processes resource).count pid = 1)
    (hreach : Reaches k env pid resource) :
    (s.moveProcessToCGroup env resource).saved pid =
      if (s.cgroup pid).val = "" then s.saved pid else some (s.cgroup pid).val := by
  obtain ⟨path, hfile, hreach⟩ := hreach
  rcases moveProcessToCGroup_cases env s resource with ⟨hnone | hnil, -⟩ | ⟨path', hfile', heq⟩
  · rw [hnone] at hfile
    cases hfile
  · rw [hnil] at honce
    simp at honce
  · have hpath : path' = path := Option.some_inj.mp (hfile'.symm.trans hfile)
    rw [heq, hpath]
    exact saved_moveProcesses s honce hreach

end Calls

/-- One call keeps what holds, if it places the process once. -/
theorem Good.next {env : Env} {pid : Int} {original : k.CGroup} {s : Watched k}
    {call : PlacementCall} (h : Good pid original s) (henabled : Enabled pid s call)
    (honce : PlacesOnce env pid s call) : Good pid original (next env pid s call) := by
  cases call with
  | moveProcessToCGroup resource =>
    have hclean : (s.placement.moveProcessToCGroup env resource).Clean :=
      clean_moveProcessToCGroup h.clean
    by_cases hmem : pid ∈ processes resource
    · obtain ⟨hzero, hcount, hreach⟩ := honce hmem
      have hout : (Watched.next env pid s (.moveProcessToCGroup resource)).outstanding = 1 := by
        rw [Watched.next, if_pos hmem, hzero]
      -- what is saved is where the process is, and that is where it was at the start
      have hsaved := saved_moveProcessToCGroup (s := s.placement) hcount hreach
      rw [h.returned hzero, h.unsaved hzero] at hsaved
      exact ⟨⟨by omega, fun _ => hsaved⟩, hclean, by omega, by omega⟩
    · have hout : (Watched.next env pid s (.moveProcessToCGroup resource)).outstanding =
          s.outstanding := by rw [Watched.next, if_neg hmem]
      obtain ⟨hsaved, hcgroup⟩ := @moveProcessToCGroup_of_notMem _ env s.placement _ _ hmem
      refine ⟨⟨fun hzero => ?_, fun hpos => ?_⟩, hclean, by rw [hout]; exact h.once, fun hzero => ?_⟩
      · exact hcgroup.trans (h.returned (hout.symm.trans hzero))
      · exact hsaved.trans (h.saved (by omega))
      · exact hsaved.trans (h.unsaved (hout.symm.trans hzero))
  | removeProcessFromCGroup resource =>
    have heq : (Watched.next env pid s (.removeProcessFromCGroup resource)).placement =
        s.placement.returnProcesses (processes resource) := removeProcessFromCGroup_eq _ _
    have hclean := h.clean.returnProcesses (processes resource)
    by_cases hmem : pid ∈ processes resource
    · have hone : s.outstanding = 1 := by
        have hpos : 0 < s.outstanding := henabled hmem
        have hle := h.once
        omega
      have hout : (Watched.next env pid s (.removeProcessFromCGroup resource)).outstanding = 0 := by
        rw [Watched.next, if_pos hmem, hone]
      obtain ⟨hsaved, hcgroup⟩ := returnProcesses_of_count h.clean (honce hmem)
      have hback : (s.placement.returnProcesses (processes resource)).cgroup pid = original := by
        apply Subtype.ext
        rw [hcgroup, h.saved (by omega)]
        split
        · rename_i hroot
          rw [hroot]
          rfl
        · rfl
      refine ⟨⟨fun _ => ?_, by omega⟩, by rw [heq]; exact hclean, by omega, fun _ => ?_⟩
      · rw [heq]
        exact hback
      · rw [heq]
        exact hsaved
    · have hout : (Watched.next env pid s (.removeProcessFromCGroup resource)).outstanding =
          s.outstanding := by rw [Watched.next, if_neg hmem]
      obtain ⟨hsaved, hcgroup⟩ := returnProcesses_of_notMem h.clean hmem
      refine ⟨⟨fun hzero => ?_, fun hpos => ?_⟩, by rw [heq]; exact hclean,
        by rw [hout]; exact h.once, fun hzero => ?_⟩
      · rw [heq]
        exact hcgroup.trans (h.returned (hout.symm.trans hzero))
      · rw [heq]
        exact hsaved.trans (h.saved (by omega))
      · rw [heq]
        exact hsaved.trans (h.unsaved (hout.symm.trans hzero))

/-- **A process returns to its cgroup**, in every sequence of calls that places it once at a time:
nothing is saved at the start, and each call that names the process names it once and, if it is an
applier, finds no placement outstanding and gets to the process. -/
theorem kept_of_run {env : Env} {pid : Int} {placement : Placement k} {calls : List PlacementCall}
    (hunsaved : ∀ p, placement.saved p = none)
    (hrun : (machine k env pid).Run ⟨placement, 0⟩ calls)
    (honce : (machine k env pid).Steps (PlacesOnce env pid) ⟨placement, 0⟩ calls) :
    Kept pid (placement.cgroup pid) ((machine k env pid).exec ⟨placement, 0⟩ calls) := by
  have hstart : Good pid (placement.cgroup pid) (⟨placement, 0⟩ : Watched k) := by
    refine ⟨⟨fun _ => rfl, fun hpos => absurd hpos (Nat.lt_irrefl 0)⟩, ?_, Nat.zero_le 1,
      fun _ => hunsaved pid⟩
    intro p cg hcg
    rw [hunsaved p] at hcg
    cases hcg
  exact ((hrun.and honce).invariant hstart
    fun _ _ hgood hstep => hgood.next hstep.1 hstep.2).toKept

end Watched

/-! ## Two cgroups -/

namespace Sample

def cgroups : List String := ["", "user", "audio", "video"]

/-- The procs file of a cgroup. -/
def procsOf (cg : String) : String :=
  if cg = "" then mBaseCGroupPath ++ "cgroup.procs" else mBaseCGroupPath ++ cg ++ "/cgroup.procs"

/-- A kernel with a root and three cgroups in it. -/
def kernel : Kernel where
  IsCGroup cg := cg ∈ cgroups
  root := by decide
  procs path := cgroups.attach.find? fun cg => procsOf cg.val = path
  opens _ := false
  procs_root := by decide +kernel
  procs_child := by decide +kernel

/-- The resource that places processes. -/
def placementEnv : Env where
  resourceRegistry := ResourceRegistry.empty.registerResource targetRegistry 8 (fun _ => "0")
    (conf 5 "/sys/fs/cgroup/%s/cgroup.procs" .APPLY_CGROUP .LAZY_APPLY) false
  targetRegistry := targetRegistry.addCGroupMapping ⟨"video", 8⟩
  targetConfigs := ⟨8, 2, MODE_RESUME⟩
  metaConfigs := ⟨60⟩

/-- Process 42 is to go to a cgroup. -/
def placeIn (cgroup : Int) : Resource := .ofValues (code 5) 0 0 [cgroup, 42]

/-- Every process is a user's, and nothing is saved. -/
def placement : Placement kernel := ⟨fun _ => ⟨"user", show "user" ∈ cgroups by decide⟩, ∅⟩

end Sample

open Watched

/-- Two placements of a process, one after the other. -/
theorem kept_sample :
    Kept 42 (Sample.placement.cgroup 42) ((machine Sample.kernel Sample.placementEnv 42).exec
      ⟨Sample.placement, 0⟩
      [.moveProcessToCGroup (Sample.placeIn 7), .removeProcessFromCGroup (Sample.placeIn 7),
        .moveProcessToCGroup (Sample.placeIn 8)]) :=
  kept_of_run (fun _ => rfl) (by decide +kernel) (by decide +kernel)

/-- Two placements of a process, one inside the other: the second saves the cgroup the first had put
the process in, the first tear uses it up, and the second sends the process to the root. -/
theorem nested_placement_not_kept :
    let calls := [PlacementCall.moveProcessToCGroup (Sample.placeIn 7),
      .moveProcessToCGroup (Sample.placeIn 8), .removeProcessFromCGroup (Sample.placeIn 8),
      .removeProcessFromCGroup (Sample.placeIn 7)]
    (machine Sample.kernel Sample.placementEnv 42).Run ⟨Sample.placement, 0⟩ calls ∧
      ¬ Kept 42 (Sample.placement.cgroup 42)
        ((machine Sample.kernel Sample.placementEnv 42).exec ⟨Sample.placement, 0⟩ calls) := by
  refine ⟨by decide +kernel, fun h => ?_⟩
  have hroot := h.returned (by decide +kernel)
  revert hroot
  decide +kernel

end ResourceTuner
