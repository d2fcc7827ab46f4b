import ResourceTuner.Common.LinkedNodes
import ResourceTuner.Core.CocoTableLinks

/-!
# The table as it is linked

`CocoTable.cpp` over the nodes themselves.  A node hangs in two lists: by its first pair of links in
the list of the request that owns it, by its second in a list of the table.  The calls walk the first
list while they write the second.  `CocoTable.lean` keeps the two apart by construction; here nothing
does, and it is proved that the calls do what that module says.

* **`LinkedTable`**, **`LinkedRequest`** — the table and a request, as records of pointers;
* **`toCocoTable`** — the table these describe;
* **`WellLinked`** — the lists of the table are lists, and no node is in two of them;
* **`toCocoTable_insertInCocoTable`**, **`toCocoTable_removeNode`** — the loop bodies;
* **`insertNodes_spec`**, **`removeRequest_spec`** — the loops over a request's own list.
-/

namespace ResourceTuner

open DLManagerPtr Nodes

/-- The address of a node. -/
abbrev NodePtr := Nat × Nat

/-- The pair of links of a request's own list. -/
def REQUEST_DL_NR : Fin 2 := ⟨0, Nat.zero_lt_two⟩

/-- The pair of links of the lists of the table. -/
def COCO_TABLE_DL_NR : Fin 2 := ⟨1, Nat.one_lt_two⟩

/-- `class CocoTable` with the nodes it points to. -/
structure LinkedTable where
  nodes : Nodes NodePtr (Option Resource)
  mCocoTable : Nat → Nat → DLManagerPtr NodePtr
  mCurrentlyAppliedPriority : Nat → Int
  mCallbacks : List Callback

/-- `class Request`, its resources by the list that points to them. -/
structure LinkedRequest extends Message where
  mTimer : Option Nat
  mResourceList : Option (DLManagerPtr NodePtr)
  deriving DecidableEq

namespace LinkedTable

/-- A node with what it carries. -/
def node (t : LinkedTable) (ptr : NodePtr) : ResIterable := ⟨ptr, (t.nodes ptr).mData⟩

/-- The nodes of a list of the table. -/
def list (t : LinkedTable) (i k : Nat) : List NodePtr := (t.mCocoTable i k).toList t.nodes

/-- The table of `CocoTable.lean`. -/
def toCocoTable (t : LinkedTable) : CocoTable where
  mCocoTable i k := (t.list i k).map t.node
  mCurrentlyAppliedPriority := t.mCurrentlyAppliedPriority
  mCallbacks := t.mCallbacks

/-- The constructor's table over any nodes. -/
def new (nodes : Nodes NodePtr (Option Resource)) : LinkedTable where
  nodes := nodes
  mCocoTable _ _ := DLManagerPtr.new COCO_TABLE_DL_NR
  mCurrentlyAppliedPriority _ := -1
  mCallbacks := []

variable (env : Env)

def call (t : LinkedTable) (callback : Option ResourceLifecycleCallback) (event : Callback) :
    LinkedTable :=
  match callback with
  | none => t
  | some _ => { t with mCallbacks := t.mCallbacks ++ [event] }

def setPriority (t : LinkedTable) (i : Nat) (priority : Int) : LinkedTable :=
  { t with
    mCurrentlyAppliedPriority := Function.update t.mCurrentlyAppliedPriority i priority }

/-- The nodes and one list after an operation on that list. -/
def setDlm (t : LinkedTable) (i k : Nat)
    (edited : Nodes NodePtr (Option Resource) × DLManagerPtr NodePtr) : LinkedTable :=
  { t with
    nodes := edited.1
    mCocoTable := Function.update t.mCocoTable i (Function.update (t.mCocoTable i) k edited.2) }

def gateOpen (t : LinkedTable) (index : Nat) (priority : Int) : Bool :=
  t.mCurrentlyAppliedPriority index ≥ priority || t.mCurrentlyAppliedPriority index == -1

def applyAction (t : LinkedTable) (currNode : NodePtr) (index : Nat) (priority : Int) :
    LinkedTable :=
  match (t.nodes currNode).mData with
  | none => t
  | some resource =>
    if t.gateOpen index priority then
      match env.getResConf resource.mResCode with
      | none => t
      | some resourceConfig =>
        if CocoTable.modeAllows env resourceConfig then
          (t.call resourceConfig.mResourceApplierCallback
            (.applier (t.node currNode))).setPriority index priority
        else t
    else t

def fastPathApply (t : LinkedTable) (rConf : ResConfInfo) (ptr : NodePtr) : LinkedTable :=
  if CocoTable.modeAllows env rConf then
    t.call rConf.mResourceApplierCallback (.applier (t.node ptr))
  else t

def fastPathReset (t : LinkedTable) (rConf : ResConfInfo) (ptr : NodePtr) : LinkedTable :=
  match rConf.mResourceApplierCallback with
  | none => t
  | some _ => t.call rConf.mResourceTearCallback (.tear (t.node ptr))

def removeAction (t : LinkedTable) (index : Nat) (ptr : NodePtr) : LinkedTable :=
  match (t.nodes ptr).mData with
  | none => t
  | some resource =>
    match env.getResConf resource.mResCode with
    | none => t
    | some resConfInfo =>
      (t.call resConfInfo.mResourceTearCallback (.tear (t.node ptr))).setPriority index (-1)

/-- The `switch` of `insertInCocoTable`. -/
def insertByPolicy (t : LinkedTable) (policy : Policy) (newNode : NodePtr)
    (dlm : DLManagerPtr NodePtr) : Nodes NodePtr (Option Resource) × DLManagerPtr NodePtr :=
  match policy with
  | .INSTANT_APPLY => dlm.insertStart t.nodes newNode
  | .HIGHER_BETTER => dlm.insertWithPolicy t.nodes
      (fun a b => CocoTable.comparHBetter (t.node a) (t.node b)) newNode
  | .LOWER_BETTER => dlm.insertWithPolicy t.nodes
      (fun a b => CocoTable.comparLBetter (t.node a) (t.node b)) newNode
  | .LAZY_APPLY => dlm.insert t.nodes newNode
  | .PASS_THROUGH => (t.nodes, dlm)

def insertInCocoTable (t : LinkedTable) (newNode : NodePtr) (priority : Int) :
    Bool × LinkedTable :=
  match (t.nodes newNode).mData with
  | none => (false, t)
  | some resource =>
    match env.getResConf resource.mResCode with
    | none => (false, t)
    | some rConf =>
      if rConf.mPolicy = .PASS_THROUGH then (true, t.fastPathApply env rConf newNode)
      else
        match CocoTable.tableIndex env resource priority with
        | none => (false, t)
        | some (i, k) =>
          let edited := t.insertByPolicy rConf.mPolicy newNode (t.mCocoTable i k)
          let t := t.setDlm i k edited
          if edited.2.isNodeNth t.nodes 0 newNode then
            (true, t.applyAction env newNode i priority)
          else (true, t)

/-- The loop of `insertRequest`. -/
def insertNodes (t : LinkedTable) (priority : Int) (dlm : DLManagerPtr NodePtr) : LinkedTable :=
  dlm.DL_ITERATE LinkedTable.nodes (fun t iter => (t.insertInCocoTable env iter priority).2) t

/-- `insertRequest`. -/
def insertRequest (t : LinkedTable) (req : LinkedRequest) (timerBlock : Option Nat)
    (enqueued : Bool) : Bool × LinkedTable × LinkedRequest :=
  if req.mDuration ≠ -1 ∧ timerBlock = none then (false, t, { req with mTimer := none })
  else
    let req := { req with mTimer := if req.mDuration ≠ -1 then timerBlock else none }
    match req.mResourceList with
    | none => (false, t, req)
    | some dlm =>
      let t := t.insertNodes env req.toMessage.getPriority dlm
      if req.mDuration ≠ -1 ∧ ¬ CocoTable.startTimer req.mDuration enqueued then (false, t, req)
      else (true, t, req)

def rescan (t : LinkedTable) (i reIndexIncrement : Nat) : Option Nat :=
  (List.range TOTAL_PRIORITIES).find? fun prioLevel =>
    (t.mCocoTable i (prioLevel + reIndexIncrement)).mHead.isSome

def afterEmptied (t : LinkedTable) (i : Nat) (base : Int) (ptr : NodePtr) : LinkedTable :=
  if base = -1 then t
  else
    match t.rescan i base.toNat with
    | some prioLevel =>
      match (t.mCocoTable i (prioLevel + base.toNat)).mHead with
      | none => t
      | some head => (t.setPriority i prioLevel).applyAction env head i prioLevel
    | none => t.removeAction env i ptr

/-- The body of the loop of `removeRequest`. -/
def removeNode (t : LinkedTable) (iter : NodePtr) (priority : Int) : LinkedTable :=
  match (t.nodes iter).mData with
  | none => t
  | some resource =>
    match env.getResConf resource.mResCode with
    | none => t
    | some resourceConfig =>
      if resourceConfig.mPolicy = .PASS_THROUGH then t.fastPathReset resourceConfig iter
      else
        match CocoTable.tableIndex env resource priority with
        | none => t
        | some (i, k) =>
          let nodeIsHead := (t.mCocoTable i k).isNodeNth t.nodes 0 iter
          let edited := (t.mCocoTable i k).deleteNode t.nodes iter
          let t := t.setDlm i k edited
          match edited.2.mHead with
          | none =>
            t.afterEmptied env i (CocoTable.reIndexIncrement env resourceConfig resource) iter
          | some head => if nodeIsHead then t.applyAction env head i priority else t

/-- `removeRequest`. -/
def removeRequest (t : LinkedTable) (request : LinkedRequest) : LinkedTable :=
  match request.mResourceList with
  | none => t
  | some dlm =>
    dlm.DL_ITERATE LinkedTable.nodes
      (fun t iter => t.removeNode env iter request.toMessage.getPriority) t

/-! ## Steps that leave the links -/

/-- Nothing but cached priorities and the record of callbacks has changed. -/
def SameLinks (t t' : LinkedTable) : Prop := t'.nodes = t.nodes ∧ t'.mCocoTable = t.mCocoTable

section SameLinks

variable {env : Env} (t : LinkedTable) {t' t'' : LinkedTable} (ptr : NodePtr) (i : Nat) (p : Int)

/-- A call that answers at once leaves everything. -/
theorem SameLinks.refl : SameLinks t t := ⟨rfl, rfl⟩

variable {t} in
theorem SameLinks.trans (h : SameLinks t t') (h' : SameLinks t' t'') : SameLinks t t'' :=
  ⟨h'.1.trans h.1, h'.2.trans h.2⟩

variable {t} in
/-- Such a step leaves the nodes, the lists of the table and so its part of the abstract table. -/
theorem SameLinks.node_eq (h : SameLinks t t') : t'.node = t.node := by
  funext ptr
  unfold node
  rw [h.1]

variable {t} in
theorem SameLinks.list_eq (h : SameLinks t t') : t'.list = t.list := by
  funext i k
  unfold list
  rw [h.1, h.2]

variable {t} in
theorem SameLinks.lists (h : SameLinks t t') :
    t'.toCocoTable.mCocoTable = t.toCocoTable.mCocoTable := by
  unfold toCocoTable
  simp only
  rw [h.node_eq, h.list_eq]

/-- A callback writes to the device only, and is recorded. -/
theorem sameLinks_call (callback : Option ResourceLifecycleCallback) (event : Callback) :
    SameLinks t (t.call callback event) := by
  unfold call
  split <;> exact ⟨rfl, rfl⟩

/-- The record is the one of `CocoTable.lean`. -/
theorem toCocoTable_call (callback : Option ResourceLifecycleCallback) (event : Callback) :
    (t.call callback event).toCocoTable = t.toCocoTable.call callback event := by
  cases callback <;> rfl

/-- So is the cached priority. -/
theorem toCocoTable_setPriority :
    (t.setPriority i p).toCocoTable = t.toCocoTable.setPriority i p := rfl

/-- `applyAction` writes no link. -/
theorem sameLinks_applyAction : SameLinks t (t.applyAction env ptr i p) := by
  unfold applyAction
  split
  · exact .refl t
  split
  · split
    · exact .refl t
    · split
      · exact (t.sameLinks_call _ _).trans ⟨rfl, rfl⟩
      · exact .refl t
  · exact .refl t

/-- It reads the node through its pointer, which is the node that `CocoTable.lean` is handed; the
gate and the mode are tested on the same values. -/
theorem toCocoTable_applyAction :
    (t.applyAction env ptr i p).toCocoTable = t.toCocoTable.applyAction env (t.node ptr) i p := by
  unfold applyAction CocoTable.applyAction
  show _ = match (t.nodes ptr).mData with | none => _ | some resource => _
  cases (t.nodes ptr).mData with
  | none => rfl
  | some resource =>
    simp only
    show (if t.gateOpen i p then _ else t).toCocoTable = if t.gateOpen i p then _ else _
    split
    · cases env.getResConf resource.mResCode with
      | none => rfl
      | some conf =>
        simp only
        split
        · rw [toCocoTable_setPriority, toCocoTable_call]
        · rfl
    · rfl

/-- `removeAction` writes no link either, whether it finds a configuration or not. -/
theorem sameLinks_removeAction : SameLinks t (t.removeAction env i ptr) := by
  unfold removeAction
  split
  · exact .refl t
  split
  · exact .refl t
  · exact (t.sameLinks_call _ _).trans ⟨rfl, rfl⟩

/-- `removeAction` does to the table what `CocoTable.lean` says: the tear, and no priority. -/
theorem toCocoTable_removeAction :
    (t.removeAction env i ptr).toCocoTable = t.toCocoTable.removeAction env i (t.node ptr) := by
  unfold removeAction CocoTable.removeAction
  show _ = match (t.nodes ptr).mData with | none => _ | some resource => _
  cases (t.nodes ptr).mData with
  | none => rfl
  | some resource =>
    simp only
    cases env.getResConf resource.mResCode with
    | none => rfl
    | some conf =>
      simp only
      rw [toCocoTable_setPriority, toCocoTable_call]

/-- The fast path of a resource without lists calls the applier and is done. -/
theorem sameLinks_fastPathApply (conf : ResConfInfo) :
    SameLinks t (t.fastPathApply env conf ptr) := by
  unfold fastPathApply
  split
  · exact t.sameLinks_call _ _
  · exact .refl t

/-- It is the fast path of `CocoTable.lean`. -/
theorem toCocoTable_fastPathApply (conf : ResConfInfo) :
    (t.fastPathApply env conf ptr).toCocoTable =
      t.toCocoTable.fastPathApply env conf (t.node ptr) := by
  unfold fastPathApply CocoTable.fastPathApply
  split
  · exact t.toCocoTable_call _ _
  · rfl

/-- On the way out it calls the tear. -/
theorem sameLinks_fastPathReset (conf : ResConfInfo) :
    SameLinks t (t.fastPathReset conf ptr) := by
  unfold fastPathReset
  split
  · exact .refl t
  · exact t.sameLinks_call _ _

/-- And that is the one of `CocoTable.lean` too. -/
theorem toCocoTable_fastPathReset (conf : ResConfInfo) :
    (t.fastPathReset conf ptr).toCocoTable = t.toCocoTable.fastPathReset conf (t.node ptr) := by
  unfold fastPathReset CocoTable.fastPathReset
  cases conf.mResourceApplierCallback with
  | none => rfl
  | some callback => exact t.toCocoTable_call _ _

/-- Once a list is empty the next priority is looked up and applied; the lists are only read. -/
theorem sameLinks_afterEmptied (base : Int) :
    SameLinks t (t.afterEmptied env i base ptr) := by
  unfold afterEmptied
  split
  · exact .refl t
  split
  · split
    · exact .refl t
    · exact SameLinks.trans ⟨rfl, rfl⟩ (sameLinks_applyAction _ _ _ _)
  · exact t.sameLinks_removeAction _ _

end SameLinks

/-! ## Well-linked tables -/

/-- The lists of the table are lists over the second pair of links, and no node is in two. -/
structure WellLinked (t : LinkedTable) : Prop where
  linker : ∀ i k, (t.mCocoTable i k).mLinkerInUse = COCO_TABLE_DL_NR
  represents : ∀ i k, Represents t.nodes (t.mCocoTable i k) (t.list i k)
  disjoint : ∀ i k i' k' ptr, ptr ∈ t.list i k → ptr ∈ t.list i' k' → i' = i ∧ k' = k

/-- The lists of the constructor are empty. -/
theorem wellLinked_new (nodes : Nodes NodePtr (Option Resource)) : (new nodes).WellLinked where
  linker _ _ := rfl
  represents _ _ := represents_new nodes COCO_TABLE_DL_NR
  disjoint i k i' k' ptr h := by cases h

section WellLinked

variable {env : Env} {t t' : LinkedTable} {ptr ptr' : NodePtr} {i k : Nat} {p : Int}

/-- Two nodes are the same if their addresses are, since a node of the abstract table keeps its
address. -/
theorem node_inj : t.node ptr = t.node ptr' ↔ ptr = ptr' := by
  constructor
  · intro h
    exact congrArg ResIterable.addr h
  · rintro rfl
    rfl

/-- A node is in a list of the abstract table if its pointer is in the one that is linked. -/
theorem node_mem : t.node ptr ∈ t.toCocoTable.mCocoTable i k ↔ ptr ∈ t.list i k := by
  show t.node ptr ∈ (t.list i k).map t.node ↔ _
  rw [List.mem_map]
  constructor
  · rintro ⟨ptr', hmem, heq⟩
    rwa [← node_inj.mp heq]
  · intro hmem
    exact ⟨ptr, hmem, rfl⟩

/-- A step that writes no link keeps the table well linked. -/
theorem WellLinked.of_sameLinks (hwell : t.WellLinked) (h : SameLinks t t') : t'.WellLinked where
  linker := by
    rw [h.2]
    exact hwell.linker
  represents := by
    rw [h.list_eq, h.1, h.2]
    exact hwell.represents
  disjoint := by
    rw [h.list_eq]
    exact hwell.disjoint

/-- The head of a list is its first node. -/
theorem WellLinked.mHead (hwell : t.WellLinked) : (t.mCocoTable i k).mHead = (t.list i k).head? :=
  (hwell.represents i k).head

/-- What an operation on one list does to a well-linked table, when it writes to the second pair of
links only and leaves the nodes of the other lists alone. -/
theorem WellLinked.setDlm (hwell : t.WellLinked) {touched : NodePtr → Prop} {l : List NodePtr}
    {edited : Nodes NodePtr (Option Resource) × DLManagerPtr NodePtr}
    (hedited : Edited COCO_TABLE_DL_NR touched t.nodes edited.1)
    (htouched : ∀ i' k' ptr, touched ptr → ptr ∈ t.list i' k' → i' = i ∧ k' = k)
    (hlinker : edited.2.mLinkerInUse = COCO_TABLE_DL_NR)
    (hl : Represents edited.1 edited.2 l) (hmem : ∀ ptr ∈ l, touched ptr) :
    (t.setDlm i k edited).WellLinked ∧
      (t.setDlm i k edited).toCocoTable = t.toCocoTable.setList i k (l.map t.node) := by
  have hdlm : ∀ i' k', (t.setDlm i k edited).mCocoTable i' k' =
      if i' = i ∧ k' = k then edited.2 else t.mCocoTable i' k' := by
    intro i' k'
    show Function.update t.mCocoTable i (Function.update (t.mCocoTable i) k edited.2) i' k' = _
    by_cases hi : i' = i
    · subst hi
      by_cases hk : k' = k
      · subst hk
        simp
      · simp [hk]
    · simp [hi]
  -- the list itself holds `l`, another one what it held before
  have hrepresents : ∀ i' k', Represents edited.1 ((t.setDlm i k edited).mCocoTable i' k')
      (if i' = i ∧ k' = k then l else t.list i' k') := by
    intro i' k'
    rw [hdlm]
    split
    · exact hl
    · rename_i hother
      refine (hwell.represents i' k').frame hedited (Or.inr fun ptr hptr hmem => ?_)
      exact hother (htouched i' k' ptr hmem hptr)
  have hlist : ∀ i' k', (t.setDlm i k edited).list i' k' =
      if i' = i ∧ k' = k then l else t.list i' k' := fun i' k' => (hrepresents i' k').toList_eq
  have hnode : (t.setDlm i k edited).node = t.node := by
    funext ptr
    unfold node
    rw [show (t.setDlm i k edited).nodes = edited.1 from rfl, hedited.data]
  refine ⟨⟨fun i' k' => ?_, fun i' k' => ?_, fun i₁ k₁ i₂ k₂ ptr h₁ h₂ => ?_⟩, ?_⟩
  · rw [hdlm]
    split
    · exact hlinker
    · exact hwell.linker i' k'
  · rw [hlist]
    exact hrepresents i' k'
  · rw [hlist] at h₁ h₂
    split at h₁ <;> split at h₂
    · rename_i hat₁ hat₂
      omega
    · rename_i hat₁ hother
      exact absurd (htouched i₂ k₂ ptr (hmem ptr h₁) h₂) hother
    · rename_i hother hat₂
      exact absurd (htouched i₁ k₁ ptr (hmem ptr h₂) h₁) hother
    · exact hwell.disjoint i₁ k₁ i₂ k₂ ptr h₁ h₂
  · have hlists : (t.setDlm i k edited).toCocoTable.mCocoTable =
        (t.toCocoTable.setList i k (l.map t.node)).mCocoTable := by
      funext i' k'
      rw [CocoTable.setList_mCocoTable]
      show ((t.setDlm i k edited).list i' k').map (t.setDlm i k edited).node = _
      rw [hlist, hnode]
      split <;> rfl
    exact congrArg (CocoTable.mk · t.mCurrentlyAppliedPriority t.mCallbacks) hlists

end WellLinked

/-! ## The loop bodies -/

section Bodies

variable {env : Env} {t : LinkedTable} {ptr : NodePtr} {i k : Nat} {p : Int}

/-- What the `switch` leaves, whichever policy it is. -/
theorem insertByPolicy_spec {policy : Policy} (hwell : t.WellLinked)
    (hpolicy : policy ≠ .PASS_THROUGH) (hptr : ptr ∉ t.list i k)
    {edited : Nodes NodePtr (Option Resource) × DLManagerPtr NodePtr}
    (hedited : edited = t.insertByPolicy policy ptr (t.mCocoTable i k)) :
    Edited COCO_TABLE_DL_NR (· ∈ ptr :: t.list i k) t.nodes edited.1 ∧
      edited.2.mLinkerInUse = COCO_TABLE_DL_NR ∧
      ∃ l, Represents edited.1 edited.2 l ∧ l.map t.node =
        CocoTable.insertByPolicy policy (t.node ptr) ((t.list i k).map t.node) := by
  subst hedited
  have hl := hwell.represents i k
  rw [← hwell.linker i k]
  cases policy with
  | INSTANT_APPLY =>
    exact ⟨edited_insertStart hl, insertStart_mLinkerInUse _ _ _, _, represents_insertStart hl hptr,
      List.map_cons⟩
  | HIGHER_BETTER =>
    exact ⟨edited_insertWithPolicy hl hptr, insertWithPolicy_mLinkerInUse _ _ _ _, _,
      represents_insertWithPolicy hl hptr, DLManager.insertWithPolicy_map _⟩
  | LOWER_BETTER =>
    exact ⟨edited_insertWithPolicy hl hptr, insertWithPolicy_mLinkerInUse _ _ _ _, _,
      represents_insertWithPolicy hl hptr, DLManager.insertWithPolicy_map _⟩
  | LAZY_APPLY =>
    exact ⟨edited_insert hl, insert_mLinkerInUse _ _ _, _, represents_insert hl hptr,
      List.map_append⟩
  | PASS_THROUGH => exact absurd rfl hpolicy

/-- An operation on the table keeps its links in order, and the links of the requests. -/
structure Kept (t t' : LinkedTable) : Prop where
  well : t'.WellLinked
  edited : Edited COCO_TABLE_DL_NR (fun _ => True) t.nodes t'.nodes

/-- Two steps in a row. -/
theorem Kept.trans {t' t'' : LinkedTable} (h : Kept t t') (h' : Kept t' t'') : Kept t t'' :=
  ⟨h'.well, h.edited.trans h'.edited⟩

/-- The nodes carry what they carried. -/
theorem Kept.node_eq {t' : LinkedTable} (h : Kept t t') : t'.node = t.node := by
  funext ptr
  unfold node
  rw [h.edited.data]

/-- A step that writes no link keeps the links, of the table and of the requests. -/
theorem SameLinks.kept {t' : LinkedTable} (h : SameLinks t t') (hwell : t.WellLinked) :
    Kept t t' := by
  refine ⟨hwell.of_sameLinks h, ?_⟩
  rw [h.1]
  exact .refl

/-- Linking a node that is not linked. -/
theorem toCocoTable_insertInCocoTable (hwell : t.WellLinked) (hfree : ∀ i k, ptr ∉ t.list i k) :
    (t.insertInCocoTable env ptr p).2.toCocoTable =
        (t.toCocoTable.insertInCocoTable env (t.node ptr) p).2 ∧
      Kept t (t.insertInCocoTable env ptr p).2 := by
  have hdata : (t.node ptr).mData = (t.nodes ptr).mData := rfl
  unfold insertInCocoTable CocoTable.insertInCocoTable
  rw [hdata]
  cases (t.nodes ptr).mData with
  | none => exact ⟨rfl, (SameLinks.refl t).kept hwell⟩
  | some resource =>
    simp only
    cases env.getResConf resource.mResCode with
    | none => exact ⟨rfl, (SameLinks.refl t).kept hwell⟩
    | some conf =>
      simp only
      split
      · exact ⟨t.toCocoTable_fastPathApply ptr conf, (t.sameLinks_fastPathApply ptr conf).kept hwell⟩
      rename_i hpolicy
      cases CocoTable.tableIndex env resource p with
      | none => exact ⟨rfl, (SameLinks.refl t).kept hwell⟩
      | some index =>
        obtain ⟨i, k⟩ := index
        simp only
        generalize hedited : t.insertByPolicy conf.mPolicy ptr (t.mCocoTable i k) = edited
        obtain ⟨hedit, hlinker, l, hl, hmap⟩ :=
          insertByPolicy_spec hwell hpolicy (hfree i k) hedited.symm
        have hmem : ∀ ptr' ∈ l, ptr' ∈ ptr :: t.list i k := by
          intro ptr' hptr'
          have himage : t.node ptr' ∈ l.map t.node := List.mem_map_of_mem hptr'
          rw [hmap, CocoTable.mem_insertByPolicy hpolicy] at himage
          rcases himage with heq | hold
          · rw [node_inj.mp heq]
            exact List.mem_cons_self
          · exact List.mem_cons_of_mem _ (node_mem.mp hold)
        have htouched : ∀ i' k' ptr', ptr' ∈ ptr :: t.list i k → ptr' ∈ t.list i' k' →
            i' = i ∧ k' = k := by
          intro i' k' ptr' hptr' hlist
          rcases List.mem_cons.mp hptr' with rfl | hold
          · exact absurd hlist (hfree i' k')
          · exact hwell.disjoint i k i' k' ptr' hold hlist
        obtain ⟨hwell', htable⟩ := hwell.setDlm hedit htouched hlinker hl hmem
        have hkept : Kept t (t.setDlm i k edited) := ⟨hwell', hedit.mono fun _ _ => trivial⟩
        have hlists : t.toCocoTable.mCocoTable i k = (t.list i k).map t.node := rfl
        have hnth : edited.2.isNodeNth (t.setDlm i k edited).nodes 0 ptr =
            DLManager.isNodeNth (l.map t.node) 0 (t.node ptr) := by
          rw [DLManager.isNodeNth_map fun a b => node_inj.mp]
          exact isNodeNth_eq hl 0
        rw [hlists, ← hmap, ← htable]
        rw [hnth]
        split
        · refine ⟨?_, hkept.trans ((sameLinks_applyAction _ _ _ _).kept hwell')⟩
          simp only
          rw [toCocoTable_applyAction, hkept.node_eq]
        · exact ⟨rfl, hkept⟩

/-- The loop over the four lists of a slot stops at the first one that is not empty, in both tables. -/
theorem rescan_eq (hwell : t.WellLinked) (base : Nat) :
    t.rescan i base = t.toCocoTable.rescan i base := by
  unfold rescan CocoTable.rescan
  refine congrArg (List.find? · _) (funext fun prioLevel => ?_)
  show _ = !((t.list i (prioLevel + base)).map t.node).isEmpty
  rw [hwell.mHead]
  cases t.list i (prioLevel + base) <;> rfl

/-- What follows the last node of a list is what `CocoTable.lean` says, the case without an index
included. -/
theorem toCocoTable_afterEmptied (hwell : t.WellLinked) (base : Int) :
    (t.afterEmptied env i base ptr).toCocoTable =
      t.toCocoTable.afterEmptied env i base (t.node ptr) := by
  unfold afterEmptied CocoTable.afterEmptied
  split
  · rfl
  rw [rescan_eq hwell]
  cases t.toCocoTable.rescan i base.toNat with
  | none => exact t.toCocoTable_removeAction ptr i
  | some prioLevel =>
    simp only
    rw [hwell.mHead]
    have hlist : t.toCocoTable.mCocoTable i (prioLevel + base.toNat) =
        (t.list i (prioLevel + base.toNat)).map t.node := rfl
    rw [hlist]
    cases t.list i (prioLevel + base.toNat) with
    | nil => rfl
    | cons head rest => exact toCocoTable_applyAction _ _ _ _

/-- Unlinking a node where it is linked. -/
theorem toCocoTable_removeNode (hwell : t.WellLinked)
    (hlinked : ∀ i k, CocoTable.home env p (t.node ptr) = some (i, k) → ptr ∈ t.list i k) :
    (t.removeNode env ptr p).toCocoTable = t.toCocoTable.removeNode env (t.node ptr) p ∧
      Kept t (t.removeNode env ptr p) := by
  have hdata : (t.node ptr).mData = (t.nodes ptr).mData := rfl
  unfold removeNode CocoTable.removeNode
  unfold CocoTable.home at hlinked
  rw [hdata] at hlinked ⊢
  cases hcarried : (t.nodes ptr).mData with
  | none => exact ⟨rfl, (SameLinks.refl t).kept hwell⟩
  | some resource =>
    simp only [hcarried] at hlinked ⊢
    cases hconf : env.getResConf resource.mResCode with
    | none => exact ⟨rfl, (SameLinks.refl t).kept hwell⟩
    | some conf =>
      simp only [hconf] at hlinked ⊢
      split
      · exact ⟨t.toCocoTable_fastPathReset ptr conf, (t.sameLinks_fastPathReset ptr conf).kept hwell⟩
      rename_i hpolicy
      rw [if_neg hpolicy] at hlinked
      cases hindex : CocoTable.tableIndex env resource p with
      | none => exact ⟨rfl, (SameLinks.refl t).kept hwell⟩
      | some index =>
        obtain ⟨i, k⟩ := index
        have hptr := hlinked i k hindex
        have hrep := hwell.represents i k
        have hl := represents_deleteNode hrep hptr
        have hedit := edited_deleteNode hrep hptr
        have hlinker : ((t.mCocoTable i k).deleteNode t.nodes ptr).2.mLinkerInUse =
            COCO_TABLE_DL_NR := by
          rw [deleteNode_mLinkerInUse]
          exact hwell.linker i k
        have hnth : (t.mCocoTable i k).isNodeNth t.nodes 0 ptr =
            DLManager.isNodeNth ((t.list i k).map t.node) 0 (t.node ptr) := by
          rw [DLManager.isNodeNth_map fun a b => node_inj.mp]
          exact isNodeNth_eq hrep 0
        rw [hwell.linker i k] at hedit
        simp only
        generalize (t.mCocoTable i k).deleteNode t.nodes ptr = edited at hl hedit hlinker ⊢
        have hmem : ∀ ptr' ∈ DLManager.deleteNode (t.list i k) ptr, ptr' ∈ t.list i k :=
          fun ptr' h => List.mem_of_mem_filter h
        obtain ⟨hwell', htable⟩ := hwell.setDlm hedit
          (fun i' k' ptr' h h' => hwell.disjoint i k i' k' ptr' h h') hlinker hl hmem
        have hkept : Kept t (t.setDlm i k edited) := ⟨hwell', hedit.mono fun _ _ => trivial⟩
        have hlists : t.toCocoTable.mCocoTable i k = (t.list i k).map t.node := rfl
        rw [hlists, ← DLManager.deleteNode_map fun a b => node_inj.mp, ← htable, ← hnth, hl.head]
        cases DLManager.deleteNode (t.list i k) ptr with
        | nil =>
          refine ⟨?_, hkept.trans ((sameLinks_afterEmptied _ _ _ _).kept hwell')⟩
          rw [← hkept.node_eq]
          exact toCocoTable_afterEmptied hwell' _
        | cons head rest =>
          simp only [List.head?_cons, List.map_cons]
          split
          · refine ⟨?_, hkept.trans ((sameLinks_applyAction _ _ _ _).kept hwell')⟩
            rw [← hkept.node_eq]
            exact toCocoTable_applyAction _ _ _ _
          · exact ⟨rfl, hkept⟩

end Bodies

/-! ## The loops over a request's own list -/

section Loops

variable {env : Env} {t t' : LinkedTable} {ptr : NodePtr} {i k : Nat} {p : Int}
  {dlm : DLManagerPtr NodePtr} {l : List NodePtr}

/-- The lists of the requests are as they were. -/
theorem Kept.represents (h : Kept t t') (hlinker : dlm.mLinkerInUse = REQUEST_DL_NR)
    (hl : Represents t.nodes dlm l) : Represents t'.nodes dlm l := by
  refine hl.frame h.edited (Or.inl ?_)
  rw [hlinker]
  decide

/-- The loop over the request can go on to the node it would have gone on to. -/
theorem Kept.nexts (h : Kept t t') (hlinker : dlm.mLinkerInUse = REQUEST_DL_NR) :
    t'.nodes.nexts dlm.mLinkerInUse = t.nodes.nexts dlm.mLinkerInUse := by
  funext ptr
  refine h.edited.nexts _ ptr (Or.inl ?_)
  rw [hlinker]
  decide

/-- Half way through the loop of `insertRequest`: the nodes to come are not linked, and linking them
leads to the table it should. -/
structure Inserting (env : Env) (p : Int) (t : LinkedTable) (l rest : List NodePtr)
    (s : LinkedTable) : Prop where
  kept : Kept t s
  nodup : rest.Nodup
  free : ∀ ptr ∈ rest, ∀ i k, ptr ∉ s.list i k
  table : s.toCocoTable.insertNodes env p (rest.map t.node) =
    t.toCocoTable.insertNodes env p (l.map t.node)

/-- One turn of the loop: the body links the next node, and the nodes to come are still free, since
no two of the request are the same. -/
theorem Inserting.step {rest : List NodePtr} {s : LinkedTable}
    (h : Inserting env p t l (ptr :: rest) s) :
    Inserting env p t l rest (s.insertInCocoTable env ptr p).2 ∧
      Kept s (s.insertInCocoTable env ptr p).2 := by
  obtain ⟨hbody, hkept⟩ :=
    @toCocoTable_insertInCocoTable env s ptr p h.kept.well (h.free ptr List.mem_cons_self)
  obtain ⟨hptr, hrest⟩ := List.nodup_cons.mp h.nodup
  refine ⟨⟨h.kept.trans hkept, hrest, fun ptr' hptr' i k hmem => ?_, ?_⟩, hkept⟩
  · rw [← node_mem, hbody, CocoTable.mem_insertInCocoTable, hkept.node_eq] at hmem
    rcases hmem with hold | ⟨heq, -⟩
    · exact h.free ptr' (List.mem_cons_of_mem ptr hptr') i k (node_mem.mp hold)
    · exact hptr (node_inj.mp heq ▸ hptr')
  · rw [← h.table, hbody, h.kept.node_eq]
    rfl

/-- **The loop of `insertRequest`** links the nodes of a request one by one, as `CocoTable.lean`
does with the sequence of them, and comes to its end although every turn writes to the node it
stands on. -/
theorem insertNodes_spec (hwell : t.WellLinked) (hlinker : dlm.mLinkerInUse = REQUEST_DL_NR)
    (hl : Represents t.nodes dlm l) (hfree : ∀ ptr ∈ l, ∀ i k, ptr ∉ t.list i k) :
    (t.insertNodes env p dlm).toCocoTable =
        t.toCocoTable.insertNodes env p (l.map t.node) ∧
      Kept t (t.insertNodes env p dlm) := by
  have hstart : Inserting env p t l l t := ⟨⟨hwell, .refl⟩, hl.nodup, hfree, rfl⟩
  have hend : Inserting env p t l [] (t.insertNodes env p dlm) := by
    refine DL_ITERATE_spec hl hstart fun s ptr rest h => ?_
    obtain ⟨hrest, hkept⟩ := h.step
    exact ⟨hrest, hkept.nexts hlinker⟩
  exact ⟨hend.table, hend.kept⟩

/-- Half way through the loop of `removeRequest`: the nodes to come are linked, and unlinking them
leads to the table it should. -/
structure Removing (env : Env) (p : Int) (t : LinkedTable) (l rest : List NodePtr)
    (s : LinkedTable) : Prop where
  kept : Kept t s
  nodup : rest.Nodup
  linked : ∀ ptr ∈ rest, ∀ i k, CocoTable.home env p (t.node ptr) = some (i, k) → ptr ∈ s.list i k
  table : (rest.map t.node).foldl (fun t node => t.removeNode env node p) s.toCocoTable =
    (l.map t.node).foldl (fun t node => t.removeNode env node p) t.toCocoTable

/-- One turn of the loop: the body unlinks the next node where it is linked. -/
theorem Removing.step {rest : List NodePtr} {s : LinkedTable}
    (h : Removing env p t l (ptr :: rest) s) :
    Removing env p t l rest (s.removeNode env ptr p) ∧ Kept s (s.removeNode env ptr p) := by
  have hhere := h.linked ptr List.mem_cons_self
  rw [← h.kept.node_eq] at hhere
  obtain ⟨hbody, hkept⟩ := toCocoTable_removeNode h.kept.well hhere
  obtain ⟨hptr, hrest⟩ := List.nodup_cons.mp h.nodup
  refine ⟨⟨h.kept.trans hkept, hrest, fun ptr' hptr' i k hhome => ?_, ?_⟩, hkept⟩
  · rw [← node_mem, hbody, CocoTable.mem_removeNode, hkept.node_eq, node_mem]
    refine ⟨h.linked ptr' (List.mem_cons_of_mem ptr hptr') i k hhome, ?_⟩
    rintro ⟨heq, -⟩
    exact hptr (node_inj.mp heq ▸ hptr')
  · rw [← h.table, hbody, h.kept.node_eq]
    rfl

/-- **`removeRequest`** unlinks the nodes of a request one by one and leaves the table that
`CocoTable.lean` says, with the list of the request as it was. -/
theorem removeRequest_spec {request : LinkedRequest} (hwell : t.WellLinked)
    (hlist : request.mResourceList = some dlm) (hlinker : dlm.mLinkerInUse = REQUEST_DL_NR)
    (hl : Represents t.nodes dlm l) (hp : request.toMessage.getPriority = p)
    (hlinked : ∀ ptr ∈ l, ∀ i k, CocoTable.home env p (t.node ptr) = some (i, k) →
      ptr ∈ t.list i k) :
    (t.removeRequest env request).toCocoTable =
        (l.map t.node).foldl (fun t node => t.removeNode env node p) t.toCocoTable ∧
      Kept t (t.removeRequest env request) := by
  have hstart : Removing env p t l l t := ⟨⟨hwell, .refl⟩, hl.nodup, hlinked, rfl⟩
  have hend : Removing env p t l [] (t.removeRequest env request) := by
    unfold removeRequest
    rw [hlist, hp]
    refine DL_ITERATE_spec hl hstart fun s ptr rest h => ?_
    obtain ⟨hrest, hkept⟩ := h.step
    exact ⟨hrest, hkept.nexts hlinker⟩
  exact ⟨hend.table, hend.kept⟩

end Loops

end LinkedTable

end ResourceTuner
