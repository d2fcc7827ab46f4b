import ResourceTuner.Common.DLManager
import ResourceTuner.Core.ResourceRegistry
import ResourceTuner.Lib.Numbering

/-!
# The concurrency coordinator table

`CocoTable.cpp`.  For every registered resource the table has a row of lists, four for each slot
in which the resource can hold a value of its own: one slot for a global resource, one per core,
cluster or cgroup otherwise.  Beside the lists the table caches, per resource, the priority it
believes to be applied (`mCurrentlyAppliedPriority`).

* **`tableIndex`** — where the list of a resource and a priority lies;
* **`insertInCocoTable` / `removeNode`** — the bodies of the loops of `insertRequest` and
  `removeRequest`;
* **`insertRequest` / `updateRequest` / `removeRequest`** — the calls;
* **`step` / `exec`** — the same calls flattened to the sequence of node operations they perform;
* **`Run`** — the call sequences a server can make.

What a lifecycle callback does to the device is not part of the table: the table only records
which callback ran on which node, in `mCallbacks`.
-/

namespace ResourceTuner

/-- A lifecycle callback that ran, with the node it was given. -/
inductive Callback where
  | applier (node : ResIterable)
  | tear (node : ResIterable)
  deriving DecidableEq, Repr

def Callback.node : Callback → ResIterable
  | .applier n => n
  | .tear n => n

/-- `class CocoTable`: the lists by primary and secondary index, the cached priority by primary
index, and the callbacks run so far, oldest first.  The parts the constructor computes once from
the registries are functions of the environment (`rowSize`, `mFlatClusterMap`,
`mFlatCGroupMap`). -/
structure CocoTable where
  mCocoTable : Nat → Nat → List ResIterable
  mCurrentlyAppliedPriority : Nat → Int
  mCallbacks : List Callback

namespace CocoTable

/-! ## What the constructor fixes -/

/-- All lists empty, nothing applied. -/
def new : CocoTable := ⟨fun _ _ => [], fun _ => -1, []⟩

/-- The constructor's index assignment: `index = map.size(); map[id] = index` for each physical
cluster in turn. -/
def mFlatClusterMap (env : Env) : UnorderedMap Int Nat :=
  Numbering.number env.targetRegistry.getClusterIDs

/-- And for each cgroup. -/
def mFlatCGroupMap (env : Env) : UnorderedMap Int Nat :=
  Numbering.number (env.targetRegistry.getCGroupConfigs.map (·.mCgroupID))

/-- The number of slots of a resource. -/
def slotCount (env : Env) (conf : ResConfInfo) : Nat :=
  match conf.mApplyType with
  | .APPLY_CORE => env.targetConfigs.mTotalCoreCount
  | .APPLY_CLUSTER => env.targetConfigs.mTotalClusterCount
  | .APPLY_CGROUP => env.targetRegistry.getCreatedCGroupsCount
  | .APPLY_GLOBAL => 1

/-- `mCocoTable[primaryIndex].size()`. -/
def rowSize (env : Env) (primaryIndex : Nat) : Nat :=
  match env.resourceRegistry.mResourceConfigs[primaryIndex]? with
  | none => 0
  | some conf => TOTAL_PRIORITIES * slotCount env conf

/-! ## Indices -/

def getCocoTablePrimaryIndex (env : Env) (opId : BitVec 32) : Int :=
  match env.getResConf opId with
  | none => -1
  | some _ => env.resourceRegistry.getResourceTableIndex opId

/-- `getCocoTableSecondaryIndex`.  The two maps are read with `operator[]`: an unknown cluster or
cgroup reads as index `0`, and the entry this inserts reads the same ever after. -/
def getCocoTableSecondaryIndex (env : Env) (resource : Resource) (priority : Int) : Int :=
  match env.getResConf resource.mResCode with
  | none => -1
  | some resConfInfo =>
    match resConfInfo.mApplyType with
    | .APPLY_CORE => resource.getCoreValue * TOTAL_PRIORITIES + priority
    | .APPLY_CLUSTER =>
      if resource.getClusterValue = -1 then -1
      else ((mFlatClusterMap env).lookup resource.getClusterValue).getD 0 * TOTAL_PRIORITIES +
        priority
    | .APPLY_CGROUP =>
      if resource.getValueAt 0 = -1 then -1
      else ((mFlatCGroupMap env).lookup (resource.getValueAt 0)).getD 0 * TOTAL_PRIORITIES +
        priority
    | .APPLY_GLOBAL => priority

/-- Both indices, when they pass the range check that `insertInCocoTable` and `removeRequest`
make. -/
def tableIndex (env : Env) (resource : Resource) (priority : Int) : Option (Nat × Nat) :=
  let primaryIndex := getCocoTablePrimaryIndex env resource.mResCode
  let secondaryIndex := getCocoTableSecondaryIndex env resource priority
  if primaryIndex < 0 ∨ secondaryIndex < 0 ∨
      primaryIndex ≥ env.resourceRegistry.getTotalResourcesCount ∨
      secondaryIndex ≥ rowSize env primaryIndex.toNat then none
  else some (primaryIndex.toNat, secondaryIndex.toNat)

/-! ## Policies -/

/-- The value two resources are compared by: the only one, or the second of several. -/
def comparValue (resource : Resource) : Int :=
  if resource.getValuesCount = 1 then resource.getValueAt 0 else resource.getValueAt 1

def comparHBetter (newNode targetNode : ResIterable) : Bool :=
  match newNode.mData, targetNode.mData with
  | some first, some second => comparValue first > comparValue second
  | _, _ => false

def comparLBetter (newNode targetNode : ResIterable) : Bool :=
  match newNode.mData, targetNode.mData with
  | some first, some second => comparValue first < comparValue second
  | _, _ => false

/-- The `switch` of `insertInCocoTable`: where each policy links a new node. -/
def insertByPolicy (policy : Policy) (newNode : ResIterable) (dlm : List ResIterable) :
    List ResIterable :=
  match policy with
  | .INSTANT_APPLY => DLManager.insertStart dlm newNode
  | .HIGHER_BETTER => DLManager.insertWithPolicy comparHBetter newNode dlm
  | .LOWER_BETTER => DLManager.insertWithPolicy comparLBetter newNode dlm
  | .LAZY_APPLY => DLManager.insert dlm newNode
  | .PASS_THROUGH => dlm

/-! ## Applying and resetting -/

variable (env : Env)

/-- The resource may be written in the current display mode. -/
def modeAllows (conf : ResConfInfo) : Bool := conf.mModes &&& env.targetConfigs.currMode != 0

/-- A callback ran. -/
def record (t : CocoTable) (event : Callback) : CocoTable :=
  { t with mCallbacks := t.mCallbacks ++ [event] }

/-- Call a lifecycle callback if there is one. -/
def call (t : CocoTable) (callback : Option ResourceLifecycleCallback) (event : Callback) :
    CocoTable :=
  match callback with
  | none => t
  | some _ => t.record event

/-- Replace the list at an index. -/
def setList (t : CocoTable) (i k : Nat) (l : List ResIterable) : CocoTable :=
  { t with mCocoTable := Function.update t.mCocoTable i (Function.update (t.mCocoTable i) k l) }

/-- Set the cached priority of a resource. -/
def setPriority (t : CocoTable) (i : Nat) (priority : Int) : CocoTable :=
  { t with
    mCurrentlyAppliedPriority := Function.update t.mCurrentlyAppliedPriority i priority }

/-- The test of `applyAction`: nothing of a stronger priority is applied, as far as the cached
priority knows. -/
def gateOpen (t : CocoTable) (index : Nat) (priority : Int) : Bool :=
  t.mCurrentlyAppliedPriority index ≥ priority || t.mCurrentlyAppliedPriority index == -1

/-- `applyAction` on a node of the list of `priority`. -/
def applyAction (t : CocoTable) (currNode : ResIterable) (index : Nat) (priority : Int) :
    CocoTable :=
  match currNode.mData with
  | none => t
  | some resource =>
    if t.gateOpen index priority then
      match env.getResConf resource.mResCode with
      | none => t
      | some resourceConfig =>
        if modeAllows env resourceConfig then
          (t.call resourceConfig.mResourceApplierCallback (.applier currNode)).setPriority index
            priority
        else t
    else t

/-- `fastPathApply`, for a pass-through resource. -/
def fastPathApply (t : CocoTable) (rConf : ResConfInfo) (node : ResIterable) : CocoTable :=
  if modeAllows env rConf then t.call rConf.mResourceApplierCallback (.applier node) else t

/-- `fastPathReset`.  The null test is on the applier, the call is to the tear. -/
def fastPathReset (t : CocoTable) (rConf : ResConfInfo) (node : ResIterable) : CocoTable :=
  match rConf.mResourceApplierCallback with
  | none => t
  | some _ => t.call rConf.mResourceTearCallback (.tear node)

/-- `removeAction`. -/
def removeAction (t : CocoTable) (index : Nat) (node : ResIterable) : CocoTable :=
  match node.mData with
  | none => t
  | some resource =>
    match env.getResConf resource.mResCode with
    | none => t
    | some resConfInfo =>
      (t.call resConfInfo.mResourceTearCallback (.tear node)).setPriority index (-1)

/-! ## Inserting -/

/-- `insertInCocoTable`.  A node without a resource and a resource without a configuration are
read through a null pointer in the source; no verified request has one, and nothing happens
here. -/
def insertInCocoTable (t : CocoTable) (newNode : ResIterable) (priority : Int) :
    Bool × CocoTable :=
  match newNode.mData with
  | none => (false, t)
  | some resource =>
    match env.getResConf resource.mResCode with
    | none => (false, t)
    | some rConf =>
      if rConf.mPolicy = .PASS_THROUGH then (true, t.fastPathApply env rConf newNode)
      else
        match tableIndex env resource priority with
        | none => (false, t)
        | some (i, k) =>
          let dlm := insertByPolicy rConf.mPolicy newNode (t.mCocoTable i k)
          let t := t.setList i k dlm
          if DLManager.isNodeNth dlm 0 newNode then (true, t.applyAction env newNode i priority)
          else (true, t)

/-- The loop of `insertRequest`. -/
def insertNodes (t : CocoTable) (priority : Int) (nodes : List ResIterable) : CocoTable :=
  nodes.foldl (fun t node => (t.insertInCocoTable env node priority).2) t

/-- `Timer::startTimer`; `enqueued` is the answer of the timer thread pool, false when there is
no pool. -/
def startTimer (duration : Int) (enqueued : Bool) : Bool :=
  if duration = -1 then true
  else if duration = 0 ∨ duration < -1 then false
  else enqueued

/-- `insertRequest`.  `timerBlock` is the block the memory pool hands out for the timer, `none`
when it throws.  Note the two places of the source that answer false: before any node was linked,
and, when the timer does not start, after all of them were. -/
def insertRequest (t : CocoTable) (req : Request) (timerBlock : Option Nat) (enqueued : Bool) :
    Bool × CocoTable × Request :=
  if req.mDuration ≠ -1 ∧ timerBlock = none then (false, t, { req with mTimer := none })
  else
    let req := { req with mTimer := if req.mDuration ≠ -1 then timerBlock else none }
    match req.mResourceList with
    | none => (false, t, req)
    | some nodes =>
      let t := t.insertNodes env req.getPriority nodes
      if req.mDuration ≠ -1 ∧ ¬ startTimer req.mDuration enqueued then (false, t, req)
      else (true, t, req)

/-! ## Retuning -/

/-- `updateRequest`, the answer and the request afterwards.  `none` is the crash of a request
without a timer: the old timer is stopped through its pointer before anything is tested.  The
lists are left alone. -/
def updateRequest (req : Request) (duration : Int) (timerBlock : Option Nat) (enqueued : Bool) :
    Option (Bool × Request) :=
  if duration < -1 ∨ (duration > 0 ∧ duration < req.mDuration) then some (false, req)
  else
    match req.mTimer with
    | none => none
    | some _ =>
      let req := { req with mDuration := duration, mTimer := timerBlock }
      match timerBlock with
      | none => some (false, req)
      | some _ => some (startTimer duration enqueued, req)

/-! ## Removing -/

/-- The search of `removeRequest` after a list has emptied: the strongest priority that has a
node in the slot whose first list is `reIndexIncrement`. -/
def rescan (t : CocoTable) (i reIndexIncrement : Nat) : Option Nat :=
  (List.range TOTAL_PRIORITIES).find? fun prioLevel =>
    !(t.mCocoTable i (prioLevel + reIndexIncrement)).isEmpty

/-- `reIndexIncrement`: the index of the slot's first list, zero for a global resource. -/
def reIndexIncrement (resourceConfig : ResConfInfo) (resource : Resource) : Int :=
  match resourceConfig.mApplyType with
  | .APPLY_CORE => getCocoTableSecondaryIndex env resource SYSTEM_HIGH
  | .APPLY_CLUSTER => getCocoTableSecondaryIndex env resource SYSTEM_HIGH
  | .APPLY_CGROUP => getCocoTableSecondaryIndex env resource SYSTEM_HIGH
  | .APPLY_GLOBAL => 0

/-- What `removeRequest` does once the node is unlinked from a list that is now empty. -/
def afterEmptied (t : CocoTable) (i : Nat) (base : Int) (node : ResIterable) : CocoTable :=
  if base = -1 then t
  else
    match t.rescan i base.toNat with
    | some prioLevel =>
      match t.mCocoTable i (prioLevel + base.toNat) with
      | [] => t
      | head :: _ => (t.setPriority i prioLevel).applyAction env head i prioLevel
    | none => t.removeAction env i node

/-- The body of the loop of `removeRequest`. -/
def removeNode (t : CocoTable) (iter : ResIterable) (priority : Int) : CocoTable :=
  match iter.mData with
  | none => t
  | some resource =>
    match env.getResConf resource.mResCode with
    | none => t
    | some resourceConfig =>
      if resourceConfig.mPolicy = .PASS_THROUGH then t.fastPathReset resourceConfig iter
      else
        match tableIndex env resource priority with
        | none => t
        | some (i, k) =>
          let nodeIsHead := DLManager.isNodeNth (t.mCocoTable i k) 0 iter
          let dlm := DLManager.deleteNode (t.mCocoTable i k) iter
          let t := t.setList i k dlm
          match dlm with
          | [] => t.afterEmptied env i (reIndexIncrement env resourceConfig resource) iter
          | head :: _ => if nodeIsHead then t.applyAction env head i priority else t

/-- `removeRequest`. -/
def removeRequest (t : CocoTable) (request : Request) : CocoTable :=
  request.nodes.foldl (fun t node => t.removeNode env node request.getPriority) t

/-! ## Node operations

`insertRequest` and `removeRequest` are folds over the nodes of a request, so a sequence of
calls is a sequence of node operations. -/

inductive NodeOp where
  | insert (priority : Int) (node : ResIterable)
  | remove (priority : Int) (node : ResIterable)
  deriving DecidableEq, Repr

def NodeOp.node : NodeOp → ResIterable
  | .insert _ n => n
  | .remove _ n => n

def NodeOp.priority : NodeOp → Int
  | .insert p _ => p
  | .remove p _ => p

def step (t : CocoTable) : NodeOp → CocoTable
  | .insert priority node => (t.insertInCocoTable env node priority).2
  | .remove priority node => t.removeNode env node priority

/-- The table after a sequence of node operations. -/
def exec (ops : List NodeOp) : CocoTable := ops.foldl (step env) new

@[simp] theorem exec_nil : exec env [] = new := rfl

@[simp] theorem exec_append_singleton (ops : List NodeOp) (op : NodeOp) :
    exec env (ops ++ [op]) = (exec env ops).step env op := by
  simp [exec]

/-- A call on the table, with the request it is given. -/
inductive Call where
  | insertRequest (request : Request)
  | removeRequest (request : Request)
  deriving DecidableEq, Repr

/-- The node operations of a call. -/
def Call.ops : Call → List NodeOp
  | .insertRequest r => r.nodes.map (.insert r.getPriority)
  | .removeRequest r => r.nodes.map (.remove r.getPriority)

end CocoTable

/-- The nodes of the requests of a list. -/
def liveNodes (live : List Request) : List ResIterable := live.flatMap Request.nodes

/-- A request the verifier has accepted: an internal priority, a resource list, and a registered
resource at every node. -/
structure Verified (env : Env) (request : Request) : Prop where
  priority_nonneg : 0 ≤ request.getPriority
  priority_lt : request.getPriority < TOTAL_PRIORITIES
  list : request.mResourceList.isSome
  registered : ∀ node ∈ request.nodes, ∃ resource conf, node.mData = some resource ∧
    env.getResConf resource.mResCode = some conf

instance (env : Env) (request : Request) : Decidable (Verified env request) :=
  decidable_of_iff
    (0 ≤ request.getPriority ∧ request.getPriority < TOTAL_PRIORITIES ∧
      request.mResourceList.isSome ∧ ∀ node ∈ request.nodes,
        (node.mData.bind fun resource => env.getResConf resource.mResCode).isSome)
    (by
      have hnode : ∀ node : ResIterable,
          (node.mData.bind fun resource => env.getResConf resource.mResCode).isSome ↔
            ∃ resource conf, node.mData = some resource ∧
              env.getResConf resource.mResCode = some conf := by
        intro node
        simp only [Option.isSome_iff_exists, Option.bind_eq_some_iff]
        exact ⟨fun ⟨c, r, h, h'⟩ => ⟨r, c, h, h'⟩, fun ⟨r, c, h, h'⟩ => ⟨c, r, h, h'⟩⟩
      simp only [hnode]
      exact ⟨fun ⟨h0, h4, hl, hr⟩ => ⟨h0, h4, hl, hr⟩, fun ⟨h0, h4, hl, hr⟩ => ⟨h0, h4, hl, hr⟩⟩)

/-- The call sequences of a server: `Run env calls t live` says that `calls` can be made on a new
table, lead to `t`, and leave the requests `live` inserted and not removed.  An inserted request
was verified, its timer starts, and its nodes are distinct from one another and from the nodes
already linked; a removed one is live, and is not removed again. -/
inductive Run (env : Env) : List CocoTable.Call → CocoTable → List Request → Prop where
  | nil : Run env [] CocoTable.new []
  | insert {calls : List CocoTable.Call} {t t' : CocoTable} {live : List Request}
      {request request' : Request} {timerBlock : Option Nat} {enqueued : Bool}
      (run : Run env calls t live) (verified : Verified env request)
      (nodup : request.nodes.Nodup)
      (fresh : ∀ node ∈ request.nodes, node ∉ liveNodes live)
      (inserted : t.insertRequest env request timerBlock enqueued = (true, t', request')) :
      Run env (calls ++ [.insertRequest request]) t' (request' :: live)
  | remove {calls : List CocoTable.Call} {t : CocoTable} {live : List Request}
      {request : Request} (run : Run env calls t live) (linked : request ∈ live) :
      Run env (calls ++ [.removeRequest request]) (t.removeRequest env request)
        (live.erase request)

end ResourceTuner
