import ResourceTuner.Core.LinkedTable

/-!
# Resources do not disturb one another

A call for a request writes to the rows of the resources the request names and to no other row.  The
row of a resource is the index of its code; the registry gives no two codes one index, so that a row
is written for one resource only, and what is linked in a row and applied from there carries that
resource's code.

* **`InRow`** — every linked node lies in the row of its code;
* **`Confined`** — what a call may do to the table of `CocoTable.lean`, node by node;
* **`Reached`** — the tables that insertions and removals lead to, with the requests inserted;
* **`Inv`** — which nodes are linked in such a table;
* **`isolated`** — what a call may do to the linked table.

No request need be verified: a priority outside the four levels moves a node to another slot of its
own row, or out of the table.
-/

namespace ResourceTuner

namespace CocoTable

/-! ## Rows -/

section Rows

variable {env : Env} {code code' : BitVec 32} {i k : Nat} {p : Int} {node : ResIterable}

/-- No two codes have one row. -/
theorem getCocoTablePrimaryIndex_inj (h : getCocoTablePrimaryIndex env code = i)
    (h' : getCocoTablePrimaryIndex env code' = i) : code = code' := by
  have hlookup : ∀ code, getCocoTablePrimaryIndex env code = i →
      env.resourceRegistry.mSystemIndependentLayerMappings.lookup code = some i := by
    intro code h
    unfold getCocoTablePrimaryIndex at h
    cases hconf : env.getResConf code with
    | none =>
      simp only [hconf] at h
      omega
    | some conf =>
      obtain ⟨j, hj, -, hindex⟩ := ResourceRegistry.getResConf_eq_some hconf
      simp only [hconf, hindex] at h
      rw [hj, Int.ofNat_inj.mp h]
  exact env.resourceRegistry.index_inj code code' i (hlookup code h) (hlookup code' h')

/-- The index of a resource lies in its own row. -/
theorem row_of_tableIndex {resource : Resource} (h : tableIndex env resource p = some (i, k)) :
    getCocoTablePrimaryIndex env resource.mResCode = i := by
  unfold tableIndex at h
  simp only at h
  split at h
  · cases h
  · simp only [Option.some.injEq, Prod.mk.injEq] at h
    omega

/-- A node is linked in the row of its code. -/
theorem row_of_home (h : home env p node = some (i, k)) :
    ∃ resource, node.mData = some resource ∧
      getCocoTablePrimaryIndex env resource.mResCode = i := by
  unfold home at h
  split at h
  · cases h
  rename_i resource hdata
  split at h
  · cases h
  split at h
  · cases h
  · exact ⟨resource, hdata, row_of_tableIndex h⟩

end Rows

/-- Every linked node lies in the row of its code. -/
def InRow (env : Env) (t : CocoTable) : Prop :=
  ∀ i k, ∀ node ∈ t.mCocoTable i k, ∃ resource, node.mData = some resource ∧
    getCocoTablePrimaryIndex env resource.mResCode = i

/-- The callbacks that have run since were called on resources with these codes, and the rows of
other codes are as they were. -/
structure Confined (env : Env) (codes : List (BitVec 32)) (t t' : CocoTable) : Prop where
  callbacks : ∃ ran, t'.mCallbacks = t.mCallbacks ++ ran ∧ ∀ event ∈ ran,
    ∃ resource, event.node.mData = some resource ∧ resource.mResCode ∈ codes
  lists : ∀ code ∉ codes, ∀ i : Nat, getCocoTablePrimaryIndex env code = i →
    t'.mCocoTable i = t.mCocoTable i
  priority : ∀ code ∉ codes, ∀ i : Nat, getCocoTablePrimaryIndex env code = i →
    t'.mCurrentlyAppliedPriority i = t.mCurrentlyAppliedPriority i

section Confined

variable {env : Env} {codes : List (BitVec 32)} {t t' t'' : CocoTable} {node : ResIterable}
  {resource : Resource} {i : Nat} {p : Int}

/-- A call that does nothing is confined to any codes. -/
theorem Confined.refl : Confined env codes t t where
  callbacks := ⟨[], (List.append_nil _).symm, by simp⟩
  lists _ _ _ _ := rfl
  priority _ _ _ _ := rfl

/-- Two calls in a row are confined if both are. -/
theorem Confined.trans (h : Confined env codes t t') (h' : Confined env codes t' t'') :
    Confined env codes t t'' where
  callbacks := by
    obtain ⟨ran, hran, hcodes⟩ := h.callbacks
    obtain ⟨ran', hran', hcodes'⟩ := h'.callbacks
    refine ⟨ran ++ ran', by rw [hran', hran, List.append_assoc], fun event hevent => ?_⟩
    rcases List.mem_append.mp hevent with hold | hnew
    · exact hcodes event hold
    · exact hcodes' event hnew
  lists code hcode i hi := (h'.lists code hcode i hi).trans (h.lists code hcode i hi)
  priority code hcode i hi := (h'.priority code hcode i hi).trans (h.priority code hcode i hi)

/-- At most one callback has run, on a node with one of the codes. -/
theorem Confined.of_event (event : Callback) (hdata : event.node.mData = some resource)
    (hcode : resource.mResCode ∈ codes)
    (hran : t'.mCallbacks = t.mCallbacks ∨ t'.mCallbacks = t.mCallbacks ++ [event])
    (hlists : t'.mCocoTable = t.mCocoTable)
    (hpriority : ∀ code ∉ codes, ∀ i : Nat, getCocoTablePrimaryIndex env code = i →
      t'.mCurrentlyAppliedPriority i = t.mCurrentlyAppliedPriority i) :
    Confined env codes t t' where
  callbacks := by
    rcases hran with h | h
    · exact ⟨[], by rw [h, List.append_nil], by simp⟩
    · refine ⟨[event], h, fun event' hevent' => ?_⟩
      rw [List.mem_singleton.mp hevent']
      exact ⟨resource, hdata, hcode⟩
  lists _ _ i _ := congrFun hlists i
  priority := hpriority

/-- The row of one of the codes is not the row of another code. -/
theorem ne_row {code : BitVec 32} {j : Nat} (hcode : resource.mResCode ∈ codes)
    (hrow : getCocoTablePrimaryIndex env resource.mResCode = i) (hother : code ∉ codes)
    (hj : getCocoTablePrimaryIndex env code = j) : j ≠ i := by
  rintro rfl
  rw [getCocoTablePrimaryIndex_inj hj hrow] at hother
  exact hother hcode

section Row

variable (hcode : resource.mResCode ∈ codes)
  (hrow : getCocoTablePrimaryIndex env resource.mResCode = i)
include hcode hrow

/-- A list of the row may change. -/
theorem confined_setList (k : Nat) (l : List ResIterable) :
    Confined env codes t (t.setList i k l) where
  callbacks := ⟨[], (List.append_nil _).symm, by simp⟩
  lists code hother j hj := Function.update_of_ne (ne_row hcode hrow hother hj) _ _
  priority _ _ _ _ := rfl

/-- So may its cached priority. -/
theorem confined_setPriority : Confined env codes t (t.setPriority i p) where
  callbacks := ⟨[], (List.append_nil _).symm, by simp⟩
  lists _ _ _ _ := rfl
  priority code hother j hj := Function.update_of_ne (ne_row hcode hrow hother hj) _ _

/-- The applier that runs is for the resource of the node. -/
theorem confined_applyAction (hdata : node.mData = some resource) :
    Confined env codes t (t.applyAction env node i p) :=
  .of_event (.applier node) hdata hcode (t.applyAction_mCallbacks env node i p)
    (t.applyAction_mCocoTable env node i p)
    fun _ hother _ hj => t.applyAction_priority_of_ne env node i p (ne_row hcode hrow hother hj)

/-- So is the tear. -/
theorem confined_removeAction (hdata : node.mData = some resource) :
    Confined env codes t (t.removeAction env i node) :=
  .of_event (.tear node) hdata hcode (t.removeAction_mCallbacks env node i)
    (t.removeAction_mCocoTable env node i)
    fun _ hother _ hj => t.removeAction_priority_of_ne env node i (ne_row hcode hrow hother hj)

/-- A node in the row carries the code of the row. -/
theorem confined_applyAction_of_inRow (hinRow : InRow env t) {k : Nat}
    (hnode : node ∈ t.mCocoTable i k) : Confined env codes t (t.applyAction env node i p) := by
  obtain ⟨resource', hdata, hrow'⟩ := hinRow i k node hnode
  have hcode' : resource'.mResCode ∈ codes := by
    rw [getCocoTablePrimaryIndex_inj hrow' hrow]
    exact hcode
  exact confined_applyAction hcode' hrow' hdata

end Row

end Confined

/-! ## One node -/

section Nodes

variable {env : Env} {codes : List (BitVec 32)} {t : CocoTable} {node : ResIterable}
  {resource : Resource} {p : Int}

/-- A node is inserted into the row of its resource. -/
theorem InRow.insertInCocoTable (h : InRow env t) :
    InRow env (t.insertInCocoTable env node p).2 := by
  intro i k node' hnode'
  rcases mem_insertInCocoTable.mp hnode' with hold | ⟨rfl, hhome⟩
  · exact h i k node' hold
  · exact row_of_home hhome

/-- A removal moves none to another row. -/
theorem InRow.removeNode (h : InRow env t) : InRow env (t.removeNode env node p) :=
  fun i k node' hnode' => h i k node' (mem_removeNode.mp hnode').1

/-- Nor does it when a node is taken out of any list. -/
theorem InRow.deleteNode (h : InRow env t) (i k : Nat) :
    InRow env (t.setList i k (DLManager.deleteNode (t.mCocoTable i k) node)) := by
  intro i' k' node' hnode'
  rw [setList_mCocoTable] at hnode'
  split at hnode'
  · rename_i hat
    obtain ⟨rfl, rfl⟩ := hat
    exact h i' k' node' (List.mem_of_mem_filter hnode')
  · exact h i' k' node' hnode'

/-- Inserting a node runs a callback on that node only. -/
theorem confined_insertInCocoTable (hdata : node.mData = some resource)
    (hcode : resource.mResCode ∈ codes) :
    Confined env codes t (t.insertInCocoTable env node p).2 := by
  unfold insertInCocoTable
  simp only [hdata]
  split
  · exact .refl
  rename_i conf hconf
  split
  · -- pass-through
    refine .of_event (.applier node) hdata hcode ?_ ?_ fun _ _ _ _ => ?_
    all_goals
      unfold fastPathApply
      split
    · exact t.call_mCallbacks _ _
    · exact Or.inl rfl
    · exact t.call_mCocoTable _ _
    · rfl
    · rw [call_mCurrentlyAppliedPriority]
    · rfl
  split
  · exact .refl
  · rename_i i k hindex
    have hrow := row_of_tableIndex hindex
    split
    · exact (confined_setList hcode hrow k _).trans (confined_applyAction hcode hrow hdata)
    · exact confined_setList hcode hrow k _

/-- What follows the last node of a list concerns its row: the head of the next level is for the
same resource. -/
theorem confined_afterEmptied (hinRow : InRow env t) {i : Nat} (hdata : node.mData = some resource)
    (hcode : resource.mResCode ∈ codes)
    (hrow : getCocoTablePrimaryIndex env resource.mResCode = i) (base : Int) :
    Confined env codes t (t.afterEmptied env i base node) := by
  unfold afterEmptied
  split
  · exact .refl
  split
  · rename_i prioLevel hrescan
    split
    · exact .refl
    · rename_i head rest hlist
      have hhead : head ∈ (t.setPriority i prioLevel).mCocoTable i (prioLevel + base.toNat) := by
        show head ∈ t.mCocoTable i (prioLevel + base.toNat)
        rw [hlist]
        exact List.mem_cons_self
      have hinRow' : InRow env (t.setPriority i prioLevel) := hinRow
      exact (confined_setPriority hcode hrow).trans
        (confined_applyAction_of_inRow hcode hrow hinRow' hhead)
  · exact confined_removeAction hcode hrow hdata

/-- Removing a node runs a callback on that node or on one that is linked in its row. -/
theorem confined_removeNode (hinRow : InRow env t) (hdata : node.mData = some resource)
    (hcode : resource.mResCode ∈ codes) : Confined env codes t (t.removeNode env node p) := by
  unfold removeNode
  simp only [hdata]
  split
  · exact .refl
  rename_i conf hconf
  split
  · -- pass-through
    refine .of_event (.tear node) hdata hcode ?_ ?_ fun _ _ _ _ => ?_
    all_goals
      unfold fastPathReset
      split
    · exact Or.inl rfl
    · exact t.call_mCallbacks _ _
    · rfl
    · exact t.call_mCocoTable _ _
    · rfl
    · rw [call_mCurrentlyAppliedPriority]
  split
  · exact .refl
  · rename_i i k hindex
    have hrow := row_of_tableIndex hindex
    have hset : Confined env codes t
        (t.setList i k (DLManager.deleteNode (t.mCocoTable i k) node)) :=
      confined_setList hcode hrow k _
    have hinRow' : InRow env (t.setList i k (DLManager.deleteNode (t.mCocoTable i k) node)) :=
      hinRow.deleteNode i k
    split
    · exact hset.trans (confined_afterEmptied hinRow' hdata hcode hrow _)
    · rename_i head rest hlist
      split
      · have hhead : head ∈
            (t.setList i k (DLManager.deleteNode (t.mCocoTable i k) node)).mCocoTable i k := by
          rw [setList_mCocoTable, if_pos ⟨rfl, rfl⟩, hlist]
          exact List.mem_cons_self
        exact hset.trans (confined_applyAction_of_inRow hcode hrow hinRow' hhead)
      · exact hset

/-! ## The nodes of a request -/

/-- Every node carries a resource with one of the codes. -/
def Carries (codes : List (BitVec 32)) (nodes : List ResIterable) : Prop :=
  ∀ node ∈ nodes, ∃ resource, node.mData = some resource ∧ resource.mResCode ∈ codes

/-- The whole loop of `insertRequest` is confined to the codes of the request. -/
theorem confined_insertNodes {nodes : List ResIterable} (hnodes : Carries codes nodes) :
    Confined env codes t (t.insertNodes env p nodes) := by
  induction nodes generalizing t with
  | nil => exact .refl
  | cons node rest ih =>
    obtain ⟨resource, hdata, hcode⟩ := hnodes node List.mem_cons_self
    exact (confined_insertInCocoTable hdata hcode).trans
      (ih fun node' h => hnodes node' (List.mem_cons_of_mem node h))

/-- So is the loop of `removeRequest`. -/
theorem confined_removeNodes {nodes : List ResIterable} (hnodes : Carries codes nodes)
    (hinRow : InRow env t) :
    Confined env codes t (nodes.foldl (fun t node => t.removeNode env node p) t) := by
  induction nodes generalizing t with
  | nil => exact .refl
  | cons node rest ih =>
    obtain ⟨resource, hdata, hcode⟩ := hnodes node List.mem_cons_self
    exact (confined_removeNode hinRow hdata hcode).trans
      (ih (fun node' h => hnodes node' (List.mem_cons_of_mem node h)) hinRow.removeNode)

end Nodes

end CocoTable

/-! ## Requests over nodes -/

open DLManagerPtr Nodes

namespace LinkedRequest

/-- The nodes of a request's own list. -/
def ptrs (r : LinkedRequest) (t : LinkedTable) : List NodePtr :=
  match r.mResourceList with
  | none => []
  | some dlm => dlm.toList t.nodes

/-- The codes a request names. -/
def codes (r : LinkedRequest) (t : LinkedTable) : List (BitVec 32) :=
  (r.ptrs t).filterMap fun ptr => (t.nodes ptr).mData.map Resource.mResCode

def getPriority (r : LinkedRequest) : Int := r.toMessage.getPriority

/-- Insert a node in the list of a request. -/
def insertTo (r : LinkedRequest) (t : LinkedTable) (dlm : DLManagerPtr NodePtr) (ptr : NodePtr) :
    LinkedTable × LinkedRequest :=
  let edited := dlm.insert t.nodes ptr
  ({ t with nodes := edited.1 }, { r with mResourceList := some edited.2 })

/-- `addResource`.  The list is allocated with the first resource. -/
def addResource (r : LinkedRequest) (t : LinkedTable) (listBlock : Bool) (resIterable : NodePtr) :
    LinkedTable × LinkedRequest :=
  match r.mResourceList with
  | none =>
    if listBlock then r.insertTo t (DLManagerPtr.new REQUEST_DL_NR) resIterable else (t, r)
  | some dlm => r.insertTo t dlm resIterable

/-- The list of a request is a list over the first pair of links, of nodes whose resources are all
registered. -/
structure Listed (env : Env) (t : LinkedTable) (r : LinkedRequest) : Prop where
  linker : ∀ dlm, r.mResourceList = some dlm → dlm.mLinkerInUse = REQUEST_DL_NR
  represents : ∀ dlm, r.mResourceList = some dlm → Represents t.nodes dlm (r.ptrs t)
  registered : ∀ ptr ∈ r.ptrs t, ∃ resource conf, (t.nodes ptr).mData = some resource ∧
    env.getResConf resource.mResCode = some conf

section Listed

variable {env : Env} {t t' : LinkedTable} {r : LinkedRequest}

/-- The nodes of a request are those of its list. -/
theorem ptrs_of_list {dlm : DLManagerPtr NodePtr} (h : r.mResourceList = some dlm) :
    r.ptrs t = dlm.toList t.nodes := by
  unfold ptrs
  rw [h]

/-- A request whose list is as it was, with what its nodes carry, is listed as it was. -/
theorem Listed.of_represents (h : r.Listed env t)
    (hrep : ∀ dlm, r.mResourceList = some dlm → Represents t'.nodes dlm (r.ptrs t))
    (hdata : ∀ ptr ∈ r.ptrs t, (t'.nodes ptr).mData = (t.nodes ptr).mData) :
    r.ptrs t' = r.ptrs t ∧ r.Listed env t' := by
  have hptrs : r.ptrs t' = r.ptrs t := by
    cases hlist : r.mResourceList with
    | none => simp only [ptrs, hlist]
    | some dlm => rw [ptrs_of_list hlist, (hrep dlm hlist).toList_eq]
  refine ⟨hptrs, h.linker, fun dlm hlist => ?_, fun ptr hptr => ?_⟩
  · rw [hptrs]
    exact hrep dlm hlist
  · rw [hptrs] at hptr
    rw [hdata ptr hptr]
    exact h.registered ptr hptr

/-- Nodes of other requests do not matter. -/
theorem Listed.congr (h : r.Listed env t) (hnodes : ∀ ptr ∈ r.ptrs t, t'.nodes ptr = t.nodes ptr) :
    r.ptrs t' = r.ptrs t ∧ r.Listed env t' :=
  h.of_represents (fun dlm hlist => (h.represents dlm hlist).congr hnodes)
    fun ptr hptr => congrArg ExtIterable1.mData (hnodes ptr hptr)

/-- The calls leave the lists of the requests. -/
theorem Listed.kept (h : r.Listed env t) (hkept : LinkedTable.Kept t t') :
    r.ptrs t' = r.ptrs t ∧ r.Listed env t' :=
  h.of_represents
    (fun dlm hlist => hkept.represents (h.linker dlm hlist) (h.represents dlm hlist))
    fun ptr _ => hkept.edited.data ptr

/-- A request without a list has no nodes to be wrong. -/
theorem listed_of_no_list (h : r.mResourceList = none) : r.Listed env t where
  linker dlm hlist := by
    rw [h] at hlist
    cases hlist
  represents dlm hlist := by
    rw [h] at hlist
    cases hlist
  registered ptr hptr := by
    simp only [ptrs, h] at hptr
    cases hptr

/-- The request has at most one node more, and other nodes are as they were. -/
structure Grown (env : Env) (r : LinkedRequest) (t : LinkedTable) (ptr : NodePtr)
    (grown : LinkedTable × LinkedRequest) : Prop where
  listed : grown.2.Listed env grown.1
  ptrs : ∀ ptr' ∈ grown.2.ptrs grown.1, ptr' ∈ ptr :: r.ptrs t
  nodes : ∃ nodes, grown.1 = { t with nodes := nodes } ∧
    Edited REQUEST_DL_NR (· ∈ ptr :: r.ptrs t) t.nodes nodes

/-- One more resource at the end of a list keeps the request listed. -/
theorem Listed.insertTo (h : r.Listed env t) {dlm : DLManagerPtr NodePtr} {ptr : NodePtr}
    (hlinker : dlm.mLinkerInUse = REQUEST_DL_NR) (hrep : Represents t.nodes dlm (r.ptrs t))
    (hptr : ptr ∉ r.ptrs t) (hregistered : ∃ resource conf, (t.nodes ptr).mData = some resource ∧
      env.getResConf resource.mResCode = some conf) : Grown env r t ptr (r.insertTo t dlm ptr) := by
  have hinserted := represents_insert hrep hptr
  have hedited : Edited dlm.mLinkerInUse (· ∈ ptr :: r.ptrs t) t.nodes (dlm.insert t.nodes ptr).1 :=
    edited_insert hrep
  rw [hlinker] at hedited
  have hptrs : (r.insertTo t dlm ptr).2.ptrs (r.insertTo t dlm ptr).1 = r.ptrs t ++ [ptr] :=
    hinserted.toList_eq
  have hmem : ∀ ptr' ∈ r.ptrs t ++ [ptr], ptr' ∈ ptr :: r.ptrs t := by
    intro ptr' hptr'
    rw [List.mem_append, List.mem_singleton] at hptr'
    exact List.mem_cons.mpr hptr'.symm
  refine ⟨⟨fun dlm' hdlm' => ?_, fun dlm' hdlm' => ?_, fun ptr' hptr' => ?_⟩, ?_, _, rfl, hedited⟩
  · obtain rfl := Option.some.inj hdlm'
    rw [insert_mLinkerInUse]
    exact hlinker
  · obtain rfl := Option.some.inj hdlm'
    rw [hptrs]
    exact hinserted
  · rw [hptrs] at hptr'
    show ∃ resource conf, ((dlm.insert t.nodes ptr).1 ptr').mData = some resource ∧ _
    rw [hedited.data]
    rcases List.mem_cons.mp (hmem ptr' hptr') with rfl | hold
    · exact hregistered
    · exact h.registered ptr' hold
  · rw [hptrs]
    exact hmem

/-- Requests are built node by node. -/
theorem Listed.addResource (h : r.Listed env t) {ptr : NodePtr} (hptr : ptr ∉ r.ptrs t)
    (hregistered : ∃ resource conf, (t.nodes ptr).mData = some resource ∧
      env.getResConf resource.mResCode = some conf) (listBlock : Bool) :
    Grown env r t ptr (r.addResource t listBlock ptr) := by
  unfold LinkedRequest.addResource
  cases hlist : r.mResourceList with
  | none =>
    have hptrs : r.ptrs t = [] := by simp only [ptrs, hlist]
    cases listBlock with
    | false => exact ⟨h, fun ptr' hptr' => List.mem_cons_of_mem ptr hptr', t.nodes, rfl, .refl⟩
    | true =>
      refine h.insertTo rfl ?_ hptr hregistered
      rw [hptrs]
      exact represents_new t.nodes REQUEST_DL_NR
  | some dlm => exact h.insertTo (h.linker dlm hlist) (h.represents dlm hlist) hptr hregistered

end Listed

end LinkedRequest

namespace LinkedTable

/-- A request that can be inserted: its nodes are no nodes of the requests in the table. -/
structure Insertable (env : Env) (t : LinkedTable) (live : List LinkedRequest) (r : LinkedRequest) :
    Prop where
  listed : r.Listed env t
  fresh : ∀ other ∈ live, ∀ ptr ∈ r.ptrs t, ptr ∉ other.ptrs t

/-- The tables that insertions and removals lead to, with the requests that were inserted and not
removed.  Between the calls the rest of the server may do what it likes with all nodes but those of
these requests. An insertion that gets no timer does nothing to the table; one whose timer does not
start has linked its nodes, and the request is in the table until it is removed. -/
inductive Reached (env : Env) : LinkedTable → List LinkedRequest → Prop where
  | new (nodes : Nodes NodePtr (Option Resource)) : Reached env (LinkedTable.new nodes) []
  | outside {t : LinkedTable} {live : List LinkedRequest} (reached : Reached env t live)
      (nodes : Nodes NodePtr (Option Resource))
      (kept : ∀ r ∈ live, ∀ ptr ∈ r.ptrs t, nodes ptr = t.nodes ptr) :
      Reached env { t with nodes := nodes } live
  | insert {t : LinkedTable} {live : List LinkedRequest} (reached : Reached env t live)
      {r : LinkedRequest} (insertable : Insertable env t live r) (timerBlock : Option Nat)
      (enqueued : Bool) (timer : r.mDuration = -1 ∨ timerBlock ≠ none) :
      Reached env (t.insertRequest env r timerBlock enqueued).2.1
        ((t.insertRequest env r timerBlock enqueued).2.2 :: live)
  | remove {t : LinkedTable} {live : List LinkedRequest} (reached : Reached env t live)
      {r : LinkedRequest} (inserted : r ∈ live) :
      Reached env (t.removeRequest env r) (live.erase r)

/-- The nodes that are linked are those of the requests in the table, each where it is at home. -/
structure Inv (env : Env) (t : LinkedTable) (live : List LinkedRequest) : Prop where
  well : t.WellLinked
  listed : ∀ r ∈ live, r.Listed env t
  apart : live.Pairwise fun r r' => ∀ ptr ∈ r.ptrs t, ptr ∉ r'.ptrs t
  linked : ∀ ptr i k, ptr ∈ t.list i k ↔ ∃ r ∈ live, ptr ∈ r.ptrs t ∧
    CocoTable.home env r.getPriority (t.node ptr) = some (i, k)

section Calls

variable {env : Env} {t t' : LinkedTable} {live : List LinkedRequest} {r : LinkedRequest}
  {timerBlock : Option Nat} {enqueued : Bool}

/-- The request is not changed but for its timer. -/
theorem insertRequest_request :
    ∃ timer, (t.insertRequest env r timerBlock enqueued).2.2 = { r with mTimer := timer } := by
  unfold insertRequest
  split
  · exact ⟨none, rfl⟩
  · simp only
    split
    · exact ⟨_, rfl⟩
    · split <;> exact ⟨_, rfl⟩

/-- Without a timer block nothing is inserted. -/
theorem insertRequest_of_no_timer (h : r.mDuration ≠ -1 ∧ timerBlock = none) :
    (t.insertRequest env r timerBlock enqueued).2.1 = t := by
  unfold insertRequest
  rw [if_pos h]

/-- An insertion that comes to the nodes links all of them. -/
theorem Inv.insertRequest (h : Inv env t live) (hr : Insertable env t live r)
    (htimer : ¬ (r.mDuration ≠ -1 ∧ timerBlock = none)) (enqueued : Bool) :
    (t.insertRequest env r timerBlock enqueued).2.1.toCocoTable =
        t.toCocoTable.insertNodes env r.getPriority ((r.ptrs t).map t.node) ∧
      Kept t (t.insertRequest env r timerBlock enqueued).2.1 := by
  have hfree : ∀ ptr ∈ r.ptrs t, ∀ i k, ptr ∉ t.list i k := by
    intro ptr hptr i k hmem
    obtain ⟨other, hother, hptr', -⟩ := (h.linked ptr i k).mp hmem
    exact hr.fresh other hother ptr hptr hptr'
  unfold LinkedTable.insertRequest
  rw [if_neg htimer]
  cases hlist : r.mResourceList with
  | none =>
    simp only [LinkedRequest.ptrs, hlist]
    exact ⟨rfl, (SameLinks.refl t).kept h.well⟩
  | some dlm =>
    simp only
    have hspec : (t.insertNodes env r.getPriority dlm).toCocoTable =
          t.toCocoTable.insertNodes env r.getPriority ((r.ptrs t).map t.node) ∧
        Kept t (t.insertNodes env r.getPriority dlm) :=
      insertNodes_spec h.well (hr.listed.linker dlm hlist) (hr.listed.represents dlm hlist) hfree
    split <;> exact hspec

/-- A removal unlinks all nodes of the request. -/
theorem Inv.removeRequest (h : Inv env t live) (hr : r ∈ live) :
    (t.removeRequest env r).toCocoTable =
        ((r.ptrs t).map t.node).foldl (fun t node => t.removeNode env node r.getPriority)
          t.toCocoTable ∧
      Kept t (t.removeRequest env r) := by
  have hlisted := h.listed r hr
  cases hlist : r.mResourceList with
  | none =>
    simp only [LinkedRequest.ptrs, LinkedTable.removeRequest, hlist]
    exact ⟨rfl, (SameLinks.refl t).kept h.well⟩
  | some dlm =>
    exact removeRequest_spec h.well hlist (hlisted.linker dlm hlist)
      (hlisted.represents dlm hlist) rfl fun ptr hptr i k hhome =>
        (h.linked ptr i k).mpr ⟨r, hr, hptr, hhome⟩

end Calls

/-! ## What is linked in a reached table -/

section Reached

variable {env : Env} {t t' : LinkedTable} {live live' : List LinkedRequest} {r : LinkedRequest}

/-- What is needed after a call: the requests are listed and apart, and linked is what they say. -/
theorem Inv.of_kept (hkept : Kept t t') (hlisted : ∀ r ∈ live', r.Listed env t)
    (hapart : live'.Pairwise fun r r' => ∀ ptr ∈ r.ptrs t, ptr ∉ r'.ptrs t)
    (hlinked : ∀ ptr i k, t.node ptr ∈ t'.toCocoTable.mCocoTable i k ↔ ∃ r ∈ live',
      ptr ∈ r.ptrs t ∧ CocoTable.home env r.getPriority (t.node ptr) = some (i, k)) :
    Inv env t' live' where
  well := hkept.well
  listed r hr := ((hlisted r hr).kept hkept).2
  apart := by
    refine hapart.imp_of_mem fun {r r'} hr hr' h => ?_
    rw [((hlisted r hr).kept hkept).1, ((hlisted r' hr').kept hkept).1]
    exact h
  linked ptr i k := by
    rw [← node_mem, hkept.node_eq, hlinked]
    refine exists_congr fun r => and_congr_right fun hr => ?_
    rw [((hlisted r hr).kept hkept).1]

/-- An empty table without requests is in order. -/
theorem inv_new (env : Env) (nodes : Nodes NodePtr (Option Resource)) :
    Inv env (LinkedTable.new nodes) [] where
  well := wellLinked_new nodes
  listed _ hr := by cases hr
  apart := List.Pairwise.nil
  linked ptr i k := by
    constructor
    · intro hmem
      cases hmem
    · rintro ⟨r, hr, -⟩
      cases hr

/-- Nodes of no live request may be written at will, as the other threads do that build requests. -/
theorem Inv.outside (h : Inv env t live) {nodes : Nodes NodePtr (Option Resource)}
    (hkept : ∀ r ∈ live, ∀ ptr ∈ r.ptrs t, nodes ptr = t.nodes ptr) :
    Inv env { t with nodes := nodes } live := by
  have hlinked : ∀ i k, ∀ ptr ∈ t.list i k, nodes ptr = t.nodes ptr := by
    intro i k ptr hmem
    obtain ⟨r, hr, hptr, -⟩ := (h.linked ptr i k).mp hmem
    exact hkept r hr ptr hptr
  have hrep : ∀ i k, Represents nodes (t.mCocoTable i k) (t.list i k) :=
    fun i k => (h.well.represents i k).congr (hlinked i k)
  have hlist : ∀ i k, LinkedTable.list { t with nodes := nodes } i k = t.list i k :=
    fun i k => (hrep i k).toList_eq
  have hlisted : ∀ r ∈ live, r.ptrs { t with nodes := nodes } = r.ptrs t ∧
      r.Listed env { t with nodes := nodes } :=
    fun r hr => (h.listed r hr).congr (hkept r hr)
  refine ⟨⟨h.well.linker, fun i k => ?_, fun i k i' k' ptr => ?_⟩, fun r hr => (hlisted r hr).2,
    ?_, fun ptr i k => ?_⟩
  · rw [hlist]
    exact hrep i k
  · rw [hlist, hlist]
    exact h.well.disjoint i k i' k' ptr
  · refine h.apart.imp_of_mem fun {r r'} hr hr' hapart => ?_
    rw [(hlisted r hr).1, (hlisted r' hr').1]
    exact hapart
  · rw [hlist, h.linked]
    refine exists_congr fun r => and_congr_right fun hr => ?_
    rw [(hlisted r hr).1]
    refine and_congr_right fun hptr => ?_
    have hnode : LinkedTable.node { t with nodes := nodes } ptr = t.node ptr := by
      show ResIterable.mk ptr (nodes ptr).mData = ⟨ptr, (t.nodes ptr).mData⟩
      rw [hkept r hr ptr hptr]
    rw [hnode]

/-- An insertion keeps the table in order. -/
theorem Inv.insert (h : Inv env t live) (hr : Insertable env t live r) {timerBlock : Option Nat}
    {enqueued : Bool} (htimer : ¬ (r.mDuration ≠ -1 ∧ timerBlock = none)) :
    Inv env (t.insertRequest env r timerBlock enqueued).2.1
      ((t.insertRequest env r timerBlock enqueued).2.2 :: live) := by
  obtain ⟨htable, hkept⟩ := h.insertRequest hr htimer enqueued
  obtain ⟨timer, hrequest⟩ := @insertRequest_request env t r timerBlock enqueued
  rw [hrequest]
  refine .of_kept hkept ?_ ?_ fun ptr i k => ?_
  · rintro other (_ | ⟨_, hother⟩)
    · exact ⟨hr.listed.linker, hr.listed.represents, hr.listed.registered⟩
    · exact h.listed other hother
  · exact List.pairwise_cons.mpr ⟨fun other hother => hr.fresh other hother, h.apart⟩
  · rw [htable, CocoTable.mem_insertNodes, node_mem, h.linked, List.mem_map]
    constructor
    · rintro (⟨other, hother, hptr, hhome⟩ | ⟨⟨ptr', hptr', heq⟩, hhome⟩)
      · exact ⟨other, List.mem_cons_of_mem _ hother, hptr, hhome⟩
      · rw [node_inj.mp heq] at hptr'
        exact ⟨_, List.mem_cons_self, hptr', hhome⟩
    · rintro ⟨other, _ | ⟨_, hother⟩, hptr, hhome⟩
      · exact Or.inr ⟨⟨ptr, hptr, rfl⟩, hhome⟩
      · exact Or.inl ⟨other, hother, hptr, hhome⟩

/-- A request that is removed shares no node with those that stay. -/
theorem Inv.apart_of_erase (h : Inv env t live) (hr : r ∈ live) {other : LinkedRequest}
    (hother : other ∈ live.erase r) {ptr : NodePtr} (hptr : ptr ∈ other.ptrs t) :
    ptr ∉ r.ptrs t := by
  have hsymm : ∀ {r r' : LinkedRequest}, (∀ ptr ∈ r.ptrs t, ptr ∉ r'.ptrs t) →
      ∀ ptr ∈ r'.ptrs t, ptr ∉ r.ptrs t := fun h ptr hptr hptr' => h ptr hptr' hptr
  have hapart := ((List.perm_cons_erase hr).pairwise_iff hsymm).mp h.apart
  exact fun hmem => (List.pairwise_cons.mp hapart).1 other hother ptr hmem hptr

/-- So does a removal. -/
theorem Inv.remove (h : Inv env t live) (hr : r ∈ live) :
    Inv env (t.removeRequest env r) (live.erase r) := by
  obtain ⟨htable, hkept⟩ := h.removeRequest hr
  refine .of_kept hkept (fun other hother => h.listed other (List.mem_of_mem_erase hother))
    (h.apart.sublist List.erase_sublist) fun ptr i k => ?_
  rw [htable, CocoTable.mem_removeNodes, node_mem, h.linked, List.mem_map]
  constructor
  · rintro ⟨⟨other, hother, hptr, hhome⟩, hno⟩
    refine ⟨other, (List.mem_erase_of_ne ?_).mpr hother, hptr, hhome⟩
    rintro rfl
    exact hno ⟨⟨ptr, hptr, rfl⟩, hhome⟩
  · rintro ⟨other, hother, hptr, hhome⟩
    refine ⟨⟨other, List.mem_of_mem_erase hother, hptr, hhome⟩, ?_⟩
    rintro ⟨⟨ptr', hptr', heq⟩, -⟩
    rw [node_inj.mp heq] at hptr'
    exact h.apart_of_erase hr hother hptr hptr'

/-- And so does every sequence of calls. -/
theorem Reached.inv (reached : Reached env t live) : Inv env t live := by
  induction reached with
  | new nodes => exact inv_new env nodes
  | outside reached nodes kept ih => exact ih.outside kept
  | insert reached insertable timerBlock enqueued timer ih =>
    exact ih.insert insertable fun hno => hno.1 (timer.resolve_right fun h => h hno.2)
  | remove reached inserted ih => exact ih.remove inserted

/-- A request is built between the calls. -/
theorem Reached.addResource (reached : Reached env t live) (hr : Insertable env t live r)
    (ptr : NodePtr) (hfresh : ∀ other ∈ live, ptr ∉ other.ptrs t) (hptr : ptr ∉ r.ptrs t)
    (hregistered : ∃ resource conf, (t.nodes ptr).mData = some resource ∧
      env.getResConf resource.mResCode = some conf) (listBlock : Bool) :
    Reached env (r.addResource t listBlock ptr).1 live ∧
      Insertable env (r.addResource t listBlock ptr).1 live (r.addResource t listBlock ptr).2 := by
  have hgrown := hr.listed.addResource hptr hregistered listBlock
  obtain ⟨nodes, htable, hedited⟩ := hgrown.nodes
  have hapart : ∀ other ∈ live, ∀ ptr' ∈ other.ptrs t, ptr' ∉ ptr :: r.ptrs t := by
    intro other hother ptr' hptr' hmem
    rcases List.mem_cons.mp hmem with rfl | hold
    · exact hfresh other hother hptr'
    · exact hr.fresh other hother ptr' hold hptr'
  have hkept : ∀ other ∈ live, ∀ ptr' ∈ other.ptrs t, nodes ptr' = t.nodes ptr' :=
    fun other hother ptr' hptr' => hedited.eq_of_not (hapart other hother ptr' hptr')
  have houtside := reached.outside nodes hkept
  rw [← htable] at houtside
  refine ⟨houtside, hgrown.listed, fun other hother ptr' hptr' => ?_⟩
  have hother' : other.ptrs (r.addResource t listBlock ptr).1 = other.ptrs t := by
    rw [htable]
    exact ((reached.inv.listed other hother).congr (hkept other hother)).1
  rw [hother']
  exact fun hmem => hapart other hother ptr' hmem (hgrown.ptrs ptr' hptr')

end Reached

/-! ## Isolation -/

/-- What a call for a request does to the callbacks, to the rows of registered codes that the request
does not name, and to the request's own list.  A list *holds* nodes when it links them in this order,
from the head and from the tail. -/
structure Isolated (env : Env) (r : LinkedRequest) (t t' : LinkedTable) : Prop where
  callbacks : ∃ ran, t'.mCallbacks = t.mCallbacks ++ ran ∧ ∀ event ∈ ran,
    ∃ resource, event.node.mData = some resource ∧ resource.mResCode ∈ r.codes t
  lists : ∀ code ∉ r.codes t, ∀ i : Nat, CocoTable.getCocoTablePrimaryIndex env code = i → ∀ k,
    t'.mCocoTable i k = t.mCocoTable i k ∧
      Represents t'.nodes (t'.mCocoTable i k) (t.list i k)
  priority : ∀ code ∉ r.codes t, ∀ i : Nat, CocoTable.getCocoTablePrimaryIndex env code = i →
    t'.mCurrentlyAppliedPriority i = t.mCurrentlyAppliedPriority i
  own : ∀ dlm, r.mResourceList = some dlm → Represents t'.nodes dlm (r.ptrs t)
  data : t'.node = t.node

section Isolated

variable {env : Env} {t t' : LinkedTable} {live : List LinkedRequest} {r : LinkedRequest}

/-- A call that is confined to the codes of the request leaves every other resource alone. -/
theorem isolated_of_confined (hwell : t.WellLinked) (hlisted : r.Listed env t) (hkept : Kept t t')
    (hconfined : CocoTable.Confined env (r.codes t) t.toCocoTable t'.toCocoTable) :
    Isolated env r t t' where
  callbacks := hconfined.callbacks
  lists code hcode i hi k := by
    have hlists : (t'.list i k).map t'.node = (t.list i k).map t.node :=
      congrFun (hconfined.lists code hcode i hi) k
    have hlist : t'.list i k = t.list i k := by
      rw [hkept.node_eq] at hlists
      exact (List.map_inj_right fun a b => node_inj.mp).mp hlists
    have hrep := hkept.well.represents i k
    rw [hlist] at hrep
    refine ⟨?_, hrep⟩
    exact hrep.dlm_eq (hwell.represents i k)
      ((hkept.well.linker i k).trans (hwell.linker i k).symm)
  priority := hconfined.priority
  own dlm hlist := hkept.represents (hlisted.linker dlm hlist) (hlisted.represents dlm hlist)
  data := hkept.node_eq

/-- The nodes of a request carry its codes. -/
theorem carries_codes (hlisted : r.Listed env t) :
    CocoTable.Carries (r.codes t) ((r.ptrs t).map t.node) := by
  intro node hnode
  obtain ⟨ptr, hptr, rfl⟩ := List.mem_map.mp hnode
  obtain ⟨resource, conf, hdata, -⟩ := hlisted.registered ptr hptr
  refine ⟨resource, hdata, ?_⟩
  exact List.mem_filterMap.mpr ⟨ptr, hptr, by rw [hdata]; rfl⟩

/-- Every node of the table is in the row of its resource. -/
theorem Inv.inRow (h : Inv env t live) : CocoTable.InRow env t.toCocoTable := by
  intro i k node hnode
  obtain ⟨ptr, hptr, rfl⟩ := List.mem_map.mp hnode
  obtain ⟨r, -, -, hhome⟩ := (h.linked ptr i k).mp hptr
  exact CocoTable.row_of_home hhome

/-- In every table that insertions and removals lead to, a further insertion and the removal of a
request that is in the table leave alone what is not theirs. -/
theorem isolated_of_reached (reached : Reached env t live) :
    (∀ r timerBlock enqueued, Insertable env t live r →
        Isolated env r t (t.insertRequest env r timerBlock enqueued).2.1) ∧
      ∀ r ∈ live, Isolated env r t (t.removeRequest env r) := by
  have hinv := reached.inv
  constructor
  · intro r timerBlock enqueued hr
    by_cases htimer : r.mDuration ≠ -1 ∧ timerBlock = none
    · rw [insertRequest_of_no_timer htimer]
      exact isolated_of_confined hinv.well hr.listed ⟨hinv.well, .refl⟩ .refl
    · obtain ⟨htable, hkept⟩ := hinv.insertRequest hr htimer enqueued
      refine isolated_of_confined hinv.well hr.listed hkept ?_
      rw [htable]
      exact CocoTable.confined_insertNodes (carries_codes hr.listed)
  · intro r hr
    have hlisted := hinv.listed r hr
    obtain ⟨htable, hkept⟩ := hinv.removeRequest hr
    refine isolated_of_confined hinv.well hlisted hkept ?_
    rw [htable]
    exact CocoTable.confined_removeNodes (carries_codes hlisted) hinv.inRow

end Isolated

namespace Sample

open ResourceTuner.Sample

/-- Nodes for the global resource at even places, for the one of core 3 at odd ones. -/
def nodes : Nodes NodePtr (Option Resource) := fun ptr =>
  ⟨some (if ptr.2 % 2 = 0 then .ofValues (code 1) 0 0 [5] else .ofValues (code 2) 3 0 [6]),
    ⟨none, none⟩, ⟨none, none⟩⟩

/-- A request without resources. -/
def blank (handle : Nat) : LinkedRequest where
  toMessage := (request handle 0 []).toMessage
  mTimer := none
  mResourceList := none

/-- A request for both resources, not inserted yet. -/
def both : LinkedTable × LinkedRequest :=
  let one := (blank 1).addResource (LinkedTable.new nodes) true (1, 0)
  one.2.addResource one.1 true (1, 1)

/-- The same inserted. -/
def inserted : Bool × LinkedTable × LinkedRequest := both.1.insertRequest env both.2 none false

/-- Beside it a request for the core. -/
def core : LinkedTable × LinkedRequest := (blank 2).addResource inserted.2.1 true (2, 1)

/-- A request without resources can always be inserted. -/
theorem insertable_blank (t : LinkedTable) (live : List LinkedRequest) (handle : Nat) :
    Insertable env t live (blank handle) where
  listed := LinkedRequest.listed_of_no_list rfl
  fresh _ _ ptr hptr := by cases hptr

end Sample

/-- The request for the core comes, and leaves the row of the global resource; the other leaves. -/
theorem isolated_sample :
    Isolated Sample.env Sample.core.2 Sample.core.1
        (Sample.core.1.insertRequest Sample.env Sample.core.2 none false).2.1 ∧
      Isolated Sample.env Sample.inserted.2.2 Sample.core.1
        (Sample.core.1.removeRequest Sample.env Sample.inserted.2.2) := by
  have start : Reached Sample.env (LinkedTable.new Sample.nodes) [] := .new _
  obtain ⟨reached₁, one⟩ := start.addResource (Sample.insertable_blank _ _ 1) (1, 0)
    (by decide) (by decide) ⟨_, _, rfl, rfl⟩ true
  obtain ⟨reached₂, both⟩ := reached₁.addResource one (1, 1)
    (by decide) (by decide) ⟨_, _, rfl, rfl⟩ true
  have reached₃ := reached₂.insert both none false (Or.inl rfl)
  obtain ⟨reached₄, core⟩ := reached₃.addResource (Sample.insertable_blank _ _ 2) (2, 1)
    (by decide) (by decide) ⟨_, _, rfl, rfl⟩ true
  obtain ⟨hinsert, hremove⟩ := isolated_of_reached reached₄
  exact ⟨hinsert _ none false core, hremove _ List.mem_cons_self⟩

end LinkedTable

end ResourceTuner
