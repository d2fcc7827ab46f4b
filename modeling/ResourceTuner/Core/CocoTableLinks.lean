import ResourceTuner.Core.CocoTableSlots

/-!
# Which nodes are linked

The arbitration results follow one slot through the calls on the table.  Whether a request may be
freed needs less and needs it of every node: where a call links a node, and that the call that
unlinks it looks in the same place, whatever the priority byte of the request holds.

* **`home`** — the list a node is linked in;
* **`mem_insertNodes`, `mem_removeRequest`** — what is linked after the two calls;
* **`Starts`** — the insertion does not fail half way.
-/

namespace ResourceTuner

namespace CocoTable

/-- The list both `insertInCocoTable` and `removeRequest` compute for a node, none for a
pass-through resource and for indices out of range. -/
def home (env : Env) (priority : Int) (node : ResIterable) : Option (Nat × Nat) :=
  match node.mData with
  | none => none
  | some resource =>
    match env.getResConf resource.mResCode with
    | none => none
    | some rConf =>
      if rConf.mPolicy = .PASS_THROUGH then none else tableIndex env resource priority

/-- Some node of the request is in a list of the table. -/
def Linked (t : CocoTable) (req : Nat) : Prop :=
  ∃ i k, ∃ node ∈ t.mCocoTable i k, node.addr.1 = req

theorem not_linked_new (req : Nat) : ¬ new.Linked req := by
  rintro ⟨i, k, node, hnode, -⟩
  cases hnode

section Links

variable {env : Env} {t : CocoTable} {node node' : ResIterable} {priority : Int} {i k : Nat}

/-- A node with a home carries a resource of the row, which is not passed through. -/
theorem data_of_home (h : home env priority node = some (i, k)) :
    ∃ resource conf, node.mData = some resource ∧ tableIndex env resource priority = some (i, k) ∧
      env.getResConf resource.mResCode = some conf ∧
      env.resourceRegistry.mResourceConfigs[i]? = some conf ∧ conf.mPolicy ≠ .PASS_THROUGH := by
  unfold home at h
  cases hdata : node.mData with
  | none => simp [hdata] at h
  | some resource =>
    cases hconf : env.getResConf resource.mResCode with
    | none => simp [hdata, hconf] at h
    | some conf =>
      simp only [hdata, hconf] at h
      split at h
      · cases h
      · rename_i hpolicy
        exact ⟨resource, conf, rfl, h, hconf, getResConf_of_tableIndex h ▸ hconf, hpolicy⟩

/-- A node is linked in the list where it is at home. -/
theorem insertInCocoTable_of_home {conf : ResConfInfo}
    (hhome : home env priority node' = some (i, k))
    (hrow : env.resourceRegistry.mResourceConfigs[i]? = some conf) :
    (t.insertInCocoTable env node' priority).2.mCocoTable i k =
      insertByPolicy conf.mPolicy node' (t.mCocoTable i k) := by
  obtain ⟨resource, conf', hdata, hindex, hconf, hrow', hpolicy⟩ := data_of_home hhome
  obtain rfl : conf' = conf := Option.some.inj (hrow'.symm.trans hrow)
  simp only [insertInCocoTable, hdata, hconf, hpolicy, if_false, hindex]
  split <;> simp [setList_mCocoTable]

theorem insertInCocoTable_of_ne (hne : home env priority node' ≠ some (i, k)) :
    (t.insertInCocoTable env node' priority).2.mCocoTable i k = t.mCocoTable i k := by
  cases hdata : node'.mData with
  | none => simp [insertInCocoTable, hdata]
  | some resource =>
    cases hconf : env.getResConf resource.mResCode with
    | none => simp [insertInCocoTable, hdata, hconf]
    | some rConf =>
      by_cases hpolicy : rConf.mPolicy = .PASS_THROUGH
      · simp only [insertInCocoTable, hdata, hconf, hpolicy, if_true, fastPathApply]
        split <;> simp
      · cases hindex : tableIndex env resource priority with
        | none => simp [insertInCocoTable, hdata, hconf, hpolicy, hindex]
        | some index =>
          obtain ⟨i', k'⟩ := index
          have hother : ¬ (i = i' ∧ k = k') := by
            rintro ⟨rfl, rfl⟩
            exact hne (by simp [home, hdata, hconf, hpolicy, hindex])
          simp only [insertInCocoTable, hdata, hconf, hpolicy, if_false, hindex]
          split <;> simp [setList_mCocoTable, hother]

theorem mem_insertInCocoTable :
    node ∈ (t.insertInCocoTable env node' priority).2.mCocoTable i k ↔
      node ∈ t.mCocoTable i k ∨ node = node' ∧ home env priority node' = some (i, k) := by
  by_cases hhome : home env priority node' = some (i, k)
  · obtain ⟨-, conf, -, -, -, hrow, hpolicy⟩ := data_of_home hhome
    rw [insertInCocoTable_of_home hhome hrow, mem_insertByPolicy hpolicy]
    simp [hhome, or_comm]
  · rw [insertInCocoTable_of_ne hhome]
    simp [hhome]

/-- The lists of one request, node by node. -/
theorem mem_insertNodes {nodes : List ResIterable} :
    node ∈ (t.insertNodes env priority nodes).mCocoTable i k ↔
      node ∈ t.mCocoTable i k ∨ node ∈ nodes ∧ home env priority node = some (i, k) := by
  induction nodes generalizing t with
  | nil => simp [insertNodes]
  | cons first rest ih =>
    have hcons : t.insertNodes env priority (first :: rest) =
        (t.insertInCocoTable env first priority).2.insertNodes env priority rest := rfl
    rw [hcons, ih, mem_insertInCocoTable, List.mem_cons]
    constructor
    · rintro ((h | ⟨rfl, h⟩) | ⟨hmem, h⟩)
      · exact Or.inl h
      · exact Or.inr ⟨Or.inl rfl, h⟩
      · exact Or.inr ⟨Or.inr hmem, h⟩
    · rintro (h | ⟨rfl | hmem, h⟩)
      · exact Or.inl (Or.inl h)
      · exact Or.inl (Or.inr ⟨rfl, h⟩)
      · exact Or.inr ⟨hmem, h⟩

@[simp] theorem afterEmptied_mCocoTable (base : Int) :
    (t.afterEmptied env i base node).mCocoTable = t.mCocoTable := by
  unfold afterEmptied
  split
  · rfl
  split
  · split <;> simp
  · simp

/-- A node is taken out of the list where it is at home. -/
theorem removeNode_mCocoTable :
    (t.removeNode env node' priority).mCocoTable i k =
      if home env priority node' = some (i, k) then DLManager.deleteNode (t.mCocoTable i k) node'
      else t.mCocoTable i k := by
  cases hdata : node'.mData with
  | none => simp [removeNode, home, hdata]
  | some resource =>
    cases hconf : env.getResConf resource.mResCode with
    | none => simp [removeNode, home, hdata, hconf]
    | some rConf =>
      by_cases hpolicy : rConf.mPolicy = .PASS_THROUGH
      · simp only [removeNode, home, hdata, hconf, hpolicy, if_true, fastPathReset]
        split <;> simp
      · cases hindex : tableIndex env resource priority with
        | none => simp [removeNode, home, hdata, hconf, hpolicy, hindex]
        | some index =>
          obtain ⟨i', k'⟩ := index
          have hlists : (t.removeNode env node' priority).mCocoTable =
              (t.setList i' k' (DLManager.deleteNode (t.mCocoTable i' k') node')).mCocoTable := by
            simp only [removeNode, hdata, hconf, hpolicy, if_false, hindex]
            split
            · simp_all
            · split <;> simp_all
          rw [hlists, setList_mCocoTable]
          simp only [home, hdata, hconf, hpolicy, if_false, hindex, Option.some.injEq,
            Prod.mk.injEq]
          by_cases hat : i = i' ∧ k = k'
          · obtain ⟨rfl, rfl⟩ := hat
            simp
          · rw [if_neg hat, if_neg (fun h => hat ⟨h.1.symm, h.2.symm⟩)]

theorem mem_removeNode :
    node ∈ (t.removeNode env node' priority).mCocoTable i k ↔
      node ∈ t.mCocoTable i k ∧ ¬ (node = node' ∧ home env priority node' = some (i, k)) := by
  rw [removeNode_mCocoTable]
  split
  · rename_i hhome
    simp [DLManager.deleteNode, hhome]
  · rename_i hhome
    simp [hhome]

/-- The loop of `removeRequest`, node by node. -/
theorem mem_removeNodes {nodes : List ResIterable} :
    node ∈ (nodes.foldl (fun t node => t.removeNode env node priority) t).mCocoTable i k ↔
      node ∈ t.mCocoTable i k ∧ ¬ (node ∈ nodes ∧ home env priority node = some (i, k)) := by
  induction nodes generalizing t with
  | nil => simp
  | cons first rest ih =>
    rw [List.foldl_cons, ih, mem_removeNode, List.mem_cons]
    constructor
    · rintro ⟨⟨h, hfirst⟩, hrest⟩
      refine ⟨h, ?_⟩
      rintro ⟨rfl | hmem, hhome⟩
      · exact hfirst ⟨rfl, hhome⟩
      · exact hrest ⟨hmem, hhome⟩
    · rintro ⟨h, hno⟩
      refine ⟨⟨h, ?_⟩, ?_⟩
      · rintro ⟨rfl, hhome⟩
        exact hno ⟨Or.inl rfl, hhome⟩
      · rintro ⟨hmem, hhome⟩
        exact hno ⟨Or.inr hmem, hhome⟩

theorem mem_removeRequest {request : Request} :
    node ∈ (t.removeRequest env request).mCocoTable i k ↔
      node ∈ t.mCocoTable i k ∧
        ¬ (node ∈ request.nodes ∧ home env request.getPriority node = some (i, k)) :=
  mem_removeNodes

theorem filter_removeNode {others : ResIterable → Bool} (h : others node' = false) :
    ((t.removeNode env node' priority).mCocoTable i k).filter others =
      (t.mCocoTable i k).filter others := by
  rw [removeNode_mCocoTable]
  split
  · rw [DLManager.deleteNode, List.filter_filter]
    refine List.filter_congr fun node _ => ?_
    by_cases heq : node = node'
    · subst heq
      simp [h]
    · simp [heq]
  · rfl

/-- The nodes of other requests stay in their lists, in the same order. -/
theorem filter_removeRequest {request : Request} {others : ResIterable → Bool}
    (h : ∀ node ∈ request.nodes, others node = false) :
    ((t.removeRequest env request).mCocoTable i k).filter others =
      (t.mCocoTable i k).filter others := by
  unfold removeRequest
  generalize request.getPriority = priority
  generalize request.nodes = nodes at h
  induction nodes generalizing t with
  | nil => rfl
  | cons first rest ih =>
    rw [List.foldl_cons, ih fun node hnode => h node (List.mem_cons_of_mem _ hnode),
      filter_removeNode (h first List.mem_cons_self)]

end Links

/-! ## Insertions that fail -/

/-- The insertion of a request does not fail after its nodes were linked: it needs no timer, gets
none, starts it, or has no node to link. -/
def Starts (env : Env) (request : Request) (timerBlock : Option Nat) (enqueued : Bool) : Prop :=
  request.mDuration = -1 ∨ timerBlock = none ∨ startTimer request.mDuration enqueued ∨
    ∀ node ∈ request.nodes, home env request.getPriority node = none

instance (env : Env) (request : Request) (timerBlock : Option Nat) (enqueued : Bool) :
    Decidable (Starts env request timerBlock enqueued) :=
  inferInstanceAs (Decidable (_ ∨ _ ∨ _ ∨ _))

section Insertion

variable {env : Env} {t : CocoTable} {request : Request} {timerBlock : Option Nat} {enqueued : Bool}

/-- An insertion changes the request in its timer only. -/
theorem insertRequest_request :
    ∃ timer, (t.insertRequest env request timerBlock enqueued).2.2 =
      { request with mTimer := timer } := by
  unfold insertRequest
  split
  · exact ⟨none, rfl⟩
  · simp only
    split
    · exact ⟨_, rfl⟩
    · split <;> exact ⟨_, rfl⟩

/-- An infinite request is left without a timer. -/
theorem insertRequest_request_of_infinite (h : request.mDuration = -1) :
    (t.insertRequest env request timerBlock enqueued).2.2 = { request with mTimer := none } := by
  unfold insertRequest
  simp only [h, ne_eq, not_true_eq_false, false_and, if_false]
  split <;> rfl

/-- An insertion leaves the lists as they were, before it linked a node, or links all nodes. -/
theorem insertRequest_table :
    (t.insertRequest env request timerBlock enqueued).2.1 = t ∧
        (t.insertRequest env request timerBlock enqueued).1 = false ∨
      (t.insertRequest env request timerBlock enqueued).2.1 =
        t.insertNodes env request.getPriority request.nodes := by
  unfold insertRequest
  split
  · exact Or.inl ⟨rfl, rfl⟩
  · simp only
    cases hlist : request.mResourceList with
    | none => exact Or.inl ⟨rfl, rfl⟩
    | some nodes =>
      refine Or.inr ?_
      simp only [Request.nodes, hlist, Option.getD_some]
      split <;> rfl

/-- An insertion links nothing but the nodes of its request, at home. -/
theorem mem_insertRequest {node : ResIterable} {i k : Nat}
    (h : node ∈ (t.insertRequest env request timerBlock enqueued).2.1.mCocoTable i k) :
    node ∈ t.mCocoTable i k ∨
      node ∈ request.nodes ∧ home env request.getPriority node = some (i, k) := by
  rcases @insertRequest_table env t request timerBlock enqueued with ⟨ht, -⟩ | ht
  · rw [ht] at h
    exact Or.inl h
  · rw [ht] at h
    exact mem_insertNodes.mp h

/-- What a failed insertion has linked, when it could not fail half way: nothing. -/
theorem mem_insertRequest_of_starts (hstarts : Starts env request timerBlock enqueued)
    (hfailed : (t.insertRequest env request timerBlock enqueued).1 = false) {node : ResIterable}
    {i k : Nat} (h : node ∈ (t.insertRequest env request timerBlock enqueued).2.1.mCocoTable i k) :
    node ∈ t.mCocoTable i k := by
  rcases mem_insertRequest h with hold | ⟨hmem, hhome⟩
  · exact hold
  have hno : ¬ ∀ node ∈ request.nodes, home env request.getPriority node = none := by
    intro hnone
    rw [hnone node hmem] at hhome
    cases hhome
  unfold insertRequest at h hfailed
  split at h
  · exact h
  rename_i hblock
  simp only [hblock, if_false] at h hfailed
  cases hlist : request.mResourceList with
  | none => simpa [hlist] using h
  | some nodes =>
    simp only [hlist] at hfailed
    split at hfailed
    · rename_i hstart
      rcases hstarts with hinf | hnone | hrun | hnodes
      · exact absurd hinf hstart.1
      · exact absurd ⟨hstart.1, hnone⟩ hblock
      · exact absurd hrun hstart.2
      · exact absurd hnodes hno
    · cases hfailed

end Insertion

end CocoTable

end ResourceTuner
