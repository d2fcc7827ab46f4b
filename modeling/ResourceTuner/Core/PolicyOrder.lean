import Mathlib.Order.OrderDual
import ResourceTuner.Core.CocoTableLinks
import ResourceTuner.Lib.StableOrder

/-!
# The order of the priority lists

`insertInCocoTable` links a new node where the policy of its resource wants it, and `removeRequest`
takes nodes out wherever they are.  Both comparators are strict, so a newcomer never passes a node
with its own value, and what a list holds depends on the order of arrival only.

* **`TableCall`** — the two calls;
* **`arrivals`**, **`waiting`** — the nodes inserted and not removed, as they arrived;
* **`PolicyOrdered`**, **`Prescribed`** — the order a policy wants, and the node it wants first;
* **`ordered_step`**, **`policyOrder_of_calls`** — one operation, and all calls.
-/

namespace ResourceTuner

namespace CocoTable

/-! ## Who is in which list -/

/-- The value by which the comparators compare a node. -/
def valueOf (node : ResIterable) : Int := (node.mData.map comparValue).getD 0

/-- The nodes inserted and not removed, with the priorities they came with, as they arrived. -/
def arrive (arrived : List (Int × ResIterable)) : NodeOp → List (Int × ResIterable)
  | .insert priority node => arrived ++ [(priority, node)]
  | .remove priority node => arrived.filter (· ≠ (priority, node))

def arrivals (ops : List NodeOp) : List (Int × ResIterable) := ops.foldl arrive []

/-- Those of them that belong to a list. -/
def waiting (env : Env) (arrived : List (Int × ResIterable)) (i k : Nat) : List ResIterable :=
  (arrived.filter fun entry => home env entry.1 entry.2 = some (i, k)).map Prod.snd

/-- A node is inserted when it is not linked, and removed with the priority it was inserted with. -/
def NodeOp.Allowed (arrived : List (Int × ResIterable)) : NodeOp → Prop
  | .insert _ node => node ∉ arrived.map Prod.snd
  | .remove priority node => (priority, node) ∈ arrived

def AllAllowed (arrived : List (Int × ResIterable)) : List NodeOp → Prop
  | [] => True
  | op :: ops => op.Allowed arrived ∧ AllAllowed (arrive arrived op) ops

instance (arrived : List (Int × ResIterable)) : (op : NodeOp) → Decidable (op.Allowed arrived)
  | .insert _ node => inferInstanceAs (Decidable (node ∉ arrived.map Prod.snd))
  | .remove priority node => inferInstanceAs (Decidable ((priority, node) ∈ arrived))

instance decidableAllAllowed (arrived : List (Int × ResIterable)) :
    (ops : List NodeOp) → Decidable (AllAllowed arrived ops)
  | [] => inferInstanceAs (Decidable True)
  | op :: ops =>
    have := decidableAllAllowed (arrive arrived op) ops
    inferInstanceAs (Decidable (op.Allowed arrived ∧ AllAllowed (arrive arrived op) ops))

/-- A call on the table: a node is inserted, or the nodes of a request are removed. -/
inductive TableCall where
  | insertInCocoTable (newNode : ResIterable) (priority : Int)
  | removeRequest (request : Request)

def TableCall.ops : TableCall → List NodeOp
  | .insertInCocoTable newNode priority => [.insert priority newNode]
  | .removeRequest request => request.nodes.map (.remove request.getPriority)

def TableCall.apply (env : Env) (t : CocoTable) : TableCall → CocoTable
  | .insertInCocoTable newNode priority => (t.insertInCocoTable env newNode priority).2
  | .removeRequest request => t.removeRequest env request

/-! ## What the policies want -/

/-- The order a policy wants for nodes that arrived in this order. -/
def PolicyOrdered (policy : Policy) (arrived l : List ResIterable) : Prop :=
  match policy with
  | .INSTANT_APPLY => l = arrived.reverse
  | .LAZY_APPLY => l = arrived
  | .HIGHER_BETTER =>
    l.Perm arrived ∧ (l.Pairwise fun a b => valueOf b ≤ valueOf a) ∧
      ∀ v, l.filter (valueOf · = v) = arrived.filter (valueOf · = v)
  | .LOWER_BETTER =>
    l.Perm arrived ∧ (l.Pairwise fun a b => valueOf a ≤ valueOf b) ∧
      ∀ v, l.filter (valueOf · = v) = arrived.filter (valueOf · = v)
  | .PASS_THROUGH => l = []

/-- The node a policy wants first. -/
def Prescribed (policy : Policy) (arrived : List ResIterable) (head : ResIterable) : Prop :=
  match policy with
  | .INSTANT_APPLY => arrived.getLast? = some head
  | .LAZY_APPLY => arrived.head? = some head
  | .HIGHER_BETTER =>
    (∀ node ∈ arrived, valueOf node ≤ valueOf head) ∧
      (arrived.filter (valueOf · = valueOf head)).head? = some head
  | .LOWER_BETTER =>
    (∀ node ∈ arrived, valueOf head ≤ valueOf node) ∧
      (arrived.filter (valueOf · = valueOf head)).head? = some head
  | .PASS_THROUGH => False

section Policies

variable {policy : Policy} {arrived l : List ResIterable} {node head : ResIterable}

theorem higherBetter_iff :
    PolicyOrdered .HIGHER_BETTER arrived l ↔ Stable valueOf arrived l :=
  ⟨fun ⟨hperm, hsorted, hties⟩ => ⟨hperm, hsorted, hties⟩,
    fun h => ⟨h.perm, h.sorted, h.ties⟩⟩

/-- For the other comparator the smaller value is the greater key. -/
theorem lowerBetter_iff :
    PolicyOrdered .LOWER_BETTER arrived l ↔ Stable (OrderDual.toDual ∘ valueOf) arrived l :=
  ⟨fun ⟨hperm, hsorted, hties⟩ => ⟨hperm, hsorted, hties⟩,
    fun h => ⟨h.perm, h.sorted, h.ties⟩⟩

/-- The head of a list in order is the node the policy prescribes. -/
theorem prescribed_of_head (h : PolicyOrdered policy arrived l) (hhead : l.head? = some head) :
    Prescribed policy arrived head := by
  cases policy with
  | INSTANT_APPLY =>
    obtain rfl : l = arrived.reverse := h
    rwa [List.head?_reverse] at hhead
  | LAZY_APPLY =>
    obtain rfl : l = arrived := h
    exact hhead
  | HIGHER_BETTER => exact (higherBetter_iff.mp h).head hhead
  | LOWER_BETTER => exact (lowerBetter_iff.mp h).head hhead
  | PASS_THROUGH =>
    obtain rfl : l = [] := h
    cases hhead

theorem policyOrdered_nil (policy : Policy) : PolicyOrdered policy [] [] := by
  cases policy with
  | INSTANT_APPLY | LAZY_APPLY | PASS_THROUGH => rfl
  | HIGHER_BETTER => exact higherBetter_iff.mpr .nil
  | LOWER_BETTER => exact lowerBetter_iff.mpr .nil

/-- Nodes leave. -/
theorem policyOrdered_filter (h : PolicyOrdered policy arrived l) (p : ResIterable → Bool) :
    PolicyOrdered policy (arrived.filter p) (l.filter p) := by
  cases policy with
  | INSTANT_APPLY =>
    obtain rfl : l = arrived.reverse := h
    exact List.filter_reverse
  | LAZY_APPLY =>
    obtain rfl : l = arrived := h
    rfl
  | HIGHER_BETTER => exact higherBetter_iff.mpr ((higherBetter_iff.mp h).filter p)
  | LOWER_BETTER => exact lowerBetter_iff.mpr ((lowerBetter_iff.mp h).filter p)
  | PASS_THROUGH =>
    obtain rfl : l = [] := h
    rfl

theorem perm_of_policyOrdered (h : PolicyOrdered policy arrived l) (hpolicy : policy ≠ .PASS_THROUGH) :
    l.Perm arrived := by
  cases policy with
  | INSTANT_APPLY =>
    obtain rfl : l = arrived.reverse := h
    exact List.reverse_perm arrived
  | LAZY_APPLY =>
    obtain rfl : l = arrived := h
    exact .refl _
  | HIGHER_BETTER | LOWER_BETTER => exact h.1
  | PASS_THROUGH => exact absurd rfl hpolicy

/-- The search for the place of a node is Mathlib's, for any relation that agrees with the policy. -/
theorem insertWithPolicy_eq_orderedInsert {policyCB : ResIterable → ResIterable → Bool}
    {r : ResIterable → ResIterable → Prop} [DecidableRel r]
    (hagree : ∀ b ∈ l, policyCB node b = true ↔ r node b) :
    DLManager.insertWithPolicy policyCB node l = l.orderedInsert r node := by
  induction l with
  | nil => rfl
  | cons b rest ih =>
    have hb := hagree b List.mem_cons_self
    rw [DLManager.insertWithPolicy, List.orderedInsert_cons,
      ih fun b' hb' => hagree b' (List.mem_cons_of_mem b hb')]
    by_cases hpolicy : policyCB node b
    · rw [if_pos hpolicy, if_pos (hb.mp hpolicy)]
    · rw [if_neg hpolicy, if_neg fun hr => hpolicy (hb.mpr hr)]

/-- A node arrives at a list in order.  All nodes carry a resource. -/
theorem policyOrdered_insertByPolicy (h : PolicyOrdered policy arrived l)
    (hpolicy : policy ≠ .PASS_THROUGH) (hnode : node.mData.isSome)
    (hl : ∀ b ∈ l, b.mData.isSome) :
    PolicyOrdered policy (arrived ++ [node]) (insertByPolicy policy node l) := by
  obtain ⟨resource, hresource⟩ := Option.isSome_iff_exists.mp hnode
  cases policy with
  | INSTANT_APPLY =>
    obtain rfl : l = arrived.reverse := h
    show node :: arrived.reverse = (arrived ++ [node]).reverse
    rw [List.reverse_append]
    rfl
  | LAZY_APPLY =>
    obtain rfl : l = arrived := h
    rfl
  | HIGHER_BETTER =>
    have hagree : ∀ b ∈ l, comparHBetter node b = true ↔ valueOf b < valueOf node := by
      intro b hb
      obtain ⟨other, hother⟩ := Option.isSome_iff_exists.mp (hl b hb)
      simp [comparHBetter, valueOf, hresource, hother]
    rw [insertByPolicy, insertWithPolicy_eq_orderedInsert (r := fun x y => valueOf y < valueOf x) hagree]
    exact higherBetter_iff.mpr (higherBetter_iff.mp h).push
  | LOWER_BETTER =>
    have hagree : ∀ b ∈ l, comparLBetter node b = true ↔ valueOf node < valueOf b := by
      intro b hb
      obtain ⟨other, hother⟩ := Option.isSome_iff_exists.mp (hl b hb)
      simp [comparLBetter, valueOf, hresource, hother]
    rw [insertByPolicy, insertWithPolicy_eq_orderedInsert (r := fun x y => valueOf x < valueOf y) hagree]
    exact lowerBetter_iff.mpr (lowerBetter_iff.mp h).push
  | PASS_THROUGH => exact absurd rfl hpolicy

end Policies

/-! ## One operation -/

/-- Every list of the table is in the order its policy wants. -/
def Ordered (env : Env) (arrived : List (Int × ResIterable)) (t : CocoTable) : Prop :=
  ∀ i k conf, env.resourceRegistry.mResourceConfigs[i]? = some conf →
    PolicyOrdered conf.mPolicy (waiting env arrived i k) (t.mCocoTable i k)

section Run

variable {env : Env} {arrived : List (Int × ResIterable)} {t : CocoTable} {op : NodeOp} {i k : Nat}
  {node : ResIterable} {conf : ResConfInfo}

theorem mem_waiting :
    node ∈ waiting env arrived i k ↔
      ∃ priority, (priority, node) ∈ arrived ∧ home env priority node = some (i, k) := by
  simp [waiting]

/-- A list in order holds the nodes that wait for it. -/
theorem Ordered.perm (hordered : Ordered env arrived t)
    (hrow : env.resourceRegistry.mResourceConfigs[i]? = some conf) :
    (t.mCocoTable i k).Perm (waiting env arrived i k) := by
  have h := hordered i k conf hrow
  by_cases hpolicy : conf.mPolicy = .PASS_THROUGH
  · -- nobody waits for a list of a resource that is passed through
    rw [hpolicy] at h
    have hnone : waiting env arrived i k = [] := by
      rw [List.eq_nil_iff_forall_not_mem]
      intro node hnode
      obtain ⟨priority, -, hhome⟩ := mem_waiting.mp hnode
      obtain ⟨-, conf', -, -, -, hrow', hnot⟩ := data_of_home hhome
      obtain rfl : conf' = conf := Option.some.inj (hrow'.symm.trans hrow)
      exact hnot hpolicy
    rw [show t.mCocoTable i k = [] from h, hnone]
  · exact perm_of_policyOrdered h hpolicy

/-- A newcomer waits behind all others for the list where it is at home. -/
theorem waiting_insert (priority : Int) :
    waiting env (arrived ++ [(priority, node)]) i k =
      if home env priority node = some (i, k) then waiting env arrived i k ++ [node]
      else waiting env arrived i k := by
  by_cases hlist : home env priority node = some (i, k)
  · simp [waiting, hlist]
  · simp [waiting, hlist]

/-- A node that leaves waits no more. -/
theorem waiting_remove {priority : Int} (hunique : (arrived.map Prod.snd).Nodup)
    (hmem : (priority, node) ∈ arrived) :
    waiting env (arrived.filter (· ≠ (priority, node))) i k =
      (waiting env arrived i k).filter (· ≠ node) := by
  have hentry : ∀ entry ∈ arrived, (entry ≠ (priority, node) ↔ entry.2 ≠ node) := by
    intro entry hentry
    refine not_congr ⟨fun h => congrArg Prod.snd h, fun h => ?_⟩
    exact List.inj_on_of_nodup_map hunique hentry hmem h
  unfold waiting
  rw [List.filter_map, List.filter_filter, List.filter_filter]
  congr 1
  refine List.filter_congr fun entry h => ?_
  simp [hentry entry h, Bool.and_comm]

theorem nodup_arrive (hunique : (arrived.map Prod.snd).Nodup) (hop : op.Allowed arrived) :
    ((arrive arrived op).map Prod.snd).Nodup := by
  cases op with
  | insert priority node =>
    rw [arrive, List.map_append]
    exact List.nodup_append.mpr ⟨hunique, List.nodup_singleton _, fun a ha b hb => by
      rintro rfl
      obtain rfl := List.mem_singleton.mp hb
      exact hop ha⟩
  | remove priority node => exact hunique.sublist (List.filter_sublist.map _)

/-- What an operation does to a list where its node is at home. -/
theorem policyOrdered_step (hordered : Ordered env arrived t) (hunique : (arrived.map Prod.snd).Nodup)
    (hop : op.Allowed arrived) (hhome : home env op.priority op.node = some (i, k))
    (hrow : env.resourceRegistry.mResourceConfigs[i]? = some conf) :
    PolicyOrdered conf.mPolicy (waiting env (arrive arrived op) i k)
      ((t.step env op).mCocoTable i k) := by
  have hold := hordered i k conf hrow
  cases op with
  | insert priority node =>
    have hhome' : home env priority node = some (i, k) := hhome
    obtain ⟨resource, conf', hdata, -, -, hrow', hpolicy⟩ := data_of_home hhome'
    obtain rfl : conf' = conf := Option.some.inj (hrow'.symm.trans hrow)
    rw [arrive, waiting_insert, if_pos hhome', step, insertInCocoTable_of_home hhome' hrow]
    refine policyOrdered_insertByPolicy hold hpolicy (Option.isSome_iff_exists.mpr ⟨_, hdata⟩) ?_
    intro b hb
    obtain ⟨_, -, hb⟩ := mem_waiting.mp ((hordered.perm hrow).mem_iff.mp hb)
    obtain ⟨other, -, hother, -⟩ := data_of_home hb
    exact Option.isSome_iff_exists.mpr ⟨other, hother⟩
  | remove priority node =>
    rw [arrive, waiting_remove hunique hop, step, removeNode_mCocoTable,
      if_pos (show home env priority node = some (i, k) from hhome)]
    exact policyOrdered_filter hold _

/-- Any other list is left alone, and nobody joins or leaves those who wait for it. -/
theorem step_of_ne (hunique : (arrived.map Prod.snd).Nodup) (hop : op.Allowed arrived)
    (hhome : home env op.priority op.node ≠ some (i, k)) :
    (t.step env op).mCocoTable i k = t.mCocoTable i k ∧
      waiting env (arrive arrived op) i k = waiting env arrived i k := by
  cases op with
  | insert priority node =>
    have hhome' : home env priority node ≠ some (i, k) := hhome
    rw [arrive, waiting_insert, if_neg hhome']
    exact ⟨insertInCocoTable_of_ne hhome', rfl⟩
  | remove priority node =>
    have hhome' : home env priority node ≠ some (i, k) := hhome
    rw [arrive, waiting_remove hunique hop, step, removeNode_mCocoTable, if_neg hhome']
    refine ⟨rfl, List.filter_eq_self.mpr fun b hb => ?_⟩
    rw [decide_eq_true_eq]
    rintro rfl
    -- it came with one priority only
    obtain ⟨priority', hmem, hlist⟩ := mem_waiting.mp hb
    have hsame := List.inj_on_of_nodup_map hunique hmem hop rfl
    rw [(Prod.mk.inj hsame).1] at hlist
    exact hhome' hlist

/-- **An operation keeps every list in order.** -/
theorem ordered_step (hordered : Ordered env arrived t) (hunique : (arrived.map Prod.snd).Nodup)
    (hop : op.Allowed arrived) : Ordered env (arrive arrived op) (t.step env op) := by
  intro i k conf hrow
  by_cases hhome : home env op.priority op.node = some (i, k)
  · exact policyOrdered_step hordered hunique hop hhome hrow
  · obtain ⟨hsame, hwaiting⟩ := step_of_ne (t := t) hunique hop hhome
    rw [hsame, hwaiting]
    exact hordered i k conf hrow

/-! ## All calls -/

theorem ordered_foldl {ops : List NodeOp} (hordered : Ordered env arrived t)
    (hunique : (arrived.map Prod.snd).Nodup) (hops : AllAllowed arrived ops) :
    Ordered env (ops.foldl arrive arrived) (ops.foldl (step env) t) ∧
      ((ops.foldl arrive arrived).map Prod.snd).Nodup := by
  induction ops generalizing arrived t with
  | nil => exact ⟨hordered, hunique⟩
  | cons op ops ih =>
    obtain ⟨hop, hops⟩ := hops
    exact ih (ordered_step hordered hunique hop) (nodup_arrive hunique hop) hops

theorem ordered_new (env : Env) : Ordered env [] new := fun _ _ conf _ =>
  policyOrdered_nil conf.mPolicy

/-- The calls are sequences of node operations. -/
theorem foldl_apply (calls : List TableCall) (t : CocoTable) :
    calls.foldl (TableCall.apply env) t = (calls.flatMap TableCall.ops).foldl (step env) t := by
  induction calls generalizing t with
  | nil => rfl
  | cons call calls ih =>
    rw [List.foldl_cons, List.flatMap_cons, List.foldl_append, ih]
    cases call with
    | insertInCocoTable newNode priority => rfl
    | removeRequest request => rw [TableCall.apply, removeRequest_eq, TableCall.ops]

end Run

/-- **The order of the lists.**  After any calls every list is in the order its policy wants, it holds
the nodes inserted and not removed that belong to it, each once, and its head is the node the policy
prescribes. -/
theorem policyOrder_of_calls (env : Env) (calls : List TableCall)
    (hcalls : AllAllowed [] (calls.flatMap TableCall.ops)) (i k : Nat) {conf : ResConfInfo}
    (hrow : env.resourceRegistry.mResourceConfigs[i]? = some conf) :
    let arrived := arrivals (calls.flatMap TableCall.ops)
    let l := (calls.foldl (TableCall.apply env) new).mCocoTable i k
    PolicyOrdered conf.mPolicy (waiting env arrived i k) l ∧
      (∀ node, node ∈ l ↔
        ∃ priority, (priority, node) ∈ arrived ∧ home env priority node = some (i, k)) ∧
      l.Nodup ∧
      ∀ head, l.head? = some head → Prescribed conf.mPolicy (waiting env arrived i k) head := by
  intro arrived l
  obtain ⟨hordered, hunique⟩ := ordered_foldl (ordered_new env) List.nodup_nil hcalls
  rw [← foldl_apply] at hordered
  have hl := hordered i k conf hrow
  have hperm := hordered.perm (k := k) hrow
  exact ⟨hl, fun node => hperm.mem_iff.trans mem_waiting,
    hperm.nodup_iff.mpr (hunique.sublist (List.filter_sublist.map _)),
    fun head hhead => prescribed_of_head hl hhead⟩

/-- Three requests for the global resource of the small device, of one and of two values; the first one
is removed. -/
def sampleCalls : List TableCall :=
  let requests := [[5], [0, 7], [7]].mapIdx fun ptr values =>
    Sample.request ptr 1 [.ofValues (Sample.code 1) 0 0 values]
  requests.flatMap (fun request => request.nodes.map (.insertInCocoTable · request.getPriority)) ++
    requests.head?.toList.map .removeRequest

/-- The two that are left both count as `7`, and are in the order of arrival. -/
theorem policyOrder_of_calls_sample :
    AllAllowed [] (sampleCalls.flatMap TableCall.ops) ∧
      Sample.env.resourceRegistry.mResourceConfigs[0]? =
        some Sample.globalConf.setLifeCycleCallbacks ∧
      PolicyOrdered .HIGHER_BETTER
        (waiting Sample.env (arrivals (sampleCalls.flatMap TableCall.ops)) 0 1)
        ((sampleCalls.foldl (TableCall.apply Sample.env) new).mCocoTable 0 1) ∧
      waiting Sample.env (arrivals (sampleCalls.flatMap TableCall.ops)) 0 1 =
        [⟨(1, 0), some (.ofValues (Sample.code 1) 0 0 [0, 7])⟩,
          ⟨(2, 0), some (.ofValues (Sample.code 1) 0 0 [7])⟩] :=
  ⟨by decide, rfl, (policyOrder_of_calls Sample.env sampleCalls (by decide) 0 1 rfl).1, by decide⟩

end CocoTable

end ResourceTuner
