import ResourceTuner.Common.DLManager
import ResourceTuner.Lib.Chain

/-!
# Nodes and their links

`DLManager.h` and `DLManager.cpp` once more, at the level of pointers.  A node carries its own links,
in two pairs, so that it can hang in two lists at a time; a list is a record of pointers and says
which of the two pairs it uses.  `DLManager.lean` describes the operations by the sequences of nodes
they leave; here they are what the code does, and every one is proved to leave that sequence.

* **`ExtIterable1`**, **`DLManagerPtr`** — a node, a list;
* **`Represents`** — the list holds a sequence of nodes, forwards and backwards;
* **`Edited`** — which links an operation may change;
* **`represents_insert`** to **`represents_deleteNode`** — the operations.

The linker numbers in use are `0` and `1`, so the source's tests for other numbers are left out.
-/

namespace ResourceTuner

/-- One pair of links. -/
structure Linkage (α : Type) where
  next : Option α
  prev : Option α

/-- `class ExtIterable1`: a node with two pairs of links. -/
structure ExtIterable1 (α δ : Type) where
  mData : δ
  mLinkages : Linkage α
  mExtraLinks : Linkage α

/-- All nodes, by address. -/
abbrev Nodes (α δ : Type) := α → ExtIterable1 α δ

/-- `class DLManager`. -/
structure DLManagerPtr (α : Type) where
  mHead : Option α
  mTail : Option α
  mLinkerInUse : Fin 2
  mSize : Nat
  deriving DecidableEq

variable {α δ : Type}

namespace ExtIterable1

def getNextPtr (node : ExtIterable1 α δ) (linker : Fin 2) : Option α :=
  if linker = 0 then node.mLinkages.next else node.mExtraLinks.next

def getPrevPtr (node : ExtIterable1 α δ) (linker : Fin 2) : Option α :=
  if linker = 0 then node.mLinkages.prev else node.mExtraLinks.prev

def setNextLinkage (node : ExtIterable1 α δ) (linker : Fin 2) (next : Option α) :
    ExtIterable1 α δ :=
  if linker = 0 then { node with mLinkages := { node.mLinkages with next := next } }
  else { node with mExtraLinks := { node.mExtraLinks with next := next } }

def setPrevLinkage (node : ExtIterable1 α δ) (linker : Fin 2) (prev : Option α) :
    ExtIterable1 α δ :=
  if linker = 0 then { node with mLinkages := { node.mLinkages with prev := prev } }
  else { node with mExtraLinks := { node.mExtraLinks with prev := prev } }

section Fields

variable (node : ExtIterable1 α δ) {linker linker' : Fin 2} (p : Option α)

/-- A link is written without touching what the node carries. -/
@[simp] theorem setNextLinkage_mData : (node.setNextLinkage linker p).mData = node.mData := by
  unfold setNextLinkage
  split <;> rfl

@[simp] theorem setPrevLinkage_mData : (node.setPrevLinkage linker p).mData = node.mData := by
  unfold setPrevLinkage
  split <;> rfl

/-- What is written to a pair of links is read from it again. -/
@[simp] theorem getNextPtr_setNextLinkage :
    (node.setNextLinkage linker p).getNextPtr linker = p := by
  unfold setNextLinkage getNextPtr
  split <;> rfl

@[simp] theorem getPrevPtr_setPrevLinkage :
    (node.setPrevLinkage linker p).getPrevPtr linker = p := by
  unfold setPrevLinkage getPrevPtr
  split <;> rfl

/-- The two links of a pair are two fields: writing one leaves the other, whichever pair is read. -/
@[simp] theorem getNextPtr_setPrevLinkage :
    (node.setPrevLinkage linker p).getNextPtr linker' = node.getNextPtr linker' := by
  unfold setPrevLinkage getNextPtr
  split <;> split <;> rfl

@[simp] theorem getPrevPtr_setNextLinkage :
    (node.setNextLinkage linker p).getPrevPtr linker' = node.getPrevPtr linker' := by
  unfold setNextLinkage getPrevPtr
  split <;> split <;> rfl

/-- The other pair of links is another pair. -/
theorem getNextPtr_setNextLinkage_of_ne (h : linker' ≠ linker) :
    (node.setNextLinkage linker p).getNextPtr linker' = node.getNextPtr linker' := by
  unfold setNextLinkage getNextPtr
  split
  · split
    · omega
    · rfl
  · split
    · rfl
    · omega

theorem getPrevPtr_setPrevLinkage_of_ne (h : linker' ≠ linker) :
    (node.setPrevLinkage linker p).getPrevPtr linker' = node.getPrevPtr linker' := by
  unfold setPrevLinkage getPrevPtr
  split
  · split
    · omega
    · rfl
  · split
    · rfl
    · omega

end Fields

end ExtIterable1

namespace Nodes

variable [DecidableEq α]

/-- `node->setNextLinkage(linker, next)`. -/
def setNext (h : Nodes α δ) (linker : Fin 2) (node : α) (next : Option α) : Nodes α δ :=
  Function.update h node ((h node).setNextLinkage linker next)

/-- `node->setPrevLinkage(linker, prev)`. -/
def setPrev (h : Nodes α δ) (linker : Fin 2) (node : α) (prev : Option α) : Nodes α δ :=
  Function.update h node ((h node).setPrevLinkage linker prev)

omit [DecidableEq α] in
/-- The links to the next nodes. -/
def nexts (h : Nodes α δ) (linker : Fin 2) (node : α) : Option α := (h node).getNextPtr linker

omit [DecidableEq α] in
def prevs (h : Nodes α δ) (linker : Fin 2) (node : α) : Option α := (h node).getPrevPtr linker

section Links

variable (h : Nodes α δ) {linker : Fin 2} (node : α) (p : Option α)

/-- Over all nodes a write is an update of one of the two functions `nexts` and `prevs` at one node;
the next two lemmas are its other direction. -/
@[simp] theorem nexts_setNext :
    (h.setNext linker node p).nexts linker = Function.update (h.nexts linker) node p := by
  funext a
  unfold nexts setNext
  by_cases ha : a = node
  · subst ha
    simp
  · simp [ha]

@[simp] theorem prevs_setPrev :
    (h.setPrev linker node p).prevs linker = Function.update (h.prevs linker) node p := by
  funext a
  unfold prevs setPrev
  by_cases ha : a = node
  · subst ha
    simp
  · simp [ha]

/-- And it leaves the other function alone. -/
@[simp] theorem nexts_setPrev : (h.setPrev linker node p).nexts linker = h.nexts linker := by
  funext a
  unfold nexts setPrev
  by_cases ha : a = node
  · subst ha
    simp
  · simp [ha]

@[simp] theorem prevs_setNext : (h.setNext linker node p).prevs linker = h.prevs linker := by
  funext a
  unfold prevs setNext
  by_cases ha : a = node
  · subst ha
    simp
  · simp [ha]

end Links

/-- Only links of one pair were written, and only in some of the nodes. -/
structure Edited (linker : Fin 2) (touched : α → Prop) (h h' : Nodes α δ) : Prop where
  data : ∀ a, (h' a).mData = (h a).mData
  nexts : ∀ linker' a, linker' ≠ linker ∨ ¬ touched a → h'.nexts linker' a = h.nexts linker' a
  prevs : ∀ linker' a, linker' ≠ linker ∨ ¬ touched a → h'.prevs linker' a = h.prevs linker' a

section Edited

variable {h h' h'' : Nodes α δ} {linker : Fin 2} {touched touched' : α → Prop} {node : α}
  {p : Option α}

omit [DecidableEq α] in
/-- Nothing written at all. -/
theorem Edited.refl : Edited linker touched h h := ⟨fun _ => rfl, fun _ _ _ => rfl, fun _ _ _ => rfl⟩

omit [DecidableEq α] in
/-- Operations one after the other touch what they touch between them. -/
theorem Edited.trans (h₁ : Edited linker touched h h') (h₂ : Edited linker touched h' h'') :
    Edited linker touched h h'' where
  data a := (h₂.data a).trans (h₁.data a)
  nexts linker' a ha := (h₂.nexts linker' a ha).trans (h₁.nexts linker' a ha)
  prevs linker' a ha := (h₂.prevs linker' a ha).trans (h₁.prevs linker' a ha)

omit [DecidableEq α] in
/-- What is said of few nodes holds of more. -/
theorem Edited.mono (he : Edited linker touched h h') (hsub : ∀ a, touched a → touched' a) :
    Edited linker touched' h h' where
  data := he.data
  nexts linker' a ha := he.nexts linker' a (ha.imp id fun hno h => hno (hsub a h))
  prevs linker' a ha := he.prevs linker' a (ha.imp id fun hno h => hno (hsub a h))

omit [DecidableEq α] in
/-- A node that is not touched is the same in all its fields, in both pairs of links. -/
theorem Edited.eq_of_not (he : Edited linker touched h h') (hnot : ¬ touched node) :
    h' node = h node := by
  have hlinks : (h' node).mLinkages = (h node).mLinkages :=
    congrArg₂ Linkage.mk (he.nexts 0 node (Or.inr hnot)) (he.prevs 0 node (Or.inr hnot))
  have hextra : (h' node).mExtraLinks = (h node).mExtraLinks :=
    congrArg₂ Linkage.mk (he.nexts 1 node (Or.inr hnot)) (he.prevs 1 node (Or.inr hnot))
  calc h' node = ⟨(h' node).mData, (h' node).mLinkages, (h' node).mExtraLinks⟩ := rfl
    _ = h node := by rw [he.data, hlinks, hextra]

/-- One more link is written, in a node that may be touched.  Every operation's frame is a chain of
these two steps. -/
theorem Edited.setNext (he : Edited linker touched h h') (hnode : touched node) :
    Edited linker touched h (h'.setNext linker node p) := by
  refine he.trans ⟨fun a => ?_, fun linker' a ha => ?_, fun linker' a ha => ?_⟩
  · unfold Nodes.setNext
    by_cases heq : a = node
    · subst heq
      rw [Function.update_self, ExtIterable1.setNextLinkage_mData]
    · rw [Function.update_of_ne heq]
  · unfold Nodes.nexts Nodes.setNext
    by_cases heq : a = node
    · subst heq
      rw [Function.update_self]
      exact ExtIterable1.getNextPtr_setNextLinkage_of_ne _ _ (ha.resolve_right (not_not.mpr hnode))
    · rw [Function.update_of_ne heq]
  · unfold Nodes.prevs Nodes.setNext
    by_cases heq : a = node
    · subst heq
      rw [Function.update_self, ExtIterable1.getPrevPtr_setNextLinkage]
    · rw [Function.update_of_ne heq]

/-- The same for the link back. -/
theorem Edited.setPrev (he : Edited linker touched h h') (hnode : touched node) :
    Edited linker touched h (h'.setPrev linker node p) := by
  refine he.trans ⟨fun a => ?_, fun linker' a ha => ?_, fun linker' a ha => ?_⟩
  · unfold Nodes.setPrev
    by_cases heq : a = node
    · subst heq
      rw [Function.update_self, ExtIterable1.setPrevLinkage_mData]
    · rw [Function.update_of_ne heq]
  · unfold Nodes.nexts Nodes.setPrev
    by_cases heq : a = node
    · subst heq
      rw [Function.update_self, ExtIterable1.getNextPtr_setPrevLinkage]
    · rw [Function.update_of_ne heq]
  · unfold Nodes.prevs Nodes.setPrev
    by_cases heq : a = node
    · subst heq
      rw [Function.update_self]
      exact ExtIterable1.getPrevPtr_setPrevLinkage_of_ne _ _ (ha.resolve_right (not_not.mpr hnode))
    · rw [Function.update_of_ne heq]

end Edited

end Nodes

namespace DLManagerPtr

open Nodes

/-! ## The operations -/

/-- `DLManager(linkerInUse)`. -/
def new (linkerInUse : Fin 2) : DLManagerPtr α := ⟨none, none, linkerInUse, 0⟩

/-- The nodes of a list from its head on, as many as it counts. -/
def toList (h : Nodes α δ) (dlm : DLManagerPtr α) : List α :=
  Chain.walk (h.nexts dlm.mLinkerInUse) dlm.mSize dlm.mHead

/-- `DL_ITERATE` over a list of some state's nodes; the body may change the state. -/
def DL_ITERATE {σ : Type} (nodes : σ → Nodes α δ) (dlm : DLManagerPtr α) (body : σ → α → σ)
    (s : σ) : σ :=
  Chain.iterate (fun s => (nodes s).nexts dlm.mLinkerInUse) body dlm.mSize dlm.mHead s

/-- The loop of `insertWithPolicyHelper`: the first node for which the policy answers true. -/
def findByPolicy (next : α → Option α) (policyCB : α → Bool) : Nat → Option α → Option α
  | 0, _ => none
  | _ + 1, none => none
  | n + 1, some currNode =>
    if policyCB currNode then some currNode else findByPolicy next policyCB n (next currNode)

/-- `isNodeNthHelper`. -/
def isNodeNthFrom [DecidableEq α] (next : α → Option α) (node : α) :
    Nat → Nat → Option α → Bool
  | 0, _, _ => false
  | _ + 1, _, none => false
  | _ + 1, 0, some currNode => currNode = node
  | bound + 1, n + 1, some currNode => isNodeNthFrom next node bound n (next currNode)

variable [DecidableEq α]

def isNodeNth (h : Nodes α δ) (dlm : DLManagerPtr α) (n : Nat) (node : α) : Bool :=
  isNodeNthFrom (h.nexts dlm.mLinkerInUse) node dlm.mSize n dlm.mHead

/-- `insert(node)`. -/
def insert (h : Nodes α δ) (dlm : DLManagerPtr α) (node : α) : Nodes α δ × DLManagerPtr α :=
  let linker := dlm.mLinkerInUse
  match dlm.mTail with
  | some tail =>
    (((h.setNext linker node none).setPrev linker node (some tail)).setNext linker tail (some node),
      { dlm with mTail := some node, mSize := dlm.mSize + 1 })
  | none =>
    ((h.setNext linker node none).setPrev linker node none,
      { dlm with mHead := some node, mTail := some node, mSize := dlm.mSize + 1 })

/-- `insert(node, INSERT_START)`. -/
def insertStart (h : Nodes α δ) (dlm : DLManagerPtr α) (node : α) :
    Nodes α δ × DLManagerPtr α :=
  let linker := dlm.mLinkerInUse
  match dlm.mHead with
  | some head =>
    (((h.setNext linker node (some head)).setPrev linker node none).setPrev linker head (some node),
      { dlm with mHead := some node, mSize := dlm.mSize + 1 })
  | none =>
    ((h.setPrev linker node none).setNext linker node none,
      { dlm with mHead := some node, mTail := some node, mSize := dlm.mSize + 1 })

/-- `insertWithPolicy(node, policyCB)`. -/
def insertWithPolicy (h : Nodes α δ) (dlm : DLManagerPtr α) (policyCB : α → α → Bool) (node : α) :
    Nodes α δ × DLManagerPtr α :=
  let linker := dlm.mLinkerInUse
  match findByPolicy (h.nexts linker) (policyCB node) dlm.mSize dlm.mHead with
  | some currNode =>
    let h := (h.setNext linker node (some currNode)).setPrev linker node (h.prevs linker currNode)
    match h.prevs linker currNode with
    | none =>
      (h.setPrev linker currNode (some node),
        { dlm with
          mHead := if dlm.mHead = none then none else some node
          mTail := if dlm.mHead = none then none else dlm.mTail
          mSize := dlm.mSize + 1 })
    | some prevNode =>
      ((h.setNext linker prevNode (some node)).setPrev linker currNode (some node),
        { dlm with mSize := dlm.mSize + 1 })
  | none =>
    let h := (h.setNext linker node none).setPrev linker node dlm.mTail
    match dlm.mTail with
    | some tail =>
      (h.setNext linker tail (some node), { dlm with mTail := some node, mSize := dlm.mSize + 1 })
    | none => (h, { dlm with mHead := some node, mTail := some node, mSize := dlm.mSize + 1 })

/-- `deleteNode(node)`, the first half: the node before it, or the head. -/
def deleteForward (h : Nodes α δ) (dlm : DLManagerPtr α) (node : α) :
    Nodes α δ × DLManagerPtr α :=
  let linker := dlm.mLinkerInUse
  match h.prevs linker node with
  | some prevNode => (h.setNext linker prevNode (h.nexts linker node), dlm)
  | none =>
    (h, { dlm with
      mHead := h.nexts linker node
      mTail := if h.nexts linker node = none then none else dlm.mTail })

/-- The second half: the node after it, or the tail. -/
def deleteBackward (h : Nodes α δ) (dlm : DLManagerPtr α) (node : α) :
    Nodes α δ × DLManagerPtr α :=
  let linker := dlm.mLinkerInUse
  match h.nexts linker node with
  | some nextNode => (h.setPrev linker nextNode (h.prevs linker node), dlm)
  | none =>
    (h, { dlm with
      mTail := h.prevs linker node
      mHead := if h.prevs linker node = none then none else dlm.mHead })

def deleteNode (h : Nodes α δ) (dlm : DLManagerPtr α) (node : α) : Nodes α δ × DLManagerPtr α :=
  let forward := deleteForward h dlm node
  let backward := deleteBackward forward.1 forward.2 node
  (backward.1, { backward.2 with mSize := backward.2.mSize - 1 })

/-! ## What a list holds -/

omit [DecidableEq α] in
/-- The list read from its head, and from its tail. -/
def forward (h : Nodes α δ) (dlm : DLManagerPtr α) : Chain α :=
  ⟨dlm.mHead, h.nexts dlm.mLinkerInUse⟩

def backward (h : Nodes α δ) (dlm : DLManagerPtr α) : Chain α :=
  ⟨dlm.mTail, h.prevs dlm.mLinkerInUse⟩

/-- The list holds the nodes, in both directions, and counts them. -/
structure Represents (h : Nodes α δ) (dlm : DLManagerPtr α) (l : List α) : Prop where
  nodup : l.Nodup
  forward : (forward h dlm).Holds l
  backward : (backward h dlm).Holds l.reverse
  size : dlm.mSize = l.length

section Represents

variable {h h' : Nodes α δ} {dlm : DLManagerPtr α} {l : List α} {node : α}

omit [DecidableEq α] in
/-- A list that was just made is empty. -/
theorem represents_new (h : Nodes α δ) (linker : Fin 2) : Represents h (new linker) [] :=
  ⟨List.nodup_nil, rfl, rfl, rfl⟩

omit [DecidableEq α] in
/-- The nodes that are read from the head on are the ones the list holds. -/
theorem Represents.toList_eq (hl : Represents h dlm l) : dlm.toList h = l :=
  Chain.walk_of_path hl.forward (Nat.le_of_eq hl.size.symm)

omit [DecidableEq α] in
/-- The head is the first node, and the tail is the last: both null for the empty list only. -/
theorem Represents.head (hl : Represents h dlm l) : dlm.mHead = l.head? := hl.forward.head

omit [DecidableEq α] in
theorem Represents.tail (hl : Represents h dlm l) : dlm.mTail = l.getLast? := by
  rw [← List.head?_reverse]
  exact hl.backward.head

omit [DecidableEq α] in
/-- A list is determined by what it holds. -/
theorem Represents.dlm_eq {dlm' : DLManagerPtr α} (hl : Represents h dlm l)
    (hl' : Represents h' dlm' l) (hlinker : dlm.mLinkerInUse = dlm'.mLinkerInUse) : dlm = dlm' := by
  have hhead := hl.head.trans hl'.head.symm
  have htail := hl.tail.trans hl'.tail.symm
  have hsize := hl.size.trans hl'.size.symm
  cases dlm
  cases dlm'
  simp only [mk.injEq]
  exact ⟨hhead, htail, hlinker, hsize⟩

omit [DecidableEq α] in
/-- Links of the other pair, and links of other nodes, do not matter. -/
theorem Represents.frame {linker : Fin 2} {touched : α → Prop} (hl : Represents h dlm l)
    (he : Edited linker touched h h') (hother : dlm.mLinkerInUse ≠ linker ∨ ∀ a ∈ l, ¬ touched a) :
    Represents h' dlm l := by
  have hat : ∀ a ∈ l, dlm.mLinkerInUse ≠ linker ∨ ¬ touched a := fun a ha =>
    hother.imp id fun h => h a ha
  refine ⟨hl.nodup, ?_, ?_, hl.size⟩
  · exact hl.forward.congr rfl fun a ha => he.nexts _ a (hat a ha)
  · exact hl.backward.congr rfl fun a ha => he.prevs _ a (hat a (List.mem_reverse.mp ha))

omit [DecidableEq α] in
/-- Nodes outside the list do not matter. -/
theorem Represents.congr (hl : Represents h dlm l) (heq : ∀ a ∈ l, h' a = h a) :
    Represents h' dlm l := by
  refine ⟨hl.nodup, ?_, ?_, hl.size⟩
  · refine hl.forward.congr rfl fun a ha => ?_
    show (h' a).getNextPtr _ = (h a).getNextPtr _
    rw [heq a ha]
  · refine hl.backward.congr rfl fun a ha => ?_
    show (h' a).getPrevPtr _ = (h a).getPrevPtr _
    rw [heq a (List.mem_reverse.mp ha)]

omit [DecidableEq α] in
/-- What a loop over a list establishes when its body leaves the list alone. -/
theorem DL_ITERATE_spec {σ : Type} {nodes : σ → Nodes α δ} {body : σ → α → σ} {s : σ}
    {Ok : List α → σ → Prop} (hl : Represents (nodes s) dlm l) (hok : Ok l s)
    (hbody : ∀ s a rest, Ok (a :: rest) s → Ok rest (body s a) ∧
      (nodes (body s a)).nexts dlm.mLinkerInUse = (nodes s).nexts dlm.mLinkerInUse) :
    Ok [] (DL_ITERATE nodes dlm body s) :=
  Chain.iterate_of_path hbody hok hl.forward (Nat.le_of_eq hl.size.symm)

/-! ## The operations leave what they should -/

section LinkerInUse

variable (h : Nodes α δ) (dlm : DLManagerPtr α) (node : α)

/-- No operation changes which pair of links the list uses. -/
@[simp] theorem insert_mLinkerInUse : (dlm.insert h node).2.mLinkerInUse = dlm.mLinkerInUse := by
  unfold insert
  split <;> rfl

@[simp] theorem insertStart_mLinkerInUse :
    (dlm.insertStart h node).2.mLinkerInUse = dlm.mLinkerInUse := by
  unfold insertStart
  split <;> rfl

@[simp] theorem insertWithPolicy_mLinkerInUse (policyCB : α → α → Bool) :
    (dlm.insertWithPolicy h policyCB node).2.mLinkerInUse = dlm.mLinkerInUse := by
  unfold insertWithPolicy
  simp only
  split
  · split <;> rfl
  · split <;> rfl

end LinkerInUse

/-- Both directions of a list after a node was put between two parts. -/
theorem Represents.splice {h' : Nodes α δ} {dlm' : DLManagerPtr α} {l₁ l₂ : List α}
    (hl : Represents h dlm (l₁ ++ l₂)) (hnode : node ∉ l₁ ++ l₂)
    (hforward : dlm'.forward h' = (dlm.forward h).splice l₁.getLast? node l₂.head?)
    (hbackward : dlm'.backward h' = (dlm.backward h).splice l₂.head? node l₁.getLast?)
    (hsize : dlm'.mSize = dlm.mSize + 1) : Represents h' dlm' (l₁ ++ node :: l₂) where
  nodup := by
    have hnodup := hl.nodup
    rw [List.nodup_middle]
    exact List.nodup_cons.mpr ⟨hnode, hnodup⟩
  forward := by
    rw [hforward]
    exact Chain.holds_splice hl.forward hl.nodup hnode
  backward := by
    have hreverse : (l₁ ++ node :: l₂).reverse = l₂.reverse ++ node :: l₁.reverse := by simp
    have hlist : (l₁ ++ l₂).reverse = l₂.reverse ++ l₁.reverse := by simp
    have hnodup := List.nodup_reverse.mpr hl.nodup
    have hmem : node ∉ (l₁ ++ l₂).reverse := by rwa [List.mem_reverse]
    have hholds := hl.backward
    rw [hlist] at hnodup hmem hholds
    have hspliced := Chain.holds_splice hholds hnodup hmem
    rw [List.getLast?_reverse, List.head?_reverse] at hspliced
    rw [hbackward, hreverse]
    exact hspliced
  size := by
    rw [hsize, hl.size]
    simp only [List.length_append, List.length_cons]
    omega

/-- `insert` puts the node at the end. -/
theorem represents_insert (hl : Represents h dlm l) (hnode : node ∉ l) :
    Represents (dlm.insert h node).1 (dlm.insert h node).2 (DLManager.insert l node) := by
  have htail := hl.tail
  rw [← List.append_nil l] at hl hnode
  unfold insert
  cases hlast : dlm.mTail with
  | none =>
    rw [htail] at hlast
    refine hl.splice hnode ?_ ?_ rfl
    · simp [forward, Chain.splice, hlast]
    · simp [backward, Chain.splice, hlast]
  | some tail =>
    rw [htail] at hlast
    refine hl.splice hnode ?_ ?_ rfl
    · simp [forward, Chain.splice, hlast]
    · simp [backward, Chain.splice, hlast]

/-- `insert(node, INSERT_START)` puts it at the front. -/
theorem represents_insertStart (hl : Represents h dlm l) (hnode : node ∉ l) :
    Represents (dlm.insertStart h node).1 (dlm.insertStart h node).2
      (DLManager.insertStart l node) := by
  have hhead := hl.head
  rw [← List.nil_append l] at hl hnode
  unfold insertStart
  cases hfirst : dlm.mHead with
  | none =>
    rw [hhead] at hfirst
    refine hl.splice hnode ?_ ?_ rfl
    · simp [forward, Chain.splice, hfirst]
    · simp [backward, Chain.splice, hfirst]
  | some head =>
    rw [hhead] at hfirst
    refine hl.splice hnode ?_ ?_ rfl
    · simp [forward, Chain.splice, hfirst]
    · simp [backward, Chain.splice, hfirst]

/-! ### By policy -/

omit [DecidableEq α] in
/-- The search finds the node before which the policy puts the new one. -/
theorem findByPolicy_cases {next : α → Option α} {p : Option α} {n : Nat}
    (hpath : Chain.Path next p l none) (hn : l.length ≤ n) (policyCB : α → α → Bool) (node : α) :
    findByPolicy next (policyCB node) n p = none ∧
        DLManager.insertWithPolicy policyCB node l = l ++ [node] ∨
      ∃ l₁ currNode l₂, l = l₁ ++ currNode :: l₂ ∧
        findByPolicy next (policyCB node) n p = some currNode ∧
        DLManager.insertWithPolicy policyCB node l = l₁ ++ node :: currNode :: l₂ := by
  induction l generalizing p n with
  | nil =>
    obtain rfl : p = none := hpath
    left
    cases n <;> exact ⟨rfl, rfl⟩
  | cons a rest ih =>
    obtain ⟨rfl, hpath⟩ := hpath
    cases n with
    | zero => simp at hn
    | succ n =>
      rw [findByPolicy, DLManager.insertWithPolicy]
      by_cases hpolicy : policyCB node a
      · rw [if_pos hpolicy, if_pos hpolicy]
        exact Or.inr ⟨[], a, rest, rfl, rfl, rfl⟩
      · rw [if_neg hpolicy, if_neg hpolicy]
        rcases ih hpath (by simpa using hn) with ⟨hfind, hlist⟩ | ⟨l₁, curr, l₂, rfl, hfind, hlist⟩
        · exact Or.inl ⟨hfind, by rw [hlist]; rfl⟩
        · exact Or.inr ⟨a :: l₁, curr, l₂, rfl, hfind, by rw [hlist]; rfl⟩

/-- `insertWithPolicy` puts it before the first node for which the policy answers true, or at the
end when there is none.  The three branches of the code are the three places where that can be. -/
theorem represents_insertWithPolicy {policyCB : α → α → Bool} (hl : Represents h dlm l)
    (hnode : node ∉ l) :
    Represents (dlm.insertWithPolicy h policyCB node).1 (dlm.insertWithPolicy h policyCB node).2
      (DLManager.insertWithPolicy policyCB node l) := by
  have htail := hl.tail
  have hhead := hl.head
  rcases findByPolicy_cases hl.forward (Nat.le_of_eq hl.size.symm) policyCB node with ⟨hfind, hlist⟩ | ⟨l₁, curr, l₂, rfl, hfind, hlist⟩
  · -- at the tail
    have hfind' : findByPolicy (h.nexts dlm.mLinkerInUse) (policyCB node) dlm.mSize dlm.mHead = none :=
      hfind
    rw [hlist]
    unfold insertWithPolicy
    simp only [hfind']
    rw [← List.append_nil l] at hl hnode
    cases hlast : dlm.mTail with
    | none =>
      rw [htail] at hlast
      refine hl.splice hnode ?_ ?_ rfl
      · simp [forward, Chain.splice, hlast]
      · simp [backward, Chain.splice, hlast]
    | some tail =>
      rw [htail] at hlast
      refine hl.splice hnode ?_ ?_ rfl
      · simp [forward, Chain.splice, hlast]
      · simp [backward, Chain.splice, hlast]
  · -- before the node that was found
    have hfind' : findByPolicy (h.nexts dlm.mLinkerInUse) (policyCB node) dlm.mSize dlm.mHead =
      some curr := hfind
    have hcurr : curr ≠ node := by
      rintro rfl
      exact hnode (by simp)
    have hprev : h.prevs dlm.mLinkerInUse curr = l₁.getLast? := by
      have hbackward := hl.backward
      rw [List.reverse_append, List.reverse_cons, List.append_assoc] at hbackward
      rw [← List.head?_reverse]
      exact hbackward.link_eq
    have hnonempty : dlm.mHead ≠ none := by
      rw [hhead]
      simp
    rw [hlist]
    unfold insertWithPolicy
    simp only [hfind']
    cases hlast : l₁.getLast? with
    | none =>
      rw [hlast] at hprev
      obtain rfl := List.getLast?_eq_none_iff.mp hlast
      refine hl.splice hnode ?_ ?_ ?_
      all_goals simp [forward, backward, Chain.splice, hprev, hnonempty, hcurr]
    | some prevNode =>
      rw [hlast] at hprev
      refine hl.splice hnode ?_ ?_ ?_
      all_goals simp [forward, backward, Chain.splice, hprev, hcurr, hlast]

/-! ### Unlinking -/

/-- The two halves of `deleteNode` keep the number of nodes, which is counted down after them. -/
theorem deleteForward_fields (h : Nodes α δ) (dlm : DLManagerPtr α) (node : α) :
    (dlm.deleteForward h node).2.mLinkerInUse = dlm.mLinkerInUse ∧
      (dlm.deleteForward h node).2.mSize = dlm.mSize := by
  unfold deleteForward
  simp only
  split <;> exact ⟨rfl, rfl⟩

theorem deleteBackward_fields (h : Nodes α δ) (dlm : DLManagerPtr α) (node : α) :
    (dlm.deleteBackward h node).2.mLinkerInUse = dlm.mLinkerInUse ∧
      (dlm.deleteBackward h node).2.mSize = dlm.mSize := by
  unfold deleteBackward
  simp only
  split <;> exact ⟨rfl, rfl⟩

@[simp] theorem deleteNode_mLinkerInUse (h : Nodes α δ) (dlm : DLManagerPtr α) (node : α) :
    (dlm.deleteNode h node).2.mLinkerInUse = dlm.mLinkerInUse := by
  simp only [deleteNode, (deleteBackward_fields _ _ _).1, (deleteForward_fields _ _ _).1]

/-- `deleteNode` takes the node out and closes the gap in both directions.  That it is in the list
is needed: the code takes the links it finds in the node for links of this list. -/
theorem represents_deleteNode (hl : Represents h dlm l) (hnode : node ∈ l) :
    Represents (dlm.deleteNode h node).1 (dlm.deleteNode h node).2
      (DLManager.deleteNode l node) := by
  obtain ⟨l₁, l₂, rfl⟩ := List.append_of_mem hnode
  have hnodup := hl.nodup
  obtain ⟨hnotMem, hrest⟩ := List.nodup_cons.mp (List.nodup_middle.mp hnodup)
  have hlist : DLManager.deleteNode (l₁ ++ node :: l₂) node = l₁ ++ l₂ := by
    have hkeep : ∀ a ∈ l₁ ++ l₂, decide (a ≠ node) = true := by
      intro a ha
      rw [decide_eq_true_eq]
      rintro rfl
      exact hnotMem ha
    unfold DLManager.deleteNode
    rw [List.filter_append, List.filter_cons_of_neg (by simp), ← List.filter_append]
    exact List.filter_eq_self.mpr hkeep
  have hreverse : (l₁ ++ node :: l₂).reverse = l₂.reverse ++ node :: l₁.reverse := by simp
  have hbackward := hl.backward
  have hnodup' := List.nodup_reverse.mpr hnodup
  rw [hreverse] at hbackward hnodup'
  have hnext : h.nexts dlm.mLinkerInUse node = l₂.head? := hl.forward.link_eq
  have hprev : h.prevs dlm.mLinkerInUse node = l₁.getLast? := by
    rw [← List.head?_reverse]
    exact hbackward.link_eq
  have hne : ∀ a, l₁.getLast? = some a → node ≠ a := by
    rintro a ha rfl
    exact hnotMem (List.mem_append_left _ (List.mem_of_getLast? ha))
  -- each half changes one direction
  have hchains : (dlm.deleteNode h node).2.forward (dlm.deleteNode h node).1 =
        (dlm.forward h).unlink l₁.getLast? l₂.head? ∧
      (dlm.deleteNode h node).2.backward (dlm.deleteNode h node).1 =
        (dlm.backward h).unlink l₂.head? l₁.getLast? := by
    unfold deleteNode deleteForward deleteBackward
    cases hlast : l₁.getLast? with
    | none =>
      rw [hlast] at hprev
      cases hfirst : l₂.head? with
      | none =>
        rw [hfirst] at hnext
        simp [forward, backward, Chain.unlink, hprev, hnext]
      | some nextNode =>
        rw [hfirst] at hnext
        simp [forward, backward, Chain.unlink, hprev, hnext]
    | some prevNode =>
      rw [hlast] at hprev
      have hne' := hne prevNode hlast
      cases hfirst : l₂.head? with
      | none =>
        rw [hfirst] at hnext
        simp [forward, backward, Chain.unlink, hprev, hnext, hne']
      | some nextNode =>
        rw [hfirst] at hnext
        simp [forward, backward, Chain.unlink, hprev, hnext, hne']
  have hsize : (dlm.deleteNode h node).2.mSize = dlm.mSize - 1 := by
    simp only [deleteNode, (deleteBackward_fields _ _ _).2, (deleteForward_fields _ _ _).2]
  rw [hlist]
  refine ⟨hrest, ?_, ?_, ?_⟩
  · rw [hchains.1]
    exact Chain.holds_unlink hl.forward hnodup
  · have hunlinked := Chain.holds_unlink hbackward hnodup'
    rw [List.getLast?_reverse, List.head?_reverse] at hunlinked
    rw [hchains.2, List.reverse_append]
    exact hunlinked
  · rw [hsize, hl.size]
    simp only [List.length_append, List.length_cons]
    omega

/-! ### Reading -/

/-- The loop of `isNodeNth` compares with the `n`-th node, as long as the list counts its nodes. -/
theorem isNodeNth_eq (hl : Represents h dlm l) (n : Nat) :
    dlm.isNodeNth h n node = DLManager.isNodeNth l n node := by
  have hpath : Chain.Path (h.nexts dlm.mLinkerInUse) dlm.mHead l none := hl.forward
  have hsize := Nat.le_of_eq hl.size.symm
  clear hl
  unfold isNodeNth DLManager.isNodeNth
  generalize dlm.mHead = p at hpath
  generalize dlm.mSize = bound at hsize
  generalize h.nexts dlm.mLinkerInUse = next at hpath
  induction l generalizing p n bound with
  | nil =>
    obtain rfl : p = none := hpath
    cases bound <;> rfl
  | cons a rest ih =>
    obtain ⟨rfl, hpath⟩ := hpath
    cases bound with
    | zero => simp at hsize
    | succ bound =>
      cases n with
      | zero =>
        simp only [isNodeNthFrom, List.getElem?_cons_zero]
        by_cases heq : a = node <;> simp [heq]
      | succ n =>
        simp only [isNodeNthFrom, List.getElem?_cons_succ]
        exact ih n _ bound (by simpa using hsize) hpath

/-! ### Frames -/

/-- `insert` writes to the new node and to the last one. -/
theorem edited_insert (hl : Represents h dlm l) :
    Edited dlm.mLinkerInUse (· ∈ node :: l) h (dlm.insert h node).1 := by
  have htail := hl.tail
  unfold insert
  cases hlast : dlm.mTail with
  | none => exact (Edited.refl.setNext List.mem_cons_self).setPrev List.mem_cons_self
  | some tail =>
    rw [htail] at hlast
    exact ((Edited.refl.setNext List.mem_cons_self).setPrev List.mem_cons_self).setNext
      (List.mem_cons_of_mem _ (List.mem_of_getLast? hlast))

/-- `insert(node, INSERT_START)` writes to the new node and to the first one. -/
theorem edited_insertStart (hl : Represents h dlm l) :
    Edited dlm.mLinkerInUse (· ∈ node :: l) h (dlm.insertStart h node).1 := by
  have hhead := hl.head
  unfold insertStart
  cases hfirst : dlm.mHead with
  | none => exact (Edited.refl.setPrev List.mem_cons_self).setNext List.mem_cons_self
  | some head =>
    rw [hhead] at hfirst
    exact ((Edited.refl.setNext List.mem_cons_self).setPrev List.mem_cons_self).setPrev
      (List.mem_cons_of_mem _ (List.mem_of_head? hfirst))

/-- `insertWithPolicy` writes to the new node and to its two neighbours, or to the last node. -/
theorem edited_insertWithPolicy {policyCB : α → α → Bool} (hl : Represents h dlm l)
    (hnode : node ∉ l) :
    Edited dlm.mLinkerInUse (· ∈ node :: l) h (dlm.insertWithPolicy h policyCB node).1 := by
  have htail := hl.tail
  have hnew : ∀ {a}, a ∈ l → a ∈ node :: l := fun ha => List.mem_cons_of_mem node ha
  have hwritten : ∀ {p q}, Edited dlm.mLinkerInUse (· ∈ node :: l) h
      ((h.setNext dlm.mLinkerInUse node p).setPrev dlm.mLinkerInUse node q) :=
    (Edited.refl.setNext List.mem_cons_self).setPrev List.mem_cons_self
  rcases findByPolicy_cases hl.forward (Nat.le_of_eq hl.size.symm) policyCB node with ⟨hfind, -⟩ | ⟨l₁, curr, l₂, hlist, hfind, -⟩
  · have hfind' : findByPolicy (h.nexts dlm.mLinkerInUse) (policyCB node) dlm.mSize dlm.mHead = none :=
      hfind
    unfold insertWithPolicy
    simp only [hfind']
    cases hlast : dlm.mTail with
    | none => exact hwritten
    | some tail =>
      rw [htail] at hlast
      exact hwritten.setNext (hnew (List.mem_of_getLast? hlast))
  · have hfind' : findByPolicy (h.nexts dlm.mLinkerInUse) (policyCB node) dlm.mSize dlm.mHead =
      some curr := hfind
    have hcurr : curr ∈ node :: l := hnew (by simp [hlist])
    have hprev : ∀ a, h.prevs dlm.mLinkerInUse curr = some a → a ∈ node :: l := by
      intro a ha
      have hbackward := hl.backward
      rw [hlist, List.reverse_append, List.reverse_cons, List.append_assoc] at hbackward
      have hlink : h.prevs dlm.mLinkerInUse curr = l₁.reverse.head? := hbackward.link_eq
      rw [ha, List.head?_reverse] at hlink
      exact hnew (by simp [hlist, List.mem_of_getLast? hlink.symm])
    unfold insertWithPolicy
    simp only [hfind']
    split
    · exact hwritten.setPrev hcurr
    · rename_i prevNode hsome
      refine (hwritten.setNext ?_).setPrev hcurr
      have hself : curr ≠ node := by
        rintro rfl
        exact hnode (by simp [hlist])
      simp only [prevs_setPrev, Function.update_of_ne hself, prevs_setNext] at hsome
      exact hprev prevNode hsome

/-- `deleteNode` writes to the two neighbours of the node; its own links stay as they were. -/
theorem edited_deleteNode (hl : Represents h dlm l) (hnode : node ∈ l) :
    Edited dlm.mLinkerInUse (· ∈ l) h (dlm.deleteNode h node).1 := by
  obtain ⟨l₁, l₂, hlist⟩ := List.append_of_mem hnode
  have hnext : ∀ a, h.nexts dlm.mLinkerInUse node = some a → a ∈ l := by
    intro a ha
    have hforward := hl.forward
    rw [hlist] at hforward
    have hlink : h.nexts dlm.mLinkerInUse node = l₂.head? := hforward.link_eq
    rw [ha] at hlink
    simp [hlist, List.mem_of_head? hlink.symm]
  have hprev : ∀ a, h.prevs dlm.mLinkerInUse node = some a → a ∈ l := by
    intro a ha
    have hbackward := hl.backward
    rw [hlist, List.reverse_append, List.reverse_cons, List.append_assoc] at hbackward
    have hlink : h.prevs dlm.mLinkerInUse node = l₁.reverse.head? := hbackward.link_eq
    rw [ha, List.head?_reverse] at hlink
    simp [hlist, List.mem_of_getLast? hlink.symm]
  -- the first half leaves the backward links, from which the second half reads
  have hforward : Edited dlm.mLinkerInUse (· ∈ l) h (dlm.deleteForward h node).1 := by
    unfold deleteForward
    simp only
    split
    · rename_i prevNode hsome
      exact Edited.refl.setNext (hprev prevNode hsome)
    · exact Edited.refl
  have hkept : ∀ a, (dlm.deleteForward h node).1.nexts dlm.mLinkerInUse node = some a → a ∈ l := by
    intro a ha
    unfold deleteForward at ha
    simp only at ha
    split at ha
    · rename_i prevNode _
      rw [nexts_setNext] at ha
      by_cases hself : node = prevNode
      · rw [← hself, Function.update_self] at ha
        exact hnext a ha
      · rw [Function.update_of_ne hself] at ha
        exact hnext a ha
    · exact hnext a ha
  unfold deleteNode deleteBackward
  simp only [(deleteForward_fields h dlm node).1]
  split
  · rename_i nextNode hsome
    exact hforward.setPrev (hkept nextNode hsome)
  · exact hforward

end Represents

end DLManagerPtr

end ResourceTuner
