import ResourceTuner.Common.LinkedNodes
import ResourceTuner.Lib.Lists

/-!
# Calls on a doubly linked list

`DLManager.cpp` as its callers see it: the null tests, the answers, the three ways to say where a node
goes, and any number of calls one after the other.

* **`insertHelper`** to **`deleteNodeHelper`** — the calls;
* **`Op.result`** — what a call is for, on the sequence of nodes the list holds;
* **`refines_step`** — a call does that;
* **`lists_of_calls`** — so does every sequence of calls, and the other pair of links is left alone.
-/

namespace ResourceTuner

namespace DLManagerPtr

open Nodes

inductive ErrCode where
  | RC_SUCCESS
  | RC_BAD_ARG
  | RC_INVALID_VALUE
  deriving DecidableEq, Repr

/-- `enum DLOptions`. -/
inductive DLOptions where
  | INSERT_START
  | INSERT_END
  | INSERT_N_NODE_START
  deriving DecidableEq, Repr

/-- All nodes, and one list over them. -/
abbrev State (α δ : Type) := Nodes α δ × DLManagerPtr α

variable {α δ : Type}

/-! ## The calls -/

/-- The loop of `INSERT_N_NODE_START`: the node after `n` links. -/
def nthFrom (next : α → Option α) : Nat → Option α → Option α
  | 0, curNode => curNode
  | _ + 1, none => none
  | n + 1, some curNode => nthFrom next n (next curNode)

section Calls

variable [DecidableEq α] (s : State α δ)

/-- `insertHelper(node)`. -/
def insertHelper (node : Option α) : ErrCode × State α δ :=
  match node with
  | none => (.RC_INVALID_VALUE, s)
  | some node => (.RC_SUCCESS, s.2.insert s.1 node)

/-- The end of `INSERT_N_NODE_START`: the node goes before `curNode`. -/
def insertBefore (h : Nodes α δ) (dlm : DLManagerPtr α) (node curNode : α) : State α δ :=
  let linker := dlm.mLinkerInUse
  match h.prevs linker curNode with
  | none => dlm.insertStart h node
  | some prevNode =>
    ((((h.setNext linker prevNode (some node)).setPrev linker node (some prevNode)).setPrev linker
        curNode (some node)).setNext linker node (some curNode),
      { dlm with mSize := dlm.mSize + 1 })

/-- `insertHelper(node, option, n)`.  `none` is the null pointer the loop would end with if the list
were shorter than its size says. -/
def insertHelperAt (node : Option α) (option : DLOptions) (n : Int) :
    Option (ErrCode × State α δ) :=
  match node with
  | none => some (.RC_INVALID_VALUE, s)
  | some node =>
    match option with
    | .INSERT_START => some (.RC_SUCCESS, s.2.insertStart s.1 node)
    | .INSERT_END => some (.RC_SUCCESS, s.2.insert s.1 node)
    | .INSERT_N_NODE_START =>
      if n < 0 then some (.RC_BAD_ARG, s)
      else if n = 0 then some (.RC_SUCCESS, s.2.insertStart s.1 node)
      else if n = s.2.mSize + 1 then some (.RC_SUCCESS, s.2.insert s.1 node)
      else if n > s.2.mSize then some (.RC_BAD_ARG, s)
      else
        (nthFrom (s.1.nexts s.2.mLinkerInUse) (n.toNat - 1) s.2.mHead).map fun curNode =>
          (.RC_SUCCESS, s.2.insertBefore s.1 node curNode)

/-- `insertWithPolicyHelper(node, policyCB)`. -/
def insertWithPolicyHelper (node : Option α) (policyCB : α → α → Bool) : ErrCode × State α δ :=
  match node with
  | none => (.RC_INVALID_VALUE, s)
  | some node => (.RC_SUCCESS, s.2.insertWithPolicy s.1 policyCB node)

/-- `deleteNodeHelper(node)`. -/
def deleteNodeHelper (node : Option α) : ErrCode × State α δ :=
  match node with
  | none => (.RC_INVALID_VALUE, s)
  | some node => (.RC_SUCCESS, s.2.deleteNode s.1 node)

end Calls

/-- A call on a list. -/
inductive Op (α : Type) where
  | insert (node : Option α)
  | insertAt (node : Option α) (option : DLOptions) (n : Int)
  | insertWithPolicy (node : Option α) (policyCB : α → α → Bool)
  | deleteNode (node : Option α)

variable [DecidableEq α]

/-- The answer of a call, and what it leaves. -/
def step (s : State α δ) : Op α → Option (ErrCode × State α δ)
  | .insert node => some (insertHelper s node)
  | .insertAt node option n => insertHelperAt s node option n
  | .insertWithPolicy node policyCB => some (insertWithPolicyHelper s node policyCB)
  | .deleteNode node => some (deleteNodeHelper s node)

/-- Calls one after the other, with their answers. -/
def exec (s : State α δ) : List (Op α) → Option (List ErrCode × State α δ)
  | [] => some ([], s)
  | op :: ops =>
    (step s op).bind fun r => (exec r.2 ops).map fun rest => (r.1 :: rest.1, rest.2)

/-! ## What the calls are for -/

namespace Op

/-- The answer a call should give and the sequence of nodes it should leave. -/
def result (l : List α) : Op α → ErrCode × List α
  | .insert none | .insertAt none _ _ | .insertWithPolicy none _ | .deleteNode none =>
    (.RC_INVALID_VALUE, l)
  | .insert (some node) => (.RC_SUCCESS, l ++ [node])
  | .insertAt (some node) .INSERT_START _ => (.RC_SUCCESS, node :: l)
  | .insertAt (some node) .INSERT_END _ => (.RC_SUCCESS, l ++ [node])
  | .insertAt (some node) .INSERT_N_NODE_START n =>
    -- the node becomes the `n`-th, counted from one
    if 0 ≤ n ∧ n ≤ l.length + 1 then (.RC_SUCCESS, l.insertIdx ((max n 1).toNat - 1) node)
    else (.RC_BAD_ARG, l)
  | .insertWithPolicy (some node) policyCB =>
    (.RC_SUCCESS,
      l.takeWhile (!policyCB node ·) ++ node :: l.dropWhile (!policyCB node ·))
  | .deleteNode (some node) => (.RC_SUCCESS, l.erase node)

/-- Only new nodes are inserted, and only nodes of the list are deleted. -/
def Allowed (l : List α) : Op α → Prop
  | .insert node | .insertAt node _ _ | .insertWithPolicy node _ => ∀ a ∈ node, a ∉ l
  | .deleteNode node => ∀ a ∈ node, a ∈ l

/-- The answers and the sequence after calls one after the other. -/
def results (l : List α) : List (Op α) → List ErrCode × List α
  | [] => ([], l)
  | op :: ops => ((op.result l).1 :: (results (op.result l).2 ops).1, (results (op.result l).2 ops).2)

/-- Every call is allowed when its turn comes. -/
def AllAllowed (l : List α) : List (Op α) → Prop
  | [] => True
  | op :: ops => op.Allowed l ∧ AllAllowed (op.result l).2 ops

end Op

/-! ## Putting a node before another -/

section InsertBefore

variable {h : Nodes α δ} {dlm : DLManagerPtr α} {l l₁ l₂ : List α} {node curNode : α}

omit [DecidableEq α] in
theorem nthFrom_of_path {next : α → Option α} {p : Option α} (hpath : Chain.Path next p l none)
    (n : Nat) : nthFrom next n p = l[n]? := by
  induction l generalizing p n with
  | nil =>
    obtain rfl : p = none := hpath
    cases n <;> rfl
  | cons a rest ih =>
    obtain ⟨rfl, hpath⟩ := hpath
    cases n with
    | zero => rfl
    | succ n =>
      rw [nthFrom, ih hpath, List.getElem?_cons_succ]

omit [DecidableEq α] in
/-- The link back is to the last node of the part before. -/
theorem Represents.prev_eq (hl : Represents h dlm (l₁ ++ curNode :: l₂)) :
    h.prevs dlm.mLinkerInUse curNode = l₁.getLast? := by
  have hbackward := hl.backward
  rw [List.reverse_append, List.reverse_cons, List.append_assoc] at hbackward
  rw [← List.head?_reverse]
  exact hbackward.link_eq

theorem represents_insertBefore (hl : Represents h dlm (l₁ ++ curNode :: l₂))
    (hnode : node ∉ l₁ ++ curNode :: l₂) :
    Represents (dlm.insertBefore h node curNode).1 (dlm.insertBefore h node curNode).2
      (l₁ ++ node :: curNode :: l₂) := by
  have hprev := hl.prev_eq
  have hcurr : curNode ≠ node := by
    rintro rfl
    exact hnode (by simp)
  unfold insertBefore
  cases hlast : l₁.getLast? with
  | none =>
    rw [hlast] at hprev
    obtain rfl := List.getLast?_eq_none_iff.mp hlast
    simp only [hprev]
    exact represents_insertStart hl hnode
  | some prevNode =>
    rw [hlast] at hprev
    have hne : prevNode ≠ node := by
      rintro rfl
      exact hnode (List.mem_append_left _ (List.mem_of_getLast? hlast))
    simp only [hprev]
    refine hl.splice hnode ?_ ?_ rfl
    · simp [forward, Chain.splice, hlast, Function.update_comm hne]
    · simp [backward, Chain.splice, hlast]

theorem edited_insertBefore (hl : Represents h dlm (l₁ ++ curNode :: l₂)) :
    Edited dlm.mLinkerInUse (· ∈ node :: (l₁ ++ curNode :: l₂)) h
      (dlm.insertBefore h node curNode).1 := by
  have hprev := hl.prev_eq
  unfold insertBefore
  cases hlast : l₁.getLast? with
  | none =>
    rw [hlast] at hprev
    simp only [hprev]
    exact edited_insertStart hl
  | some prevNode =>
    rw [hlast] at hprev
    have hmem : prevNode ∈ node :: (l₁ ++ curNode :: l₂) :=
      List.mem_cons_of_mem _ (List.mem_append_left _ (List.mem_of_getLast? hlast))
    simp only [hprev]
    exact (((Edited.refl.setNext hmem).setPrev List.mem_cons_self).setPrev (by simp)).setNext
      List.mem_cons_self

@[simp] theorem insertBefore_mLinkerInUse :
    (dlm.insertBefore h node curNode).2.mLinkerInUse = dlm.mLinkerInUse := by
  unfold insertBefore
  simp only
  split
  · exact insertStart_mLinkerInUse h dlm node
  · rfl

end InsertBefore

/-! ## Every call does what it is for -/

omit [DecidableEq α] in
/-- The list before the first element the policy answers true for, the node, and the rest. -/
theorem insertWithPolicy_eq (policyCB : α → α → Bool) (node : α) (l : List α) :
    DLManager.insertWithPolicy policyCB node l =
      l.takeWhile (!policyCB node ·) ++ node :: l.dropWhile (!policyCB node ·) := by
  induction l with
  | nil => rfl
  | cons curr rest ih =>
    rw [DLManager.insertWithPolicy]
    by_cases hpolicy : policyCB node curr
    · simp [hpolicy]
    · simp [hpolicy, ih]

/-- From `s` a call has come to `s'`, whose list holds `l`; only links of its own pair were
written. -/
structure Leaves (s s' : State α δ) (l : List α) : Prop where
  represents : Represents s'.1 s'.2 l
  linker : s'.2.mLinkerInUse = s.2.mLinkerInUse
  edited : Edited s.2.mLinkerInUse (fun _ => True) s.1 s'.1

section Calls

variable {s s' s'' : State α δ} {l l' : List α} {node : α}

omit [DecidableEq α] in
theorem Leaves.refl (hl : Represents s.1 s.2 l) : Leaves s s l := ⟨hl, rfl, Edited.refl⟩

omit [DecidableEq α] in
theorem Leaves.trans (h : Leaves s s' l) (h' : Leaves s' s'' l') : Leaves s s'' l' where
  represents := h'.represents
  linker := h'.linker.trans h.linker
  edited := h.edited.trans (h.linker ▸ h'.edited)

theorem leaves_insert (hl : Represents s.1 s.2 l) (hnode : node ∉ l) :
    Leaves s (s.2.insert s.1 node) (l ++ [node]) where
  represents := represents_insert hl hnode
  linker := insert_mLinkerInUse s.1 s.2 node
  edited := (edited_insert hl).mono fun _ _ => trivial

theorem leaves_insertStart (hl : Represents s.1 s.2 l) (hnode : node ∉ l) :
    Leaves s (s.2.insertStart s.1 node) (node :: l) where
  represents := represents_insertStart hl hnode
  linker := insertStart_mLinkerInUse s.1 s.2 node
  edited := (edited_insertStart hl).mono fun _ _ => trivial

theorem leaves_insertBefore {l₁ l₂ : List α} {curNode : α}
    (hl : Represents s.1 s.2 (l₁ ++ curNode :: l₂)) (hnode : node ∉ l₁ ++ curNode :: l₂) :
    Leaves s (s.2.insertBefore s.1 node curNode) (l₁ ++ node :: curNode :: l₂) where
  represents := represents_insertBefore hl hnode
  linker := insertBefore_mLinkerInUse
  edited := (edited_insertBefore hl).mono fun _ _ => trivial

theorem leaves_insertWithPolicy (hl : Represents s.1 s.2 l) (hnode : node ∉ l)
    (policyCB : α → α → Bool) :
    Leaves s (s.2.insertWithPolicy s.1 policyCB node)
      (l.takeWhile (!policyCB node ·) ++ node :: l.dropWhile (!policyCB node ·)) where
  represents := by
    rw [← insertWithPolicy_eq]
    exact represents_insertWithPolicy hl hnode
  linker := insertWithPolicy_mLinkerInUse s.1 s.2 node policyCB
  edited := (edited_insertWithPolicy hl hnode).mono fun _ _ => trivial

theorem leaves_deleteNode (hl : Represents s.1 s.2 l) (hnode : node ∈ l) :
    Leaves s (s.2.deleteNode s.1 node) (l.erase node) where
  represents := by
    have herase : l.erase node = DLManager.deleteNode l node := by
      rw [hl.nodup.erase_eq_filter, DLManager.deleteNode]
      exact List.filter_congr fun a _ => decide_not.symm
    rw [herase]
    exact represents_deleteNode hl hnode
  linker := deleteNode_mLinkerInUse s.1 s.2 node
  edited := (edited_deleteNode hl hnode).mono fun _ _ => trivial

/-- `INSERT_N_NODE_START`, with its four special cases. -/
theorem leaves_insertNth (hl : Represents s.1 s.2 l) (hnode : node ∉ l) (n : Int) :
    ∃ s', insertHelperAt s (some node) .INSERT_N_NODE_START n =
        some (((Op.insertAt (some node) .INSERT_N_NODE_START n).result l).1, s') ∧
      Leaves s s' ((Op.insertAt (some node) .INSERT_N_NODE_START n).result l).2 := by
  have hsize := hl.size
  simp only [insertHelperAt, Op.result, hsize]
  by_cases hneg : n < 0
  · rw [if_pos hneg, if_neg (by omega)]
    exact ⟨s, rfl, .refl hl⟩
  rw [if_neg hneg]
  by_cases hzero : n = 0
  · subst hzero
    rw [if_pos rfl, if_pos (by omega)]
    exact ⟨_, rfl, leaves_insertStart hl hnode⟩
  rw [if_neg hzero]
  by_cases hend : n = l.length + 1
  · subst hend
    have hlast : (max ((l.length : Int) + 1) 1).toNat - 1 = l.length := by omega
    rw [if_pos rfl, if_pos (by omega), hlast, List.insertIdx_length_self]
    exact ⟨_, rfl, leaves_insert hl hnode⟩
  rw [if_neg hend]
  by_cases hlong : n > l.length
  · rw [if_pos hlong, if_neg (by omega)]
    exact ⟨s, rfl, .refl hl⟩
  · -- the loop stops at the `n`-th node
    have hlt : n.toNat - 1 < l.length := by omega
    have hfound := (nthFrom_of_path hl.forward (n.toNat - 1)).trans (List.getElem?_eq_getElem hlt)
    have hsplit := List.take_append_drop (n.toNat - 1) l
    have hlength : (l.take (n.toNat - 1)).length = n.toNat - 1 := by
      rw [List.length_take]
      omega
    rw [List.drop_eq_getElem_cons hlt] at hsplit
    have hplace : l.insertIdx ((max n 1).toNat - 1) node =
        l.take (n.toNat - 1) ++ node :: l[n.toNat - 1] :: l.drop (n.toNat - 1 + 1) := by
      have hinsert := Lists.insertIdx_append_length (l.take (n.toNat - 1))
        (l[n.toNat - 1] :: l.drop (n.toNat - 1 + 1)) node
      rw [hsplit, hlength] at hinsert
      rw [show (max n 1).toNat - 1 = n.toNat - 1 by omega, hinsert]
    rw [← hsplit] at hl hnode
    rw [if_neg hlong, if_pos (by omega), hplace]
    refine ⟨_, ?_, leaves_insertBefore hl hnode⟩
    exact congrArg (Option.map _) hfound

/-- **A call does what it is for.** -/
theorem refines_step (hl : Represents s.1 s.2 l) {op : Op α} (hop : op.Allowed l) :
    ∃ s', step s op = some ((op.result l).1, s') ∧ Leaves s s' (op.result l).2 := by
  cases op with
  | insert node =>
    cases node with
    | none => exact ⟨s, rfl, .refl hl⟩
    | some node => exact ⟨_, rfl, leaves_insert hl (hop node rfl)⟩
  | insertAt node option n =>
    cases node with
    | none => exact ⟨s, rfl, .refl hl⟩
    | some node =>
      cases option with
      | INSERT_START => exact ⟨_, rfl, leaves_insertStart hl (hop node rfl)⟩
      | INSERT_END => exact ⟨_, rfl, leaves_insert hl (hop node rfl)⟩
      | INSERT_N_NODE_START => exact leaves_insertNth hl (hop node rfl) n
  | insertWithPolicy node policyCB =>
    cases node with
    | none => exact ⟨s, rfl, .refl hl⟩
    | some node => exact ⟨_, rfl, leaves_insertWithPolicy hl (hop node rfl) policyCB⟩
  | deleteNode node =>
    cases node with
    | none => exact ⟨s, rfl, .refl hl⟩
    | some node => exact ⟨_, rfl, leaves_deleteNode hl (hop node rfl)⟩

/-- **So does every sequence of calls.** -/
theorem refines_exec (hl : Represents s.1 s.2 l) {ops : List (Op α)} (hops : Op.AllAllowed l ops) :
    ∃ s', exec s ops = some ((Op.results l ops).1, s') ∧ Leaves s s' (Op.results l ops).2 := by
  induction ops generalizing s l with
  | nil => exact ⟨s, rfl, .refl hl⟩
  | cons op ops ih =>
    obtain ⟨hop, hops⟩ := hops
    obtain ⟨s₁, hstep, hleaves⟩ := refines_step hl hop
    obtain ⟨s', hexec, hleaves'⟩ := ih hleaves.represents hops
    refine ⟨s', ?_, hleaves.trans hleaves'⟩
    rw [exec, hstep, Option.bind_some, hexec]
    rfl

/-- A call that is refused changes nothing. -/
theorem eq_of_refused {op : Op α} {code : ErrCode} (hstep : step s op = some (code, s'))
    (hcode : code ≠ .RC_SUCCESS) : s' = s := by
  have hrefused : ∀ {c : ErrCode} {t : State α δ}, some (c, t) = some (code, s') →
      c = .RC_SUCCESS ∨ t = s → s' = s := by
    rintro c t heq hc
    obtain ⟨rfl, rfl⟩ := Prod.mk.inj (Option.some.inj heq)
    exact hc.resolve_left hcode
  cases op with
  | insert node => cases node <;> exact hrefused hstep (by simp)
  | insertWithPolicy node policyCB => cases node <;> exact hrefused hstep (by simp)
  | deleteNode node => cases node <;> exact hrefused hstep (by simp)
  | insertAt node option n =>
    cases node with
    | none => exact hrefused hstep (Or.inr rfl)
    | some node =>
      cases option with
      | INSERT_START => exact hrefused hstep (Or.inl rfl)
      | INSERT_END => exact hrefused hstep (Or.inl rfl)
      | INSERT_N_NODE_START =>
        simp only [step, insertHelperAt] at hstep
        split at hstep
        · exact hrefused hstep (Or.inr rfl)
        split at hstep
        · exact hrefused hstep (Or.inl rfl)
        split at hstep
        · exact hrefused hstep (Or.inl rfl)
        split at hstep
        · exact hrefused hstep (Or.inr rfl)
        · obtain ⟨curNode, -, heq⟩ := Option.map_eq_some_iff.mp hstep
          exact absurd (Prod.mk.inj heq).1.symm hcode

end Calls

/-! ## Any number of calls -/

/-- **A list after calls**: every answer and the sequence of nodes are what the calls are for; from
the head and from the tail the same nodes are met in opposite orders and counted; no link of the other
pair is written; and a call that is refused writes nothing at all. -/
theorem lists_of_calls (linker : Fin 2) (h : Nodes α δ) (ops : List (Op α))
    (hops : Op.AllAllowed [] ops) :
    ∃ h' dlm', exec (h, new linker) ops = some ((Op.results [] ops).1, h', dlm') ∧
      (forward h' dlm').Holds (Op.results [] ops).2 ∧
      (backward h' dlm').Holds (Op.results [] ops).2.reverse ∧
      (Op.results [] ops).2.Nodup ∧
      dlm'.mSize = (Op.results [] ops).2.length ∧
      dlm'.mLinkerInUse = linker ∧
      (dlm'.mHead = none ↔ dlm'.mTail = none) ∧
      (∀ other ≠ linker, ∀ a,
        h'.nexts other a = h.nexts other a ∧ h'.prevs other a = h.prevs other a) ∧
      ∀ (op : Op α) (code : ErrCode) (s' : State α δ),
        step (h', dlm') op = some (code, s') → code ≠ .RC_SUCCESS → s' = (h', dlm') := by
  obtain ⟨⟨h', dlm'⟩, hexec, hleaves⟩ := refines_exec (s := (h, new linker)) (represents_new h linker) hops
  have hl := hleaves.represents
  refine ⟨h', dlm', hexec, hl.forward, hl.backward, hl.nodup, hl.size, hleaves.linker, ?_, ?_, ?_⟩
  · rw [hl.head, hl.tail, List.head?_eq_none_iff, List.getLast?_eq_none_iff]
  · intro other hother a
    exact ⟨hleaves.edited.nexts other a (Or.inl hother), hleaves.edited.prevs other a (Or.inl hother)⟩
  · exact fun op code s' hstep hcode => eq_of_refused hstep hcode

/-- Nodes that hang nowhere yet. -/
def freshNodes : Nodes Nat Unit := fun _ => ⟨(), ⟨none, none⟩, ⟨none, none⟩⟩

def sampleCalls : List (Op Nat) :=
  [.insert (some 5), .insertAt (some 6) .INSERT_N_NODE_START 1,
    .insertWithPolicy (some 7) fun _ a => a == 5, .insertAt (some 8) .INSERT_N_NODE_START 9,
    .deleteNode (some 6)]

/-- Five calls, one of them refused: the list is `7, 5`. -/
theorem lists_of_calls_sample :
    Op.AllAllowed [] sampleCalls ∧ ∃ h' dlm', exec (freshNodes, new 1) sampleCalls =
        some ([.RC_SUCCESS, .RC_SUCCESS, .RC_SUCCESS, .RC_BAD_ARG, .RC_SUCCESS], h', dlm') ∧
      (forward h' dlm').Holds [7, 5] := by
  have hops : Op.AllAllowed [] sampleCalls := by
    simp [sampleCalls, Op.AllAllowed, Op.Allowed, Op.result]
  obtain ⟨h', dlm', hexec, hforward, -⟩ := lists_of_calls 1 freshNodes sampleCalls hops
  exact ⟨hops, h', dlm', hexec, hforward⟩

end DLManagerPtr

end ResourceTuner
