import Mathlib.Data.List.Basic

/-!
# Doubly linked lists

`modula/Components/DLManager.cpp` at the level of the sequence of nodes a list holds: the four
ways the program inserts, deletion, the head test and the pairwise comparison of two lists.
-/

namespace ResourceTuner

namespace DLManager

variable {α β : Type}

/-- `insert(node)`: append at the tail. -/
def insert (l : List α) (node : α) : List α := l ++ [node]

/-- `insert(node, INSERT_START)`. -/
def insertStart (l : List α) (node : α) : List α := node :: l

/-- `insertWithPolicy(node, policyCB)`: before the first element for which the policy answers
true, at the tail when there is none. -/
def insertWithPolicy (policyCB : α → α → Bool) (node : α) : List α → List α
  | [] => [node]
  | curr :: rest =>
    if policyCB node curr then node :: curr :: rest
    else curr :: insertWithPolicy policyCB node rest

/-- `isNodeNth(n, node)`. -/
def isNodeNth [DecidableEq α] (l : List α) (n : Nat) (node : α) : Bool := l[n]? == some node

/-- `deleteNode(node)`: unlink the node. -/
def deleteNode [DecidableEq α] (l : List α) (node : α) : List α := l.filter (· ≠ node)

/-- `matchAgainst(target, cmpPolicy)` with a comparison callback: same length and every pair
accepted. -/
def matchAgainst (cmpPolicy : α → β → Bool) : List α → List β → Bool
  | [], [] => true
  | src :: srcs, target :: targets => cmpPolicy src target && matchAgainst cmpPolicy srcs targets
  | _, _ => false

/-! ### Lists of what the nodes stand for -/

section Map

variable {f : α → β} {node : α} {l : List α}

theorem insertWithPolicy_map (policyCB : β → β → Bool) :
    (insertWithPolicy (fun a b => policyCB (f a) (f b)) node l).map f =
      insertWithPolicy policyCB (f node) (l.map f) := by
  induction l with
  | nil => rfl
  | cons curr rest ih =>
    rw [List.map_cons, insertWithPolicy, insertWithPolicy]
    split
    · rfl
    · rw [List.map_cons, ih]

variable [DecidableEq α] [DecidableEq β]

theorem isNodeNth_map (hinj : ∀ a b, f a = f b → a = b) (n : Nat) :
    isNodeNth (l.map f) n (f node) = isNodeNth l n node := by
  unfold isNodeNth
  rw [List.getElem?_map]
  cases l[n]? with
  | none => rfl
  | some a =>
    have hiff : f a = f node ↔ a = node := ⟨hinj a node, congrArg f⟩
    simp [hiff]

theorem deleteNode_map (hinj : ∀ a b, f a = f b → a = b) :
    (deleteNode l node).map f = deleteNode (l.map f) (f node) := by
  unfold deleteNode
  rw [List.filter_map]
  refine congrArg (List.map f) (List.filter_congr fun a _ => ?_)
  have hiff : f a = f node ↔ a = node := ⟨hinj a node, congrArg f⟩
  simp [hiff]

end Map

end DLManager

end ResourceTuner
