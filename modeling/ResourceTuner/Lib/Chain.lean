import Mathlib.Data.List.Induction
import Mathlib.Data.List.Nodup
import Mathlib.Logic.Function.Basic

/-!
# Chains

One direction of a linked list is a chain: a pointer to the first node, and in every node a link to
the next.  A doubly linked list is two chains over the same nodes that hold them in opposite orders,
and what is done to the list is done to both.

* **`Holds`** — the chain holds the nodes of a list, in this order;
* **`walk`**, **`iterate`** — reading a chain, with a bound on the number of nodes;
* **`Holds.congr`** — only the links of the chain's own nodes matter;
* **`holds_splice`, `holds_unlink`** — a node is put between two parts of a list, or taken out;
* **`Holds.pop`, `Holds.push`** — the same at the start of the chain.
-/

/-- A pointer to the first node, and the link of every node. -/
structure Chain (α : Type) where
  start : Option α
  link : α → Option α

namespace Chain

variable {α : Type} {link link' : α → Option α} {p q : Option α} {l l' l₁ l₂ : List α} {b : α}
  {c c' : Chain α}

/-- Following the links from `p` one passes the nodes of a list and arrives at `q`. -/
def Path (link : α → Option α) : Option α → List α → Option α → Prop
  | p, [], q => p = q
  | p, a :: l, q => p = some a ∧ Path link (link a) l q

/-- The chain holds the nodes of the list and ends after them. -/
def Holds (c : Chain α) (l : List α) : Prop := Path c.link c.start l none

theorem path_append :
    Path link p (l₁ ++ l₂) q ↔ ∃ r, Path link p l₁ r ∧ Path link r l₂ q := by
  induction l₁ generalizing p with
  | nil =>
    constructor
    · intro h
      exact ⟨p, rfl, h⟩
    · rintro ⟨r, hr, h⟩
      obtain rfl : p = r := hr
      exact h
  | cons a rest ih =>
    constructor
    · rintro ⟨rfl, h⟩
      obtain ⟨r, hrest, h⟩ := ih.mp h
      exact ⟨r, ⟨rfl, hrest⟩, h⟩
    · rintro ⟨r, ⟨rfl, hrest⟩, h⟩
      exact ⟨rfl, ih.mpr ⟨r, hrest, h⟩⟩

theorem Path.congr (h : Path link p l q) (hlink : ∀ a ∈ l, link' a = link a) :
    Path link' p l q := by
  induction l generalizing p with
  | nil => exact h
  | cons a rest ih =>
    obtain ⟨rfl, h⟩ := h
    refine ⟨rfl, ?_⟩
    rw [hlink a List.mem_cons_self]
    exact ih h fun a' ha' => hlink a' (List.mem_cons_of_mem a ha')

/-- A chain begins with the first node. -/
theorem Path.head (h : Path link p l none) : p = l.head? := by
  cases l with
  | nil => exact h
  | cons a rest => exact h.1

/-- A chain that is not changed at its own nodes holds the same list. -/
theorem Holds.congr (h : c.Holds l) (hstart : c'.start = c.start)
    (hlink : ∀ a ∈ l, c'.link a = c.link a) : c'.Holds l := by
  unfold Holds
  rw [hstart]
  exact Path.congr h hlink

/-- A chain holds one list. -/
theorem Holds.unique (h : c.Holds l) (h' : c.Holds l') : l = l' := by
  unfold Holds at h h'
  generalize c.start = p at h h'
  induction l generalizing p l' with
  | nil =>
    obtain rfl : p = none := h
    cases l' with
    | nil => rfl
    | cons a rest => cases h'.1
  | cons a rest ih =>
    obtain ⟨rfl, h⟩ := h
    cases l' with
    | nil => cases h'
    | cons a' rest' =>
      obtain ⟨ha, h'⟩ := h'
      obtain rfl := Option.some.inj ha
      rw [ih _ h h']

/-- Dropping the first node. -/
theorem Holds.pop (h : c.Holds (b :: l)) : (⟨c.link b, c.link⟩ : Chain α).Holds l := h.2

/-- A node links to its successor. -/
theorem Holds.link_eq (h : c.Holds (l₁ ++ b :: l₂)) : c.link b = l₂.head? := by
  obtain ⟨r, -, rfl, h₂⟩ := path_append.mp h
  exact h₂.head

/-! ## Reading -/

/-- The nodes one passes from `p`, at most a number of them. -/
def walk (link : α → Option α) : Nat → Option α → List α
  | 0, _ => []
  | _ + 1, none => []
  | n + 1, some a => a :: walk link n (link a)

theorem walk_of_path {n : Nat} (h : Path link p l none) (hn : l.length ≤ n) :
    walk link n p = l := by
  induction l generalizing p n with
  | nil =>
    obtain rfl : p = none := h
    cases n <;> rfl
  | cons a rest ih =>
    obtain ⟨rfl, h⟩ := h
    cases n with
    | zero => simp at hn
    | succ n => rw [walk, ih h (by simpa using hn)]

/-- A loop over the nodes from `p`, at most a number of them.  The link to the next node is read from
the state that the body has left. -/
def iterate {σ : Type} (link : σ → α → Option α) (body : σ → α → σ) : Nat → Option α → σ → σ
  | 0, _, s => s
  | _ + 1, none, s => s
  | n + 1, some a, s => iterate link body n (link (body s a) a) (body s a)

/-- The rule for a loop whose body does not touch the links of the chain: what holds of the nodes
that are still to come is carried to the end. -/
theorem iterate_of_path {σ : Type} {link : σ → α → Option α} {body : σ → α → σ} {s : σ} {n : Nat}
    {Ok : List α → σ → Prop}
    (hbody : ∀ s a rest, Ok (a :: rest) s → Ok rest (body s a) ∧ link (body s a) = link s)
    (hok : Ok l s) (h : Path (link s) p l none) (hn : l.length ≤ n) :
    Ok [] (iterate link body n p s) := by
  induction l generalizing p n s with
  | nil =>
    obtain rfl : p = none := h
    cases n <;> exact hok
  | cons a rest ih =>
    obtain ⟨rfl, h⟩ := h
    obtain ⟨hrest, hlink⟩ := hbody s a rest hok
    cases n with
    | zero => simp at hn
    | succ n =>
      rw [iterate, hlink]
      exact ih hrest (by rw [hlink]; exact h) (by simpa using hn)

/-! ## Writing -/

variable [DecidableEq α]

/-- Put a node between two neighbours. -/
def splice (c : Chain α) (before : Option α) (b : α) (after : Option α) : Chain α :=
  match before with
  | none => ⟨some b, Function.update c.link b after⟩
  | some a => ⟨c.start, Function.update (Function.update c.link b after) a (some b)⟩

/-- Take out what is between two neighbours. -/
def unlink (c : Chain α) (before after : Option α) : Chain α :=
  match before with
  | none => ⟨after, c.link⟩
  | some a => ⟨c.start, Function.update c.link a after⟩

/-- Putting a node before all others. -/
theorem Holds.push (h : c.Holds l) (hb : b ∉ l) :
    (⟨some b, Function.update c.link b c.start⟩ : Chain α).Holds (b :: l) := by
  refine ⟨rfl, ?_⟩
  dsimp only
  rw [Function.update_self]
  refine Path.congr h fun a ha => Function.update_of_ne ?_ _ _
  rintro rfl
  exact hb ha

theorem holds_splice (h : c.Holds (l₁ ++ l₂)) (hnodup : (l₁ ++ l₂).Nodup) (hb : b ∉ l₁ ++ l₂) :
    (c.splice l₁.getLast? b l₂.head?).Holds (l₁ ++ b :: l₂) := by
  obtain ⟨r, h₁, h₂⟩ := path_append.mp h
  obtain rfl := h₂.head
  rw [List.mem_append, not_or] at hb
  induction l₁ using List.reverseRecOn with
  | nil =>
    refine ⟨rfl, ?_⟩
    simp only [splice, List.getLast?_nil, Function.update_self]
    exact h₂.congr fun a ha => Function.update_of_ne (by rintro rfl; exact hb.2 ha) _ _
  | append_singleton l₀ a _ =>
    obtain ⟨r, h₀, ha⟩ := path_append.mp h₁
    obtain ⟨rfl, -⟩ := ha
    have hdisjoint := List.nodup_append.mp hnodup
    have hnodup₁ := List.nodup_append.mp hdisjoint.1
    have hab : b ≠ a := by
      rintro rfl
      exact hb.1 (by simp)
    have hsplice : c.splice (l₀ ++ [a]).getLast? b l₂.head? =
        ⟨c.start, Function.update (Function.update c.link b l₂.head?) a (some b)⟩ := by
      simp [splice]
    rw [hsplice, Holds, List.append_assoc]
    dsimp only
    refine path_append.mpr ⟨some a, h₀.congr fun a' ha' => ?_, rfl, ?_⟩
    · -- the nodes before the last are not touched
      have hne : a' ≠ a := hnodup₁.2.2 a' ha' a (by simp)
      have hne' : a' ≠ b := by
        rintro rfl
        exact hb.1 (by simp [ha'])
      rw [Function.update_of_ne hne, Function.update_of_ne hne']
    · rw [Function.update_self]
      refine ⟨rfl, ?_⟩
      rw [Function.update_of_ne hab, Function.update_self]
      refine h₂.congr fun a' ha' => ?_
      have hne : a' ≠ a := fun heq => hdisjoint.2.2 a (by simp) a' ha' heq.symm
      have hne' : a' ≠ b := by
        rintro rfl
        exact hb.2 ha'
      rw [Function.update_of_ne hne, Function.update_of_ne hne']

theorem holds_unlink (h : c.Holds (l₁ ++ b :: l₂)) (hnodup : (l₁ ++ b :: l₂).Nodup) :
    (c.unlink l₁.getLast? l₂.head?).Holds (l₁ ++ l₂) := by
  obtain ⟨r, h₁, rfl, h₂⟩ := path_append.mp h
  have hhead := h₂.head
  rw [hhead] at h₂
  have hdisjoint := List.nodup_append.mp hnodup
  induction l₁ using List.reverseRecOn with
  | nil => exact h₂
  | append_singleton l₀ a _ =>
    obtain ⟨r, h₀, ha⟩ := path_append.mp h₁
    obtain ⟨rfl, -⟩ := ha
    have hnodup₁ := List.nodup_append.mp hdisjoint.1
    have hunlink : c.unlink (l₀ ++ [a]).getLast? l₂.head? =
        ⟨c.start, Function.update c.link a l₂.head?⟩ := by
      simp [unlink]
    rw [hunlink, Holds, List.append_assoc]
    dsimp only
    refine path_append.mpr ⟨some a, h₀.congr fun a' ha' => ?_, rfl, ?_⟩
    · exact Function.update_of_ne (hnodup₁.2.2 a' ha' a (by simp)) _ _
    · rw [Function.update_self]
      refine h₂.congr fun a' ha' => Function.update_of_ne ?_ _ _
      exact fun heq => hdisjoint.2.2 a (by simp) a' (List.mem_cons_of_mem b ha') heq.symm

end Chain
