import Mathlib.Data.List.Basic

/-!
# Machines driven by events

A machine is a next-state function on events with a guard that says in which states an event can
happen.  Several threads that take turns are one machine whose events name the thread that moves:
an interleaving is then a list of events, and a property of all interleavings is a property of all
lists whose guards hold along the way.

* **`Steps P`** — every event of a list satisfies `P` in the state it happens in;
* **`Run`** — the guards hold;
* **`Steps.invariant`** — what one step preserves, a run preserves;
* **`Ever P`** — some event of a list satisfies `P`;
* **`Along P`** — every state on the way satisfies `P`.
-/

/-- A next-state function and its guard. -/
structure Machine (σ ε : Type) where
  Enabled : σ → ε → Prop
  next : σ → ε → σ

namespace Machine

variable {σ ε : Type} (m : Machine σ ε)

/-- The state after a list of events. -/
def exec (s : σ) (events : List ε) : σ := events.foldl m.next s

@[simp] theorem exec_nil (s : σ) : m.exec s [] = s := rfl

@[simp] theorem exec_cons (s : σ) (e : ε) (events : List ε) :
    m.exec s (e :: events) = m.exec (m.next s e) events := rfl

@[simp] theorem exec_append (s : σ) (events more : List ε) :
    m.exec s (events ++ more) = m.exec (m.exec s events) more := List.foldl_append

/-- Every event satisfies `P` in the state it happens in. -/
def Steps (P : σ → ε → Prop) : σ → List ε → Prop
  | _, [] => True
  | s, e :: events => P s e ∧ Steps P (m.next s e) events

instance {P : σ → ε → Prop} [∀ s e, Decidable (P s e)] (s : σ) (events : List ε) :
    Decidable (m.Steps P s events) :=
  match events with
  | [] => .isTrue trivial
  | e :: events =>
    have := instDecidableSteps (P := P) (m.next s e) events
    inferInstanceAs (Decidable (P s e ∧ m.Steps P (m.next s e) events))

/-- The events can happen one after the other. -/
def Run (s : σ) (events : List ε) : Prop := m.Steps m.Enabled s events

instance [∀ s e, Decidable (m.Enabled s e)] (s : σ) (events : List ε) :
    Decidable (m.Run s events) :=
  inferInstanceAs (Decidable (m.Steps m.Enabled s events))

/-- Some event satisfies `P` in the state it happens in. -/
def Ever (P : σ → ε → Prop) : σ → List ε → Prop
  | _, [] => False
  | s, e :: events => P s e ∨ Ever P (m.next s e) events

/-- Every state on the way satisfies `P`, the last one too. -/
def Along (P : σ → Prop) : σ → List ε → Prop
  | s, [] => P s
  | s, e :: events => P s ∧ Along P (m.next s e) events

instance {P : σ → Prop} [∀ s, Decidable (P s)] (s : σ) (events : List ε) :
    Decidable (m.Along P s events) :=
  match events with
  | [] => inferInstanceAs (Decidable (P s))
  | e :: events =>
    have := instDecidableAlong (P := P) (m.next s e) events
    inferInstanceAs (Decidable (P s ∧ m.Along P (m.next s e) events))

variable {m} {P Q : σ → ε → Prop} {s : σ} {events more : List ε}

theorem Steps.and (hP : m.Steps P s events) (hQ : m.Steps Q s events) :
    m.Steps (fun s e => P s e ∧ Q s e) s events := by
  induction events generalizing s with
  | nil => trivial
  | cons e events ih => exact ⟨⟨hP.1, hQ.1⟩, ih hP.2 hQ.2⟩

theorem Steps.mono (hP : m.Steps P s events) (h : ∀ s e, P s e → Q s e) : m.Steps Q s events := by
  induction events generalizing s with
  | nil => trivial
  | cons e events ih => exact ⟨h s e hP.1, ih hP.2⟩

theorem steps_append :
    m.Steps P s (events ++ more) ↔ m.Steps P s events ∧ m.Steps P (m.exec s events) more := by
  induction events generalizing s with
  | nil => simp [Steps]
  | cons e events ih => simp [Steps, ih, and_assoc]

/-- The invariant rule: what holds at the start and survives every step holds at the end. -/
theorem Steps.invariant {I : σ → Prop} (hsteps : m.Steps P s events) (hinit : I s)
    (hstep : ∀ s e, I s → P s e → I (m.next s e)) : I (m.exec s events) := by
  induction events generalizing s with
  | nil => exact hinit
  | cons e events ih => exact ih hsteps.2 (hstep s e hinit hsteps.1)

/-- What an invariant implies of the next event holds at every step. -/
theorem Steps.of_invariant {I : σ → Prop} (hsteps : m.Steps P s events) (hinit : I s)
    (hstep : ∀ s e, I s → P s e → I (m.next s e)) (hQ : ∀ s e, I s → P s e → Q s e) :
    m.Steps Q s events := by
  induction events generalizing s with
  | nil => trivial
  | cons e events ih =>
    exact ⟨hQ s e hinit hsteps.1, ih hsteps.2 (hstep s e hinit hsteps.1)⟩

/-- The steps are those after the prefixes of the list. -/
theorem steps_iff : m.Steps P s events ↔
    ∀ before e after, events = before ++ e :: after → P (m.exec s before) e := by
  induction events generalizing s with
  | nil => simp [Steps]
  | cons e events ih =>
    constructor
    · rintro ⟨hs, hrest⟩ before e' after heq
      cases before with
      | nil =>
        obtain ⟨rfl, -⟩ := List.cons.inj heq
        exact hs
      | cons e'' before =>
        obtain ⟨rfl, htail⟩ := List.cons.inj heq
        exact ih.mp hrest before e' after htail
    · intro h
      exact ⟨h [] e events rfl,
        ih.mpr fun before e' after heq => h (e :: before) e' after (by rw [heq]; rfl)⟩

/-- The states on the way are those after the prefixes of the list. -/
theorem along_iff {I : σ → Prop} : m.Along I s events ↔
    ∀ before after, events = before ++ after → I (m.exec s before) := by
  induction events generalizing s with
  | nil =>
    refine ⟨fun h before after heq => ?_, fun h => h [] [] rfl⟩
    rw [(List.append_eq_nil_iff.mp heq.symm).1]
    exact h
  | cons e events ih =>
    constructor
    · rintro ⟨hs, hrest⟩ before after heq
      cases before with
      | nil => exact hs
      | cons e' before =>
        obtain ⟨rfl, htail⟩ := List.cons.inj heq
        exact ih.mp hrest before after htail
    · intro h
      exact ⟨h [] _ rfl, ih.mpr fun before after heq => h (e :: before) after (by rw [heq]; rfl)⟩

/-- A property of the events alone. -/
theorem steps_of_forall {R : ε → Prop} (h : ∀ e ∈ events, R e) :
    m.Steps (fun _ => R) s events := by
  induction events generalizing s with
  | nil => trivial
  | cons e events ih =>
    exact ⟨h e List.mem_cons_self, ih fun e' he' => h e' (List.mem_cons_of_mem _ he')⟩

/-- Either `P` happens, or its negation holds at every step. -/
theorem not_ever_iff : ¬ m.Ever P s events ↔ m.Steps (fun s e => ¬ P s e) s events := by
  induction events generalizing s with
  | nil => simp [Steps, Ever]
  | cons e events ih => simp [Steps, Ever, ih]

/-- What happens at some step happens after a prefix of the list. -/
theorem Ever.exists_step (h : m.Ever P s events) :
    ∃ before e after, events = before ++ e :: after ∧ P (m.exec s before) e := by
  induction events generalizing s with
  | nil => exact h.elim
  | cons e events ih =>
    rcases h with h | h
    · exact ⟨[], e, events, rfl, h⟩
    · obtain ⟨before, e', after, rfl, hP⟩ := ih h
      exact ⟨e :: before, e', after, rfl, hP⟩

end Machine
