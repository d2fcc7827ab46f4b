import ResourceTuner.Lib.Machine

/-!
# Machines inside machines

One machine projects on another when each of its events is, for the part of the state the other one
sees, a list of the other's events that can happen there.  Then a run of the first is a run of the
second, and what holds in every state the second can reach holds of that part in every state the first
can reach.

* **`Projects`** — every step is a run of the other machine;
* **`Projects.exists_run`** — so is every run;
* **`recorded`** — what the steps of a run did, one after the other;
* **`Steps.invariant_recorded`** — an invariant that may speak of it.
-/

namespace Machine

variable {σ σ' ε ε' : Type}

/-- In the states with `I`, every step of `m` is a run of `m'` on what it sees, and keeps `I`. -/
structure Projects (m : Machine σ ε) (m' : Machine σ' ε') (I : σ → Prop) (view : σ → σ')
    (trace : σ → ε → List ε') : Prop where
  run : ∀ s e, I s → m.Enabled s e → m'.Run (view s) (trace s e)
  exec : ∀ s e, I s → m.Enabled s e → m'.exec (view s) (trace s e) = view (m.next s e)
  keep : ∀ s e, I s → m.Enabled s e → I (m.next s e)

theorem Projects.invariant {m : Machine σ ε} {m' : Machine σ' ε'} {I : σ → Prop} {view : σ → σ'}
    {trace : σ → ε → List ε'} (h : m.Projects m' I view trace) {s : σ} {events : List ε}
    (hinit : I s) (hrun : m.Run s events) : I (m.exec s events) :=
  hrun.invariant hinit h.keep

/-- A run of the machine is a run of what it projects on. -/
theorem Projects.exists_run {m : Machine σ ε} {m' : Machine σ' ε'} {I : σ → Prop} {view : σ → σ'}
    {trace : σ → ε → List ε'} (h : m.Projects m' I view trace) {s : σ} {events : List ε}
    (hinit : I s) (hrun : m.Run s events) :
    ∃ events', m'.Run (view s) events' ∧ m'.exec (view s) events' = view (m.exec s events) := by
  induction events generalizing s with
  | nil => exact ⟨[], trivial, rfl⟩
  | cons e events ih =>
    obtain ⟨henabled, hrest⟩ := hrun
    obtain ⟨events', hrun', hexec'⟩ := ih (h.keep s e hinit henabled) hrest
    have hstep := h.exec s e hinit henabled
    refine ⟨trace s e ++ events', ?_, ?_⟩
    · rw [Run, steps_append, hstep]
      exact ⟨h.run s e hinit henabled, hrun'⟩
    · rw [exec_append, hstep]
      exact hexec'

/-! ## What a run has done -/

/-- What the steps of a list of events do to something the state does not show, in their order. -/
def recorded (m : Machine σ ε) (trace : σ → ε → List ε') : σ → List ε → List ε'
  | _, [] => []
  | s, e :: events => trace s e ++ m.recorded trace (m.next s e) events

/-- The invariant rule with a record of the run so far. -/
theorem Steps.invariant_recorded {m : Machine σ ε} {P : σ → ε → Prop} {trace : σ → ε → List ε'}
    {I : σ → List ε' → Prop} {s : σ} {events : List ε} {seen : List ε'}
    (hsteps : m.Steps P s events) (hinit : I s seen)
    (hstep : ∀ s e seen, I s seen → P s e → I (m.next s e) (seen ++ trace s e)) :
    I (m.exec s events) (seen ++ m.recorded trace s events) := by
  induction events generalizing s seen with
  | nil =>
    rw [recorded, List.append_nil]
    exact hinit
  | cons e events ih =>
    rw [recorded, ← List.append_assoc]
    exact ih hsteps.2 (hstep s e seen hinit hsteps.1)

end Machine
