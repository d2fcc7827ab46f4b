/-!
# Loops over a stream of events

A loop that reads events one by one goes on, returns, or does something undefined.  What a prefix of
the events does to it is a relation on its states, which composes.

* **`run`** — the loop;
* **`Reaches`** — the states along it;
* **`run_of_reaches`**, **`run_eq_fault_iff`** — the loop in terms of the states it reaches;
* **`returned_iff_not_meets`** — when it returns.
-/

namespace EventLoop

/-- Where an event leaves a loop. -/
inductive Outcome (σ ρ : Type) where
  | running (s : σ)
  | returned (result : ρ)
  | fault
  deriving DecidableEq, Repr

section

variable {σ ε ρ : Type} (step : σ → ε → Outcome σ ρ) (exhausted : σ → ρ)

/-- The loop from a state on; `exhausted` is what it returns where there are no more events. -/
def run : σ → List ε → Outcome σ ρ
  | s, [] => .returned (exhausted s)
  | s, event :: events =>
    match step s event with
    | .running s => run s events
    | .returned result => .returned result
    | .fault => .fault

/-- The events take the loop from one state to another. -/
inductive Reaches : σ → List ε → σ → Prop where
  | nil (s : σ) : Reaches s [] s
  | cons {s s' s'' : σ} {event : ε} {events : List ε} (hstep : step s event = .running s')
      (h : Reaches s' events s'') : Reaches s (event :: events) s''

variable {step exhausted} {s s' s'' : σ} {event : ε} {events events' : List ε}

theorem Reaches.single (hstep : step s event = .running s') : Reaches step s [event] s' :=
  .cons hstep (.nil s')

theorem Reaches.append (h : Reaches step s events s') (h' : Reaches step s' events' s'') :
    Reaches step s (events ++ events') s'' := by
  induction h with
  | nil s => exact h'
  | cons hstep _ ih => exact .cons hstep (ih h')

/-- What is reached over some events is reached over a state between them. -/
theorem Reaches.split (h : Reaches step s (events ++ events') s'') :
    ∃ s', Reaches step s events s' ∧ Reaches step s' events' s'' := by
  induction events generalizing s with
  | nil => exact ⟨s, .nil s, h⟩
  | cons event events ih =>
    cases h with
    | cons hstep h =>
      obtain ⟨s', hreach, hrest⟩ := ih h
      exact ⟨s', .cons hstep hreach, hrest⟩

/-- The events leave no choice. -/
theorem Reaches.unique (h : Reaches step s events s') (h' : Reaches step s events s'') : s' = s'' := by
  induction h with
  | nil s =>
    cases h'
    rfl
  | cons hstep _ ih =>
    cases h' with
    | cons hstep' h' =>
      cases hstep.symm.trans hstep'
      exact ih h'

theorem run_cons_running (hstep : step s event = .running s') :
    run step exhausted s (event :: events) = run step exhausted s' events := by
  rw [run, hstep]

theorem run_cons_returned {result : ρ} (hstep : step s event = .returned result) :
    run step exhausted s (event :: events) = .returned result := by
  rw [run, hstep]

/-- The loop goes on from what a prefix reaches. -/
theorem run_of_reaches (h : Reaches step s events s') (rest : List ε) :
    run step exhausted s (events ++ rest) = run step exhausted s' rest := by
  induction h with
  | nil s => rfl
  | cons hstep _ ih =>
    rw [List.cons_append, run_cons_running hstep]
    exact ih

/-- What every step keeps holds in every state that is reached. -/
theorem Reaches.invariant {P : σ → Prop} (h : Reaches step s events s')
    (hstep : ∀ s s' event, P s → step s event = .running s' → P s') (hs : P s) : P s' := by
  induction h with
  | nil s => exact hs
  | cons heq _ ih => exact ih (hstep _ _ _ hs heq)

/-- A loop returns, or ends in a fault. -/
theorem returned_or_fault (s : σ) (events : List ε) :
    (∃ result, run step exhausted s events = .returned result) ∨ run step exhausted s events = .fault := by
  induction events generalizing s with
  | nil => exact .inl ⟨exhausted s, rfl⟩
  | cons event events ih =>
    rw [run]
    cases step s event with
    | running s' => exact ih s'
    | returned result => exact .inl ⟨result, rfl⟩
    | fault => exact .inr rfl

/-- The loop ends in a fault when some state on its way has one at the next event. -/
theorem run_eq_fault_iff : run step exhausted s events = .fault ↔
    ∃ done event rest s', events = done ++ event :: rest ∧ Reaches step s done s' ∧
      step s' event = .fault := by
  constructor
  · intro h
    induction events generalizing s with
    | nil => cases h
    | cons event events ih =>
      rw [run] at h
      split at h
      · rename_i s' hstep
        obtain ⟨done, event', rest, s'', hsplit, hreach, hfault⟩ := ih h
        refine ⟨event :: done, event', rest, s'', ?_, .cons hstep hreach, hfault⟩
        rw [hsplit, List.cons_append]
      · cases h
      · rename_i hstep
        exact ⟨[], event, events, s, rfl, .nil s, hstep⟩
  · rintro ⟨done, event, rest, s', rfl, hreach, hfault⟩
    rw [run_of_reaches hreach, run, hfault]

/-- On its way the loop is in such a state in front of such an event. -/
def Meets (step : σ → ε → Outcome σ ρ) (s : σ) (events : List ε) (P : σ → ε → Prop) : Prop :=
  ∃ done event rest s', events = done ++ event :: rest ∧ Reaches step s done s' ∧ P s' event

/-- Where an invariant tells which events are faults, the loop returns when it meets none of them. -/
theorem returned_iff_not_meets {I : σ → Prop} {P : σ → ε → Prop}
    (hstep : ∀ s s' event, I s → step s event = .running s' → I s')
    (hfault : ∀ s event, I s → (step s event = .fault ↔ P s event)) (hs : I s) :
    (∃ result, run step exhausted s events = .returned result) ↔ ¬ Meets step s events P := by
  have hmeets : run step exhausted s events = .fault ↔ Meets step s events P := by
    rw [run_eq_fault_iff]
    constructor
    · rintro ⟨done, event, rest, s', hevents, hreach, hend⟩
      exact ⟨done, event, rest, s', hevents, hreach, (hfault s' event (hreach.invariant hstep hs)).mp hend⟩
    · rintro ⟨done, event, rest, s', hevents, hreach, hP⟩
      exact ⟨done, event, rest, s', hevents, hreach, (hfault s' event (hreach.invariant hstep hs)).mpr hP⟩
  rw [← hmeets]
  constructor
  · rintro ⟨result, hresult⟩ hend
    rw [hresult] at hend
    cases hend
  · exact (returned_or_fault s events).resolve_right

end

end EventLoop
