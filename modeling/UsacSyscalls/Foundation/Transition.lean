import Mathlib.Data.List.Basic

/-!
Contract: deterministic transition systems with outputs, and rules for whole
runs.

Owns runs over event lists, events that meet a condition in the state they are
taken in and the selection of those, the invariant rule under such a condition,
the exactness rule that compares the outputs of two systems related by a
simulation, the rule for a simulation that every step continues, the erasure
rule for events that leave the state alone, and the isolation rule for events
that share a view of it.

Does not own any concrete state, event or invariant.
-/

set_option autoImplicit false

namespace UsacSyscalls.Foundation

namespace Transition

variable {σ τ ε ω : Type}

section Runs

variable (step : σ → ε → ω × σ)

/-- The state after a run. -/
def final : σ → List ε → σ
  | state, [] => state
  | state, event :: rest => final (step state event).2 rest

/-- What a run outputs, one output for each event. -/
def outputs : σ → List ε → List ω
  | _, [] => []
  | state, event :: rest => (step state event).1 :: outputs (step state event).2 rest

/-- Every event of the run meets `condition` in the state it is taken in. -/
def Along (condition : σ → ε → Prop) : σ → List ε → Prop
  | _, [] => True
  | state, event :: rest => condition state event ∧ Along condition (step state event).2 rest

instance decidableAlong (condition : σ → ε → Prop)
    [∀ state event, Decidable (condition state event)] :
    (state : σ) → (events : List ε) → Decidable (Along step condition state events)
  | _, [] => .isTrue trivial
  | state, event :: rest =>
      haveI := decidableAlong condition (step state event).2 rest
      inferInstanceAs (Decidable (condition state event ∧ _))

/-- A condition that holds of every step holds along every run. -/
theorem along_of_forall {condition : σ → ε → Prop}
    (always : ∀ state event, condition state event) (state : σ) (events : List ε) :
    Along step condition state events := by
  induction events generalizing state with
  | nil => trivial
  | cons event rest inductionHypothesis => exact ⟨always _ _, inductionHypothesis _⟩

/-- A condition on events alone holds along the runs of events that meet it. -/
theorem along_of_mem {condition : ε → Prop} {events : List ε}
    (each : ∀ event ∈ events, condition event) (state : σ) :
    Along step (fun _ event => condition event) state events := by
  induction events generalizing state with
  | nil => trivial
  | cons event rest inductionHypothesis =>
      constructor
      · exact each event List.mem_cons_self
      · exact inductionHypothesis (fun other member => each other (List.mem_cons_of_mem _ member)) _

variable {step} in
theorem final_append_singleton (state : σ) (events : List ε) (event : ε) :
    final step state (events ++ [event]) = (step (final step state events) event).2 := by
  induction events generalizing state with
  | nil => rfl
  | cons first rest inductionHypothesis => exact inductionHypothesis _

variable {step} in
theorem along_append_singleton {condition : σ → ε → Prop} {state : σ} {events : List ε}
    {event : ε} :
    Along step condition state (events ++ [event]) ↔
      Along step condition state events ∧ condition (final step state events) event := by
  induction events generalizing state with
  | nil => simp [Along, final]
  | cons first rest inductionHypothesis =>
      simp only [List.cons_append, Along, final, inductionHypothesis, and_assoc]

theorem Along.of_append {condition : σ → ε → Prop} {state : σ} {events later : List ε}
    (along : Along step condition state (events ++ later)) : Along step condition state events := by
  induction events generalizing state with
  | nil => trivial
  | cons event rest inductionHypothesis => exact ⟨along.1, inductionHypothesis along.2⟩

theorem Along.imp {condition weaker : σ → ε → Prop} {state : σ} {events : List ε}
    (along : Along step condition state events)
    (implies : ∀ state event, condition state event → weaker state event) :
    Along step weaker state events := by
  induction events generalizing state with
  | nil => trivial
  | cons event rest inductionHypothesis =>
      exact ⟨implies _ _ along.1, inductionHypothesis along.2⟩

/-- The events of a run that meet `condition` in the state they are taken in,
latest first. -/
def selected (condition : σ → ε → Bool) : σ → List ε → List ε
  | _, [] => []
  | state, event :: rest =>
      selected condition (step state event).2 rest ++ [event].filter (condition state)

theorem selected_append_singleton (condition : σ → ε → Bool) (state : σ) (events : List ε)
    (event : ε) :
    selected step condition state (events ++ [event]) =
      [event].filter (condition (final step state events)) ++
        selected step condition state events := by
  induction events generalizing state with
  | nil =>
      rw [List.nil_append, selected, selected, selected, final, List.nil_append, List.append_nil]
  | cons first rest inductionHypothesis =>
      simp only [List.cons_append, selected, final, inductionHypothesis, List.append_assoc]

/-- Invariant rule: what the start satisfies and every step that meets the
condition keeps holds after every run whose steps meet it. -/
theorem invariant_final (condition : σ → ε → Prop) (invariant : σ → Prop)
    (keeps : ∀ state event, invariant state → condition state event →
      invariant (step state event).2)
    {state : σ} {events : List ε} (start : invariant state)
    (along : Along step condition state events) :
    invariant (final step state events) := by
  induction events generalizing state with
  | nil => exact start
  | cons event rest inductionHypothesis =>
      exact inductionHypothesis (keeps state event start along.1) along.2

/-- Erasure rule: events outside `kept` that leave the state alone can be
deleted from a run without changing where it ends. -/
theorem final_filter (kept : ε → Bool)
    (neutral : ∀ state event, kept event = false → (step state event).2 = state)
    (state : σ) (events : List ε) :
    final step state (events.filter kept) = final step state events := by
  induction events generalizing state with
  | nil => rfl
  | cons event rest inductionHypothesis =>
      cases keep : kept event with
      | true =>
          rw [List.filter_cons_of_pos (by simp [keep])]
          exact inductionHypothesis _
      | false =>
          rw [List.filter_cons_of_neg (by simp [keep])]
          simp only [final, neutral state event keep]
          exact inductionHypothesis state

/-- What the events of one kind output in a run. -/
def outputsOf (kept : ε → Bool) : σ → List ε → List ω
  | _, [] => []
  | state, event :: rest =>
      if kept event then (step state event).1 :: outputsOf kept (step state event).2 rest
      else outputsOf kept (step state event).2 rest

/-- Isolation rule: the events that are not kept leave a view of the state alone,
and the view determines what the kept events do to it and what the observed ones
among them output. Then the observed events output what they output in the run
of the kept events, from any state with the same view. -/
theorem outputsOf_filter {φ : Type} (observed kept : ε → Bool) (view : σ → φ)
    (included : ∀ event, observed event = true → kept event = true)
    (neutral : ∀ state event, kept event = false → view (step state event).2 = view state)
    (determined : ∀ state other event, kept event = true → view state = view other →
      (observed event = true → (step state event).1 = (step other event).1) ∧
        view (step state event).2 = view (step other event).2)
    {state other : σ} (events : List ε) (same : view state = view other) :
    outputsOf step observed state events =
      outputsOf step observed other (events.filter kept) := by
  induction events generalizing state other with
  | nil => rfl
  | cons event rest inductionHypothesis =>
      cases keep : kept event with
      | true =>
          obtain ⟨sameOutput, next⟩ := determined state other event keep same
          rw [List.filter_cons_of_pos keep]
          unfold outputsOf
          by_cases observes : observed event = true
          · rw [if_pos observes, if_pos observes, sameOutput observes, inductionHypothesis next]
          · rw [if_neg observes, if_neg observes, inductionHypothesis next]
      | false =>
          have unobserved : observed event ≠ true := by
            intro observes
            rw [included event observes] at keep
            cases keep
          rw [List.filter_cons_of_neg (by simp [keep])]
          conv_lhs => unfold outputsOf
          rw [if_neg unobserved]
          exact inductionHypothesis ((neutral state event keep).trans same)

end Runs

/-- Exactness rule: two systems are related by a simulation that every step
meeting `condition` continues with equal outputs, and every other step breaks
with different outputs. Then the runs output the same exactly when every step
meets the condition. `assumed` is what the surroundings promise of each step. -/
theorem outputs_eq_iff_along {concrete : σ → ε → ω × σ} {abstract : τ → ε → ω × τ}
    {related : σ → τ → Prop} {assumed condition : σ → ε → Prop}
    (continues : ∀ state model event, related state model → assumed state event →
      condition state event → (concrete state event).1 = (abstract model event).1 ∧
        related (concrete state event).2 (abstract model event).2)
    (breaks : ∀ state model event, related state model → ¬ condition state event →
      (concrete state event).1 ≠ (abstract model event).1)
    {state : σ} {model : τ} {events : List ε} (start : related state model)
    (promised : Along concrete assumed state events) :
    outputs concrete state events = outputs abstract model events ↔
      Along concrete condition state events := by
  induction events generalizing state model with
  | nil => simp [outputs, Along]
  | cons event rest inductionHypothesis =>
      simp only [outputs, Along, List.cons.injEq]
      by_cases meets : condition state event
      · obtain ⟨sameOutput, next⟩ := continues state model event start promised.1 meets
        rw [inductionHypothesis next promised.2]
        simp [sameOutput, meets]
      · have different := breaks state model event start meets
        simp [different, meets]

/-- Every concrete step is an abstract step. `related left` relates the states
while `left` steps remain, so that a relation can hold a budget for them. -/
structure Simulation {ε' ω' : Type} (concrete : σ → ε → ω × σ) (abstract : τ → ε' → ω' × τ)
    (event : ε → ε') (output : ω' → ω) (related : Nat → σ → τ → Prop) : Prop where
  same_output : ∀ {left state model} concreteEvent, related (left + 1) state model →
    (concrete state concreteEvent).1 = output (abstract model (event concreteEvent)).1
  continues : ∀ {left state model} concreteEvent, related (left + 1) state model →
    related left (concrete state concreteEvent).2 (abstract model (event concreteEvent)).2

namespace Simulation

variable {ε' ω' : Type} {concrete : σ → ε → ω × σ} {abstract : τ → ε' → ω' × τ}
  {event : ε → ε'} {output : ω' → ω} {related : Nat → σ → τ → Prop}

theorem outputs_eq (simulation : Simulation concrete abstract event output related) {state : σ}
    {model : τ} {events : List ε} (start : related events.length state model) :
    outputs concrete state events = (outputs abstract model (events.map event)).map output := by
  induction events generalizing state model with
  | nil => rfl
  | cons first rest inductionHypothesis =>
      have later := inductionHypothesis (simulation.continues first start)
      simp only [outputs, List.map_cons, simulation.same_output first start, later]

theorem related_final (simulation : Simulation concrete abstract event output related) {state : σ}
    {model : τ} {events : List ε} (start : related events.length state model) :
    related 0 (final concrete state events) (final abstract model (events.map event)) := by
  induction events generalizing state model with
  | nil => exact start
  | cons first rest inductionHypothesis =>
      exact inductionHypothesis (simulation.continues first start)

/-- What every related state promises of its next step holds along the run. -/
theorem along (simulation : Simulation concrete abstract event output related)
    {condition : σ → ε → Prop}
    (promises : ∀ {left state model} concreteEvent, related (left + 1) state model →
      condition state concreteEvent)
    {state : σ} {model : τ} {events : List ε} (start : related events.length state model) :
    Along concrete condition state events := by
  induction events generalizing state model with
  | nil => trivial
  | cons first rest inductionHypothesis =>
      exact ⟨promises first start, inductionHypothesis (simulation.continues first start)⟩

end Simulation

end Transition

end UsacSyscalls.Foundation
