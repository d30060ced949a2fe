import Mathlib.Data.List.Basic

/-!
# Runs of a transition function

A system is a transition function `step`; a run is a list of actions.  `AllStates` says that a
property holds in every state a run goes through, `AllSteps` that a condition holds of every
action in the state it is taken in.  The rules connect the two: an invariant that every step keeps
holds at the end of every run (`run_of_step`), one that every allowed step keeps holds along every
run of allowed steps (`allStates_of_step`), and when a step keeps the property exactly if it is
allowed, so does the run (`allStates_iff_allSteps`); two conditions on the steps that agree wherever
an invariant holds are the same along a run (`allSteps_congr`).  `countSteps` counts the steps of a
run that meet a condition.
-/

namespace ProjectSensor.Library.Transition

variable {State Action : Type*} (step : State → Action → State)

/-- The state after the actions of a run. -/
def run (state : State) (actions : List Action) : State := actions.foldl step state

@[simp]
theorem run_nil (state : State) : run step state [] = state := rfl

@[simp]
theorem run_cons (state : State) (action : Action) (actions : List Action) :
    run step state (action :: actions) = run step (step state action) actions := rfl

theorem run_append (state : State) (before after : List Action) :
    run step state (before ++ after) = run step (run step state before) after :=
  List.foldl_append

/-- Every action of the run is allowed in the state it is taken in. -/
def AllSteps (allowed : State → Action → Prop) : State → List Action → Prop
  | _, [] => True
  | state, action :: actions =>
      allowed state action ∧ AllSteps allowed (step state action) actions

/-- The property holds in every state of the run, the first and the last included. -/
def AllStates (property : State → Prop) : State → List Action → Prop
  | state, [] => property state
  | state, action :: actions =>
      property state ∧ AllStates property (step state action) actions

/-- The number of steps of the run that are counted. -/
def countSteps (counted : State → Action → Prop)
    [∀ state action, Decidable (counted state action)] : State → List Action → ℕ
  | _, [] => 0
  | state, action :: actions =>
      (if counted state action then 1 else 0) + countSteps counted (step state action) actions

instance decidableAllSteps (allowed : State → Action → Prop)
    [∀ state action, Decidable (allowed state action)] :
    ∀ state actions, Decidable (AllSteps step allowed state actions)
  | _, [] => inferInstanceAs (Decidable True)
  | state, action :: actions =>
      have := decidableAllSteps allowed (step state action) actions
      inferInstanceAs (Decidable (_ ∧ _))

instance decidableAllStates (property : State → Prop) [DecidablePred property] :
    ∀ state actions, Decidable (AllStates step property state actions)
  | state, [] => inferInstanceAs (Decidable (property state))
  | state, action :: actions =>
      have := decidableAllStates property (step state action) actions
      inferInstanceAs (Decidable (_ ∧ _))

variable {step}

theorem AllStates.mono {property property' : State → Prop}
    (himp : ∀ state, property state → property' state) {state : State} {actions : List Action}
    (hstates : AllStates step property state actions) :
    AllStates step property' state actions := by
  induction actions generalizing state with
  | nil => exact himp _ hstates
  | cons action actions ih => exact ⟨himp _ hstates.1, ih hstates.2⟩

theorem AllStates.first {property : State → Prop} {state : State} {actions : List Action}
    (hstates : AllStates step property state actions) : property state := by
  cases actions with
  | nil => exact hstates
  | cons action actions => exact hstates.1

theorem AllStates.last {property : State → Prop} {state : State} {actions : List Action}
    (hstates : AllStates step property state actions) : property (run step state actions) := by
  induction actions generalizing state with
  | nil => exact hstates
  | cons action actions ih => exact ih hstates.2

theorem AllSteps.append_left {allowed : State → Action → Prop} {state : State}
    {before after : List Action} (hsteps : AllSteps step allowed state (before ++ after)) :
    AllSteps step allowed state before := by
  induction before generalizing state with
  | nil => trivial
  | cons action before ih => exact ⟨hsteps.1, ih hsteps.2⟩

theorem AllSteps.append_right {allowed : State → Action → Prop} {state : State}
    {before after : List Action} (hsteps : AllSteps step allowed state (before ++ after)) :
    AllSteps step allowed (run step state before) after := by
  induction before generalizing state with
  | nil => exact hsteps
  | cons action before ih => exact ih hsteps.2

/-- Two conditions that agree wherever an invariant holds agree along every run. -/
theorem allSteps_congr {allowed allowed' : State → Action → Prop} (invariant : State → Prop)
    (hinvariant : ∀ state action, invariant state → invariant (step state action))
    (hiff : ∀ state action, invariant state → (allowed state action ↔ allowed' state action))
    {state : State} (actions : List Action) (hinit : invariant state) :
    AllSteps step allowed state actions ↔ AllSteps step allowed' state actions := by
  induction actions generalizing state with
  | nil => exact Iff.rfl
  | cons action actions ih =>
      exact and_congr (hiff state action hinit) (ih (hinvariant state action hinit))

/-- An invariant kept by every step holds at the end of every run. -/
theorem run_of_step (invariant : State → Prop)
    (hstep : ∀ state action, invariant state → invariant (step state action))
    {state : State} {actions : List Action} (hinit : invariant state) :
    invariant (run step state actions) := by
  induction actions generalizing state with
  | nil => exact hinit
  | cons action actions ih => exact ih (hstep state action hinit)

/-- A relation that the steps of two systems keep, where the second allows the action, holds at the
end of every run that the second allows. -/
theorem run_simulates {State' : Type*} {step' : State' → Action → State'}
    {allowed : State' → Action → Prop} {related : State → State' → Prop}
    (hstep : ∀ state state' action, related state state' → allowed state' action →
      related (step state action) (step' state' action))
    {state : State} {state' : State'} {actions : List Action} (hinit : related state state')
    (hsteps : AllSteps step' allowed state' actions) :
    related (run step state actions) (run step' state' actions) := by
  induction actions generalizing state state' with
  | nil => exact hinit
  | cons action actions ih => exact ih (hstep _ _ _ hinit hsteps.1) hsteps.2

/-- An invariant kept by every allowed step holds along every run of allowed steps. -/
theorem allStates_of_step {allowed : State → Action → Prop} {invariant : State → Prop}
    (hstep : ∀ state action, invariant state → allowed state action →
      invariant (step state action))
    {state : State} {actions : List Action} (hinit : invariant state)
    (hsteps : AllSteps step allowed state actions) :
    AllStates step invariant state actions := by
  induction actions generalizing state with
  | nil => exact hinit
  | cons action actions ih => exact ⟨hinit, ih (hstep _ _ hinit hsteps.1) hsteps.2⟩

/-- When each step keeps the property exactly if it is allowed, a run keeps it throughout exactly
if all its steps are allowed. -/
theorem allStates_iff_allSteps {allowed : State → Action → Prop} (invariant : State → Prop)
    {property : State → Prop}
    (hinvariant : ∀ state action, invariant state → property state → allowed state action →
      invariant (step state action))
    (hstep : ∀ state action, invariant state → property state →
      (property (step state action) ↔ allowed state action))
    {state : State} (actions : List Action) (hinit : invariant state) (hproperty : property state) :
    AllStates step property state actions ↔ AllSteps step allowed state actions := by
  induction actions generalizing state with
  | nil => exact iff_of_true hproperty trivial
  | cons action actions ih =>
      have hiff := hstep state action hinit hproperty
      constructor
      · rintro ⟨_, hrest⟩
        have hallowed := hiff.mp hrest.first
        exact ⟨hallowed, (ih (hinvariant _ _ hinit hproperty hallowed) hrest.first).mp hrest⟩
      · rintro ⟨hallowed, hrest⟩
        have hnext := hiff.mpr hallowed
        exact ⟨hproperty, (ih (hinvariant _ _ hinit hproperty hallowed) hnext).mpr hrest⟩

end ProjectSensor.Library.Transition
