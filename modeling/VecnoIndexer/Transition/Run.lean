import Mathlib.Data.Nat.Notation
import Mathlib.Logic.Relation

/-!
# Runs of a loop over its inputs

A loop is a step function from a state and the input of one iteration to the
next state.  A run feeds it a list of inputs.  An invariant that every step
keeps under a condition on its input and the state it finds holds at the end of
every run all of whose steps meet the condition, and so at every point of it.
-/

namespace VecnoIndexer.Transition

universe u v

variable {σ : Type u} {ι : Type v}

/-- The state after a list of inputs. -/
def runFrom (step : σ → ι → σ) : σ → List ι → σ
  | state, [] => state
  | state, input :: rest => runFrom step (step state input) rest

/-- Every input of a run meets a condition in the state that receives it. -/
def Along (step : σ → ι → σ) (condition : σ → ι → Prop) : σ → List ι → Prop
  | _, [] => True
  | state, input :: rest =>
      condition state input ∧ Along step condition (step state input) rest

/-- A condition that can be tested in a state can be tested along a run. -/
def decidableAlong (step : σ → ι → σ) (condition : σ → ι → Prop)
    [∀ state input, Decidable (condition state input)] :
    ∀ state inputs, Decidable (Along step condition state inputs)
  | _, [] => isTrue trivial
  | state, input :: rest =>
      have := decidableAlong step condition (step state input) rest
      inferInstanceAs (Decidable (_ ∧ _))

instance (step : σ → ι → σ) (condition : σ → ι → Prop)
    [∀ state input, Decidable (condition state input)] (state : σ) (inputs : List ι) :
    Decidable (Along step condition state inputs) :=
  decidableAlong step condition state inputs

@[simp]
theorem runFrom_nil (step : σ → ι → σ) (state : σ) : runFrom step state [] = state :=
  rfl

@[simp]
theorem runFrom_cons (step : σ → ι → σ) (state : σ) (input : ι) (rest : List ι) :
    runFrom step state (input :: rest) = runFrom step (step state input) rest :=
  rfl

theorem runFrom_append (step : σ → ι → σ) (state : σ) (first second : List ι) :
    runFrom step state (first ++ second) = runFrom step (runFrom step state first) second := by
  induction first generalizing state with
  | nil => rfl
  | cons input rest ih => exact ih (step state input)

theorem along_append {step : σ → ι → σ} {condition : σ → ι → Prop} {state : σ}
    {first second : List ι} :
    Along step condition state (first ++ second) ↔
      Along step condition state first ∧
        Along step condition (runFrom step state first) second := by
  induction first generalizing state with
  | nil => simp [Along]
  | cons input rest ih => simp [Along, ih, and_assoc]

/-- A condition on the inputs alone. -/
theorem along_of_forall {step : σ → ι → σ} {condition : ι → Prop} (state : σ) {inputs : List ι}
    (holds : ∀ input ∈ inputs, condition input) :
    Along step (fun _ input => condition input) state inputs := by
  induction inputs generalizing state with
  | nil => trivial
  | cons input rest ih =>
      exact ⟨holds input List.mem_cons_self,
        ih (step state input) fun other otherMem =>
          holds other (List.mem_cons_of_mem input otherMem)⟩

theorem Along.and {step : σ → ι → σ} {first second : σ → ι → Prop} {state : σ} {inputs : List ι}
    (alongFirst : Along step first state inputs) (alongSecond : Along step second state inputs) :
    Along step (fun state input => first state input ∧ second state input) state inputs := by
  induction inputs generalizing state with
  | nil => trivial
  | cons input rest ih =>
      exact ⟨⟨alongFirst.1, alongSecond.1⟩, ih alongFirst.2 alongSecond.2⟩

theorem Along.mono {step : σ → ι → σ} {first second : σ → ι → Prop} {state : σ} {inputs : List ι}
    (along : Along step first state inputs)
    (weaker : ∀ state input, first state input → second state input) :
    Along step second state inputs := by
  induction inputs generalizing state with
  | nil => trivial
  | cons input rest ih => exact ⟨weaker state input along.1, ih along.2⟩

/-- The induction over a run. -/
theorem invariant_of_along {step : σ → ι → σ} {condition : σ → ι → Prop}
    {invariant : σ → Prop}
    (preserved : ∀ state input, invariant state → condition state input →
      invariant (step state input))
    {state : σ} {inputs : List ι} (initial : invariant state)
    (along : Along step condition state inputs) :
    invariant (runFrom step state inputs) := by
  induction inputs generalizing state with
  | nil => exact initial
  | cons input rest ih => exact ih (preserved state input initial along.1) along.2

/-- Steps that meet one condition in states with an invariant, and so keep it, meet
another. -/
theorem Along.of_invariant {step : σ → ι → σ} {condition conclusion : σ → ι → Prop}
    {invariant : σ → Prop}
    (preserved : ∀ state input, invariant state → condition state input →
      conclusion state input ∧ invariant (step state input))
    {state : σ} {inputs : List ι} (initial : invariant state)
    (along : Along step condition state inputs) : Along step conclusion state inputs := by
  induction inputs generalizing state with
  | nil => trivial
  | cons input rest ih =>
      obtain ⟨concluded, kept⟩ := preserved state input initial along.1
      exact ⟨concluded, ih kept along.2⟩

/-- A run that ends in a good state is good throughout, if no bad state is left. -/
theorem along_of_final {step : σ → ι → σ} {good : σ → Prop}
    (backward : ∀ state input, good (step state input) → good state) {state : σ}
    {inputs : List ι} (final : good (runFrom step state inputs)) :
    good state ∧ Along step (fun state input => good (step state input)) state inputs := by
  induction inputs generalizing state with
  | nil => exact ⟨final, trivial⟩
  | cons input rest ih =>
      obtain ⟨next, along⟩ := ih final
      exact ⟨backward state input next, next, along⟩

/-- A variant that no step raises and each step of a kind lowers. -/
theorem variant_of_along {step : σ → ι → σ} {condition : σ → ι → Prop} {invariant : σ → Prop}
    {variant : σ → ℕ} {lowers : ι → Bool}
    (preserved : ∀ state input, invariant state → condition state input →
      invariant (step state input) ∧
        variant (step state input) ≤ variant state - if lowers input then 1 else 0)
    {state : σ} {inputs : List ι} (initial : invariant state)
    (along : Along step condition state inputs) :
    variant (runFrom step state inputs) ≤ variant state - inputs.countP lowers := by
  induction inputs generalizing state with
  | nil => exact Nat.le_refl _
  | cons input rest ih =>
      obtain ⟨kept, descends⟩ := preserved state input initial along.1
      have rest := ih kept along.2
      rw [runFrom_cons, List.countP_cons]
      omega

/-- A property that a run loses is lost at one of its steps. -/
theorem exists_of_lost {step : σ → ι → σ} {property : σ → Prop} {state : σ} {inputs : List ι}
    (holds : property state) (lost : ¬ property (runFrom step state inputs)) :
    ∃ earlier input later, inputs = earlier ++ input :: later ∧
      property (runFrom step state earlier) ∧
      ¬ property (step (runFrom step state earlier) input) := by
  induction inputs generalizing state with
  | nil => exact absurd holds lost
  | cons input rest ih =>
      by_cases kept : property (step state input)
      · obtain ⟨earlier, other, later, rfl, before, after⟩ := ih kept lost
        exact ⟨input :: earlier, other, later, rfl, before, after⟩
      · exact ⟨[], input, rest, rfl, holds, kept⟩

/-- An invariant kept unconditionally holds after every run. -/
theorem invariant_of_run {step : σ → ι → σ} {invariant : σ → Prop}
    (preserved : ∀ state input, invariant state → invariant (step state input))
    {state : σ} (inputs : List ι) (initial : invariant state) :
    invariant (runFrom step state inputs) := by
  induction inputs generalizing state with
  | nil => exact initial
  | cons input rest ih => exact ih (preserved state input initial)

end VecnoIndexer.Transition
