import Mathlib.Algebra.BigOperators.Group.List.Basic
import Mathlib.Algebra.Order.Group.Int
import Mathlib.Algebra.Ring.Int.Defs

/-!
# Totals of unspent outputs

Outputs that are created and inputs that spend them.  If no output is spent by two
inputs, and only created outputs are spent, the amounts of the created outputs
minus the amounts the inputs spend are those of the outputs left unspent.
-/

namespace VecnoIndexer.Ledger

universe u v

variable {O : Type u} {I : Type v}

/-- The amounts of the outputs with a property. -/
def total (outputs : List O) (amount : O → ℤ) (property : O → Prop) [DecidablePred property] :
    ℤ :=
  (outputs.map fun output => if property output then amount output else 0).sum

theorem total_congr {outputs : List O} {amount : O → ℤ} {first second : O → Prop}
    [DecidablePred first] [DecidablePred second]
    (same : ∀ output ∈ outputs, first output ↔ second output) :
    total outputs amount first = total outputs amount second := by
  unfold total
  apply congrArg List.sum
  apply List.map_congr_left
  intro output outputMem
  simp only [same output outputMem]

/-- A property that no output has. -/
theorem total_eq_zero {outputs : List O} {amount : O → ℤ} {property : O → Prop}
    [DecidablePred property] (none : ∀ output ∈ outputs, ¬ property output) :
    total outputs amount property = 0 := by
  unfold total
  apply List.sum_eq_zero
  intro value valueMem
  obtain ⟨output, outputMem, rfl⟩ := List.mem_map.mp valueMem
  exact if_neg (none output outputMem)

/-- A property that one output has and no other. -/
theorem total_eq_of_single {outputs : List O} {amount : O → ℤ} {property : O → Prop}
    [DecidablePred property]
    (single : outputs.Pairwise fun first second => property first → ¬ property second)
    {output : O} (outputMem : output ∈ outputs) (holds : property output) :
    total outputs amount property = amount output := by
  induction outputs with
  | nil => contradiction
  | cons first rest ih =>
      rw [List.pairwise_cons] at single
      have split : total (first :: rest) amount property =
          (if property first then amount first else 0) + total rest amount property := by
        simp [total]
      rw [split]
      by_cases firstHolds : property first
      · have noOther : ∀ other ∈ rest, ¬ property other :=
          fun other otherMem => single.1 other otherMem firstHolds
        have outputEq : output = first := by
          rcases List.mem_cons.mp outputMem with equal | inRest
          · exact equal
          · exact absurd holds (noOther output inRest)
        rw [if_pos firstHolds, total_eq_zero noOther, add_zero, outputEq]
      · have inRest : output ∈ rest := by
          rcases List.mem_cons.mp outputMem with rfl | inRest
          · exact absurd holds firstHolds
          · exact inRest
        rw [if_neg firstHolds, zero_add, ih single.2 inRest]

variable (created : O → Prop) (spends : I → O → Prop)

/-- Created and spent by no input. -/
def Unspent (inputs : List I) (output : O) : Prop :=
  created output ∧ ∀ input ∈ inputs, ¬ spends input output

instance [DecidablePred created] [∀ input, DecidablePred (spends input)] (inputs : List I) :
    DecidablePred (Unspent created spends inputs) :=
  fun _ => inferInstanceAs (Decidable (_ ∧ _))

/-- What consensus guarantees of the inputs: no output is spent twice, and only
created outputs are spent. -/
structure SpendsOnce (outputs : List O) (inputs : List I) : Prop where
  single : inputs.Pairwise fun first second =>
    ∀ output ∈ outputs, spends first output → ¬ spends second output
  createdFirst : ∀ input ∈ inputs, ∀ output ∈ outputs, spends input output → created output

/-- Created amounts are unspent amounts and spent ones. -/
theorem total_created_eq [DecidablePred created] [∀ input, DecidablePred (spends input)]
    {outputs : List O} {inputs : List I} (amount : O → ℤ)
    (once : SpendsOnce created spends outputs inputs) :
    total outputs amount created =
      total outputs amount (Unspent created spends inputs) +
        (inputs.map fun input => total outputs amount (spends input)).sum := by
  induction inputs with
  | nil => simp [total, Unspent]
  | cons input rest ih =>
      obtain ⟨single, createdFirst⟩ := once
      rw [List.pairwise_cons] at single
      have restOnce : SpendsOnce created spends outputs rest :=
        ⟨single.2, fun other otherMem => createdFirst other (List.mem_cons_of_mem input otherMem)⟩
      -- What the first input spends was unspent by the others.
      have split : total outputs amount (Unspent created spends rest) =
          total outputs amount (Unspent created spends (input :: rest)) +
            total outputs amount (spends input) := by
        unfold total
        rw [← List.sum_map_add]
        apply congrArg List.sum
        apply List.map_congr_left
        intro output outputMem
        by_cases spent : spends input output
        · have unspentByRest : ∀ other ∈ rest, ¬ spends other output :=
            fun other otherMem => single.1 other otherMem output outputMem spent
          have outputCreated : created output :=
            createdFirst input List.mem_cons_self output outputMem spent
          have before : Unspent created spends rest output := ⟨outputCreated, unspentByRest⟩
          have after : ¬ Unspent created spends (input :: rest) output :=
            fun unspent => unspent.2 input List.mem_cons_self spent
          rw [if_pos before, if_neg after, if_pos spent, zero_add]
        · have same : Unspent created spends (input :: rest) output ↔
              Unspent created spends rest output := by
            simp [Unspent, spent]
          simp only [same, if_neg spent, add_zero]
      rw [ih restOnce, List.map_cons, List.sum_cons, split, add_assoc]

end VecnoIndexer.Ledger
