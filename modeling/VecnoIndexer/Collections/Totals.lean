import Mathlib.Algebra.BigOperators.Group.List.Basic
import Mathlib.Algebra.Order.BigOperators.Group.List
import Mathlib.Algebra.Order.Group.Int
import Mathlib.Data.List.Infix
import Mathlib.Data.List.Nodup
import VecnoIndexer.Collections.Integers

/-!
# Amounts added up per key

A map of totals is an association list.  Each amount is added to the total of its key, or
inserts the key, under overflow checks: a total that is no `i64` has no result.  What results
are the sums of the amounts, and there is a result exactly if no sum on the way overflows.
-/

namespace VecnoIndexer.Collections

universe u

variable {κ : Type u} [DecidableEq κ]

/-! ## Sums of keyed entries -/

/-- The sum of the values listed under a key. -/
def entrySum (entries : List (κ × Int)) (k : κ) : Int :=
  ((entries.filter fun entry => entry.1 = k).map Prod.snd).sum

@[simp]
theorem entrySum_nil (k : κ) : entrySum [] k = 0 :=
  rfl

theorem entrySum_cons (entry : κ × Int) (entries : List (κ × Int)) (k : κ) :
    entrySum (entry :: entries) k =
      (if entry.1 = k then entry.2 else 0) + entrySum entries k := by
  by_cases equal : entry.1 = k <;> simp [entrySum, equal]

theorem entrySum_append (first second : List (κ × Int)) (k : κ) :
    entrySum (first ++ second) k = entrySum first k + entrySum second k := by
  simp [entrySum]

theorem entrySum_eq_zero_of_notMem {entries : List (κ × Int)} {k : κ}
    (absent : k ∉ entries.map Prod.fst) : entrySum entries k = 0 := by
  induction entries with
  | nil => rfl
  | cons entry rest ih =>
      simp only [List.map_cons, List.mem_cons, not_or] at absent
      rw [entrySum_cons, if_neg (Ne.symm absent.1), ih absent.2, zero_add]

theorem entrySum_eq_of_mem {entries : List (κ × Int)} {k : κ} {value : Int}
    (nodup : (entries.map Prod.fst).Nodup) (member : (k, value) ∈ entries) :
    entrySum entries k = value := by
  induction entries with
  | nil => simp at member
  | cons entry rest ih =>
      rw [List.map_cons, List.nodup_cons] at nodup
      rw [entrySum_cons]
      rcases List.mem_cons.mp member with rfl | inRest
      · rw [if_pos rfl, entrySum_eq_zero_of_notMem nodup.1, add_zero]
      · have restKey : k ∈ rest.map Prod.fst := List.mem_map.mpr ⟨_, inRest, rfl⟩
        have different : entry.1 ≠ k := fun equal => nodup.1 (equal ▸ restKey)
        rw [if_neg different, ih nodup.2 inRest, zero_add]

/-- Before its end a list with distinct keys has a key's only amount, or not yet. -/
theorem entrySum_prefix {first entries : List (κ × Int)}
    (nodup : (entries.map Prod.fst).Nodup) (isPrefix : first <+: entries) (k : κ) :
    entrySum first k = 0 ∨ entrySum first k = entrySum entries k := by
  by_cases listed : k ∈ first.map Prod.fst
  · obtain ⟨⟨_, value⟩, member, rfl⟩ := List.mem_map.mp listed
    have firstNodup := (isPrefix.sublist.map Prod.fst).nodup nodup
    rw [entrySum_eq_of_mem firstNodup member, entrySum_eq_of_mem nodup (isPrefix.subset member)]
    exact Or.inr rfl
  · exact Or.inl (entrySum_eq_zero_of_notMem listed)

theorem entrySum_perm {first second : List (κ × Int)} (perm : first.Perm second) (k : κ) :
    entrySum first k = entrySum second k :=
  ((perm.filter _).map Prod.snd).sum_eq

/-! ## Adding one amount -/

/-- `*map.entry(key).or_insert(0) += amount` -/
def addAmount : List (κ × Int) → κ × Int → Option (List (κ × Int))
  | [], (k, amount) => (checkedI64 (0 + amount)).map fun sum => [(k, sum)]
  | (other, total) :: rest, (k, amount) =>
      if other = k then (checkedI64 (total + amount)).map fun sum => (other, sum) :: rest
      else (addAmount rest (k, amount)).map fun added => (other, total) :: added

section One

variable {totals after : List (κ × Int)} {k : κ} {amount : Int}

theorem mem_keys_addAmount (added : addAmount totals (k, amount) = some after) (other : κ) :
    other ∈ after.map Prod.fst ↔ other = k ∨ other ∈ totals.map Prod.fst := by
  induction totals generalizing after with
  | nil =>
      obtain ⟨sum, _, rfl⟩ := Option.map_eq_some_iff.mp added
      simp
  | cons first rest ih =>
      obtain ⟨firstKey, total⟩ := first
      rw [addAmount] at added
      split at added
      · rename_i same
        obtain ⟨sum, _, rfl⟩ := Option.map_eq_some_iff.mp added
        simp [same]
      · obtain ⟨restAfter, restAdded, rfl⟩ := Option.map_eq_some_iff.mp added
        simp only [List.map_cons, List.mem_cons, ih restAdded]
        exact or_left_comm

theorem nodup_keys_addAmount (added : addAmount totals (k, amount) = some after)
    (nodup : (totals.map Prod.fst).Nodup) : (after.map Prod.fst).Nodup := by
  induction totals generalizing after with
  | nil =>
      obtain ⟨sum, _, rfl⟩ := Option.map_eq_some_iff.mp added
      exact List.nodup_singleton k
  | cons first rest ih =>
      obtain ⟨firstKey, total⟩ := first
      rw [addAmount] at added
      rw [List.map_cons, List.nodup_cons] at nodup
      split at added
      · obtain ⟨sum, _, rfl⟩ := Option.map_eq_some_iff.mp added
        exact List.nodup_cons.mpr nodup
      · rename_i different
        obtain ⟨restAfter, restAdded, rfl⟩ := Option.map_eq_some_iff.mp added
        refine List.nodup_cons.mpr ⟨?_, ih restAdded nodup.2⟩
        rw [mem_keys_addAmount restAdded]
        rintro (same | inRest)
        · exact different same
        · exact nodup.1 inRest

theorem entrySum_addAmount (added : addAmount totals (k, amount) = some after) (other : κ) :
    entrySum after other = entrySum totals other + if k = other then amount else 0 := by
  induction totals generalizing after with
  | nil =>
      obtain ⟨sum, isSum, rfl⟩ := Option.map_eq_some_iff.mp added
      obtain ⟨_, rfl⟩ := checkedI64_eq_some_iff.mp isSum
      simp [entrySum_cons]
  | cons first rest ih =>
      obtain ⟨firstKey, total⟩ := first
      rw [addAmount] at added
      split at added
      · rename_i same
        subst same
        obtain ⟨sum, isSum, rfl⟩ := Option.map_eq_some_iff.mp added
        obtain ⟨_, rfl⟩ := checkedI64_eq_some_iff.mp isSum
        rw [entrySum_cons, entrySum_cons]
        dsimp only
        split_ifs <;> omega
      · obtain ⟨restAfter, restAdded, rfl⟩ := Option.map_eq_some_iff.mp added
        rw [entrySum_cons, entrySum_cons, ih restAdded, add_assoc]

/-- An amount can be added exactly if the sum does not overflow. -/
theorem isSome_addAmount (nodup : (totals.map Prod.fst).Nodup) :
    (addAmount totals (k, amount)).isSome = true ↔ InI64 (entrySum totals k + amount) := by
  induction totals with
  | nil => simp [addAmount]
  | cons first rest ih =>
      obtain ⟨firstKey, total⟩ := first
      rw [List.map_cons, List.nodup_cons] at nodup
      rw [addAmount, entrySum_cons]
      split
      · rename_i same
        subst same
        rw [entrySum_eq_zero_of_notMem nodup.1, add_zero]
        simp
      · rw [zero_add, ← ih nodup.2, Option.isSome_map]

end One

/-! ## Adding all amounts -/

/-- The amounts are added in turn, up to the first overflow. -/
def addAmounts (totals entries : List (κ × Int)) : Option (List (κ × Int)) :=
  entries.foldlM addAmount totals

/-- The totals are the sums of the entries. -/
structure SumsOf (entries totals : List (κ × Int)) : Prop where
  nodup : (totals.map Prod.fst).Nodup
  keys : ∀ k, k ∈ totals.map Prod.fst ↔ k ∈ entries.map Prod.fst
  sum : ∀ k, entrySum totals k = entrySum entries k

/-- No sum on the way overflows. -/
def SumsFit (entries : List (κ × Int)) : Prop :=
  ∀ first, first <+: entries → ∀ k, InI64 (entrySum first k)

theorem addAmounts_append (totals first second : List (κ × Int)) :
    addAmounts totals (first ++ second) =
      (addAmounts totals first).bind fun middle => addAmounts middle second :=
  List.foldlM_append

namespace SumsOf

variable {entries totals after : List (κ × Int)} {k : κ} {value : Int}

theorem nil : SumsOf ([] : List (κ × Int)) [] :=
  ⟨List.nodup_nil, fun _ => Iff.rfl, fun _ => rfl⟩

theorem mem_iff (sums : SumsOf entries totals) :
    (k, value) ∈ totals ↔ k ∈ entries.map Prod.fst ∧ value = entrySum entries k := by
  constructor
  · intro member
    have listed : k ∈ totals.map Prod.fst := List.mem_map.mpr ⟨_, member, rfl⟩
    exact ⟨(sums.keys k).mp listed, by rw [← sums.sum, entrySum_eq_of_mem sums.nodup member]⟩
  · rintro ⟨listed, rfl⟩
    obtain ⟨⟨other, total⟩, member, rfl⟩ := List.mem_map.mp ((sums.keys k).mpr listed)
    rw [← sums.sum, entrySum_eq_of_mem sums.nodup member]
    exact member

theorem of_perm_totals (sums : SumsOf entries totals) (perm : after.Perm totals) :
    SumsOf entries after where
  nodup := (perm.map Prod.fst).nodup_iff.mpr sums.nodup
  keys k := (perm.map Prod.fst).mem_iff.trans (sums.keys k)
  sum k := (entrySum_perm perm k).trans (sums.sum k)

theorem addAmount (sums : SumsOf entries totals)
    (added : Collections.addAmount totals (k, value) = some after) :
    SumsOf (entries ++ [(k, value)]) after where
  nodup := nodup_keys_addAmount added sums.nodup
  keys other := by
    rw [mem_keys_addAmount added, sums.keys, List.map_append, List.mem_append, or_comm]
    simp
  sum other := by
    rw [entrySum_addAmount added, sums.sum, entrySum_append, entrySum_cons, entrySum_nil,
      add_zero]

/-- Adding further amounts to sums gives the sums of all. -/
theorem addAmounts {more : List (κ × Int)} (sums : SumsOf entries totals)
    (added : Collections.addAmounts totals more = some after) :
    SumsOf (entries ++ more) after := by
  induction more generalizing entries totals with
  | nil =>
      cases added
      rwa [List.append_nil]
  | cons entry rest ih =>
      obtain ⟨middle, first, second⟩ := Option.bind_eq_some_iff.mp added
      have all := ih (sums.addAmount first) second
      rwa [List.append_assoc] at all

/-- Amounts can be added exactly if no sum on the way overflows. -/
theorem isSome_addAmounts {more : List (κ × Int)} (sums : SumsOf entries totals)
    (fits : ∀ k, InI64 (entrySum entries k)) :
    (Collections.addAmounts totals more).isSome = true ↔
      ∀ first, first <+: more → ∀ k, InI64 (entrySum (entries ++ first) k) := by
  induction more generalizing entries totals with
  | nil =>
      refine iff_of_true rfl fun first isPrefix k => ?_
      rw [List.prefix_nil.mp isPrefix, List.append_nil]
      exact fits k
  | cons entry rest ih =>
      obtain ⟨k, amount⟩ := entry
      have overflow := @isSome_addAmount κ _ totals k amount sums.nodup
      rw [sums.sum] at overflow
      change ((Collections.addAmount totals (k, amount)).bind fun middle =>
        Collections.addAmounts middle rest).isSome = true ↔ _
      cases added : Collections.addAmount totals (k, amount) with
      | none =>
          refine iff_of_false Bool.false_ne_true fun fit => ?_
          rw [added] at overflow
          refine Bool.false_ne_true (overflow.mpr ?_)
          have last := fit [(k, amount)] (by simp) k
          rwa [entrySum_append, entrySum_cons, if_pos rfl, entrySum_nil, add_zero] at last
      | some middle =>
          have sumFits := overflow.mp (congrArg Option.isSome added)
          have middleFits : ∀ other, InI64 (entrySum (entries ++ [(k, amount)]) other) := by
            intro other
            rw [entrySum_append, entrySum_cons, entrySum_nil, add_zero]
            by_cases same : k = other
            · subst same
              rwa [if_pos rfl]
            · rw [if_neg same, add_zero]
              exact fits other
          rw [Option.bind_some, ih (sums.addAmount added) middleFits]
          constructor
          · intro fit first isPrefix
            rcases List.prefix_cons_iff.mp isPrefix with rfl | ⟨second, rfl, secondPrefix⟩
            · rwa [List.append_nil]
            · have all := fit second secondPrefix
              rwa [List.append_assoc] at all
          · intro fit second secondPrefix
            rw [List.append_assoc]
            exact fit _ (List.prefix_cons_iff.mpr (Or.inr ⟨second, rfl, secondPrefix⟩))

end SumsOf

section All

variable {entries totals : List (κ × Int)}

/-- What results are the sums. -/
theorem sumsOf_of_addAmounts (added : addAmounts [] entries = some totals) :
    SumsOf entries totals :=
  SumsOf.nil.addAmounts added

theorem isSome_addAmounts_nil_iff : (addAmounts [] entries).isSome = true ↔ SumsFit entries := by
  rw [SumsOf.nil.isSome_addAmounts fun _ => by simp [InI64]]
  rfl

theorem SumsFit.exists_addAmounts (fits : SumsFit entries) :
    ∃ totals, addAmounts [] entries = some totals :=
  Option.isSome_iff_exists.mp (isSome_addAmounts_nil_iff.mpr fits)

/-- Amounts that are not negative overflow only at their sums. -/
theorem SumsFit.of_nonneg (nonneg : ∀ entry ∈ entries, 0 ≤ entry.2)
    (fits : ∀ k, InI64 (entrySum entries k)) : SumsFit entries := by
  rintro first ⟨second, rfl⟩ k
  have sumNonneg (part : List (κ × Int)) (within : part ⊆ first ++ second) :
      0 ≤ entrySum part k := by
    apply List.sum_nonneg
    intro amount isAmount
    obtain ⟨entry, isEntry, rfl⟩ := List.mem_map.mp isAmount
    exact nonneg entry (within (List.mem_of_mem_filter isEntry))
  have firstNonneg := sumNonneg first (List.subset_append_left first second)
  have secondNonneg := sumNonneg second (List.subset_append_right first second)
  obtain ⟨_, upper⟩ := fits k
  rw [entrySum_append] at upper
  constructor <;> omega

end All

end VecnoIndexer.Collections
