import VecnoIndexer.Collections.Firsts
import Mathlib.Data.List.Induction
import Mathlib.Data.Set.Insert
import Mathlib.Logic.Relation

/-!
# Blocks after their parents

In a block graph every block names its parents, and its past is what can be reached from
it.  A list in which parents come before their children adds to a set that contains the
past of its members, and what is added up to any place of the list does so as well.
-/

namespace VecnoIndexer.Chain

open VecnoIndexer.Collections

universe u

/-- Blocks with their parents. -/
structure BlockDag (B : Type u) where
  parents : B → List B

namespace BlockDag

variable {B : Type u} (dag : BlockDag B)

/-- A block and all that it can be reached from. -/
def past (block : B) : Set B :=
  {other | Relation.ReflTransGen (fun child parent => parent ∈ dag.parents child) block other}

/-- The parents of a member are members. -/
def Closed (known : Set B) : Prop :=
  ∀ block ∈ known, ∀ parent ∈ dag.parents block, parent ∈ known

/-- Each block comes after those of its parents that are not known before. -/
def ParentsFirst : Set B → List B → Prop
  | _, [] => True
  | known, block :: rest =>
      (∀ parent ∈ dag.parents block, parent ∈ known) ∧ ParentsFirst (insert block known) rest

variable {dag} {known larger : Set B} {blocks : List B} {block other : B}

/-! ## Pasts -/

theorem mem_past_self (dag : BlockDag B) (block : B) : block ∈ dag.past block :=
  Relation.ReflTransGen.refl

theorem closed_past (dag : BlockDag B) (block : B) : dag.Closed (dag.past block) :=
  fun _ inPast _ isParent => Relation.ReflTransGen.tail inPast isParent

/-- A closed set contains the past of its members. -/
theorem Closed.past_subset (closed : dag.Closed known) (isKnown : block ∈ known) :
    dag.past block ⊆ known := by
  intro other inPast
  induction inPast with
  | refl => exact isKnown
  | tail _ isParent ih => exact closed _ ih _ isParent

theorem past_subset (inPast : other ∈ dag.past block) : dag.past other ⊆ dag.past block :=
  (closed_past dag block).past_subset inPast

/-! ## Lists -/

theorem ParentsFirst.mono (parentsFirst : dag.ParentsFirst known blocks)
    (subset : known ⊆ larger) : dag.ParentsFirst larger blocks := by
  induction blocks generalizing known larger with
  | nil => trivial
  | cons block rest ih =>
      obtain ⟨parents, later⟩ := parentsFirst
      exact ⟨fun parent isParent => subset (parents parent isParent),
        ih later (Set.insert_subset_insert subset)⟩

theorem parentsFirst_append {first second : List B} :
    dag.ParentsFirst known (first ++ second) ↔
      dag.ParentsFirst known first ∧
        dag.ParentsFirst (known ∪ {block | block ∈ first}) second := by
  induction first generalizing known with
  | nil => simp [ParentsFirst]
  | cons block rest ih =>
      have same : insert block known ∪ {other | other ∈ rest} =
          known ∪ {other | other ∈ block :: rest} := by
        ext other
        simp only [Set.mem_union, Set.mem_insert_iff, Set.mem_ofPred_eq, List.mem_cons]
        tauto
      rw [List.cons_append, ParentsFirst, ParentsFirst, ih, same, and_assoc]

theorem parentsFirst_concat :
    dag.ParentsFirst known (blocks ++ [block]) ↔
      dag.ParentsFirst known blocks ∧
        ∀ parent ∈ dag.parents block, parent ∈ known ∨ parent ∈ blocks := by
  rw [parentsFirst_append]
  simp [ParentsFirst]

/-- What is added to a closed set keeps it closed. -/
theorem ParentsFirst.closed (parentsFirst : dag.ParentsFirst known blocks)
    (closed : dag.Closed known) : dag.Closed (known ∪ {block | block ∈ blocks}) := by
  induction blocks using List.reverseRecOn with
  | nil => simpa using closed
  | append_singleton before block ih =>
      obtain ⟨earlier, parents⟩ := parentsFirst_concat.mp parentsFirst
      have larger : known ∪ {other | other ∈ before} ⊆
          known ∪ {other | other ∈ before ++ [block]} :=
        Set.union_subset_union_right _ fun _ => List.mem_append_left _
      rintro other isKnown parent isParent
      by_cases isBefore : other ∈ known ∪ {other | other ∈ before}
      · exact larger (ih earlier other isBefore parent isParent)
      · rcases isKnown with isKnown | isListed
        · exact absurd (Or.inl isKnown) isBefore
        · rcases List.mem_append.mp isListed with isListed | isLast
          · exact absurd (Or.inr isListed) isBefore
          · rw [List.mem_singleton.mp isLast] at isParent
            exact larger (parents parent isParent)

theorem ParentsFirst.of_prefix {shorter : List B} (parentsFirst : dag.ParentsFirst known blocks)
    (isPrefix : shorter <+: blocks) : dag.ParentsFirst known shorter := by
  obtain ⟨rest, rfl⟩ := isPrefix
  exact (parentsFirst_append.mp parentsFirst).1

/-- Only the first occurrences count. -/
theorem parentsFirst_eraseDups [DecidableEq B] (closed : dag.Closed known) :
    dag.ParentsFirst known blocks.eraseDups ↔ dag.ParentsFirst known blocks := by
  induction blocks using List.reverseRecOn with
  | nil => simp
  | append_singleton before block ih =>
      by_cases occurred : block ∈ before
      · rw [eraseDups_concat_of_mem occurred, ih, parentsFirst_concat]
        refine ⟨fun earlier => ⟨earlier, ?_⟩, And.left⟩
        exact earlier.closed closed block (Or.inr occurred)
      · rw [eraseDups_concat_of_notMem occurred, parentsFirst_concat, parentsFirst_concat, ih]
        simp only [List.mem_eraseDups]

/-- The past of a listed block is known or listed up to its place. -/
theorem ParentsFirst.past_subset (parentsFirst : dag.ParentsFirst known blocks)
    (closed : dag.Closed known) {n : ℕ} (found : blocks[n]? = some block) :
    dag.past block ⊆ known ∪ {other | other ∈ blocks.take (n + 1)} := by
  have upTo := parentsFirst.of_prefix (List.take_prefix (n + 1) blocks)
  refine (upTo.closed closed).past_subset (Or.inr ?_)
  obtain ⟨inside, rfl⟩ := List.getElem?_eq_some_iff.mp found
  exact List.mem_take_iff_getElem.mpr ⟨n, by omega, rfl⟩

end BlockDag

end VecnoIndexer.Chain
