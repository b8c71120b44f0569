import Mathlib.Data.List.Chain
import Mathlib.Data.List.Infix
import Mathlib.Data.List.Nodup

/-!
# Selected chains of a block tree

Every block names the parent its chain continues.  The selected chain ending at a
block is the path from a base to it, and there is only one such path.  Two chains
fork at their lowest common ancestor: they share the path up to it and have
nothing in common after it.
-/

namespace VecnoIndexer.Chain

universe u

/-- Blocks with their selected parents, and a base no chain goes below. -/
structure BlockTree (B : Type u) where
  parent : B → Option B
  base : B
  base_parent : parent base = none

namespace BlockTree

variable {B : Type u} (tree : BlockTree B)

/-- A selected chain, listed from the first block after the base. -/
def IsPath (path : List B) : Prop :=
  List.IsChain (fun older newer => tree.parent newer = some older) (tree.base :: path)

instance [DecidableEq B] (path : List B) : Decidable (tree.IsPath path) :=
  inferInstanceAs (Decidable (List.IsChain _ _))

/-- The last block of a chain. -/
def tip (path : List B) : B :=
  (tree.base :: path).getLast (List.cons_ne_nil tree.base path)

/-- A block after the base on some selected chain. -/
def OnChain (block : B) : Prop :=
  ∃ path, tree.IsPath path ∧ block ∈ path

@[simp]
theorem isPath_nil : tree.IsPath [] :=
  List.isChain_singleton tree.base

@[simp]
theorem tip_nil : tree.tip [] = tree.base :=
  rfl

@[simp]
theorem tip_concat (path : List B) (block : B) : tree.tip (path ++ [block]) = block := by
  simp [tip]

theorem tip_mem {path : List B} (nonempty : path ≠ []) : tree.tip path ∈ path := by
  rw [tip, List.getLast_cons nonempty]
  exact List.getLast_mem nonempty

variable {tree}

theorem isPath_concat {path : List B} {block : B} :
    tree.IsPath (path ++ [block]) ↔
      tree.IsPath path ∧ tree.parent block = some (tree.tip path) := by
  rw [IsPath, ← List.cons_append, List.isChain_append]
  simp [IsPath, tip, List.getLast?_eq_getLast_of_ne_nil]

theorem IsPath.of_append {first second : List B} (path : tree.IsPath (first ++ second)) :
    tree.IsPath first := by
  rw [IsPath, ← List.cons_append] at path
  exact path.left_of_append

/-- The chain that ends at a block is unique. -/
theorem IsPath.eq_of_tip_eq {first second : List B} (firstPath : tree.IsPath first)
    (secondPath : tree.IsPath second) (tipEq : tree.tip first = tree.tip second) :
    first = second := by
  induction first using List.reverseRecOn generalizing second with
  | nil =>
      cases second using List.reverseRecOn with
      | nil => rfl
      | append_singleton init block =>
          rw [tip_nil, tip_concat] at tipEq
          have parentEq := (isPath_concat.mp secondPath).2
          rw [← tipEq, tree.base_parent] at parentEq
          contradiction
  | append_singleton init block ih =>
      obtain ⟨initPath, parentEq⟩ := isPath_concat.mp firstPath
      cases second using List.reverseRecOn with
      | nil =>
          rw [tip_nil, tip_concat] at tipEq
          rw [tipEq, tree.base_parent] at parentEq
          contradiction
      | append_singleton other last =>
          obtain ⟨otherPath, otherParent⟩ := isPath_concat.mp secondPath
          rw [tip_concat, tip_concat] at tipEq
          subst tipEq
          rw [ih initPath otherPath (Option.some.inj (parentEq.symm.trans otherParent))]

/-- A chain passes a block once. -/
theorem IsPath.nodup {path : List B} (isPath : tree.IsPath path) : path.Nodup := by
  induction path using List.reverseRecOn with
  | nil => exact List.nodup_nil
  | append_singleton init block ih =>
      have initPath := isPath.of_append
      rw [List.nodup_append]
      refine ⟨ih initPath, List.nodup_singleton block, ?_⟩
      rintro other otherMem last lastMem rfl
      rw [List.mem_singleton] at lastMem
      subst other
      -- The chain up to the earlier occurrence would end at the same block.
      obtain ⟨before, after, split⟩ := List.append_of_mem otherMem
      have shorter : tree.IsPath (before ++ [block]) := by
        rw [split, ← List.singleton_append, ← List.append_assoc] at initPath
        exact initPath.of_append
      have equal : before ++ [block] = init ++ [block] :=
        shorter.eq_of_tip_eq isPath (by rw [tip_concat, tip_concat])
      have lengths := congrArg List.length (List.append_cancel_right equal)
      rw [split] at lengths
      simp at lengths

/-- What does not decrease from a parent to its children is largest at the tip. -/
theorem IsPath.le_tip {ι : Type*} [Preorder ι] {rank : B → ι}
    (parent_le : ∀ block parent, tree.parent block = some parent → rank parent ≤ rank block)
    {path : List B} (isPath : tree.IsPath path) {block : B} (member : block ∈ path) :
    rank block ≤ rank (tree.tip path) := by
  induction path using List.reverseRecOn with
  | nil => contradiction
  | append_singleton init last ih =>
      obtain ⟨initPath, parentEq⟩ := isPath_concat.mp isPath
      rw [tip_concat]
      rcases List.mem_append.mp member with inInit | isLast
      · exact le_trans (ih initPath inInit) (parent_le last _ parentEq)
      · rw [List.mem_singleton.mp isLast]

/-- Only the base of a chain has no parent. -/
theorem OnChain.exists_parent {block : B} (onChain : tree.OnChain block) :
    ∃ parent, tree.parent block = some parent := by
  obtain ⟨path, isPath, member⟩ := onChain
  obtain ⟨before, after, rfl⟩ := List.append_of_mem member
  rw [← List.singleton_append, ← List.append_assoc] at isPath
  exact ⟨_, (isPath_concat.mp isPath.of_append).2⟩

/-- The past of the blocks of a tree: a strict order that contains the selected
parents, and possibly other merged blocks. -/
structure Past (tree : BlockTree B) where
  /-- `inPast block earlier`: `earlier` is in the past of `block`. -/
  inPast : B → B → Prop
  trans : ∀ {block middle earlier}, inPast block middle → inPast middle earlier →
    inPast block earlier
  irrefl : ∀ block, ¬ inPast block block
  ofParent : ∀ {block parent}, tree.parent block = some parent → inPast block parent

/-- The earlier blocks of a chain are in the past of a later one. -/
theorem Past.ofPath (past : tree.Past) {earlier later : List B} {block : B}
    (isPath : tree.IsPath (earlier ++ block :: later)) {other : B} (member : other ∈ earlier) :
    past.inPast block other := by
  rw [← List.singleton_append, ← List.append_assoc] at isPath
  have upTo := isPath.of_append
  clear isPath
  induction earlier using List.reverseRecOn generalizing block with
  | nil => contradiction
  | append_singleton init last ih =>
      obtain ⟨initPath, parentEq⟩ := isPath_concat.mp upTo
      rw [tip_concat] at parentEq
      rcases List.mem_append.mp member with inInit | isLast
      · exact past.trans (past.ofParent parentEq) (ih inInit initPath)
      · rw [List.mem_singleton] at isLast
        subst isLast
        exact past.ofParent parentEq

/-- The tip of a chain is in the past of the blocks that continue it. -/
theorem Past.tip (past : tree.Past) {earlier later : List B}
    (isPath : tree.IsPath (earlier ++ later)) {block : B} (member : block ∈ later) :
    past.inPast block (tree.tip earlier) := by
  obtain ⟨before, after, rfl⟩ := List.append_of_mem member
  rw [← List.append_assoc] at isPath
  cases earlier using List.reverseRecOn with
  | append_singleton init last =>
      rw [tip_concat]
      exact past.ofPath isPath (by simp)
  | nil =>
      -- The base is the parent of the first block of the chain.
      rw [List.nil_append] at isPath
      cases before with
      | nil =>
          rw [List.nil_append, ← List.singleton_append] at isPath
          exact past.ofParent (isPath_concat.mp isPath.of_append).2
      | cons first rest =>
          have firstPath : tree.IsPath [first] := by
            rw [List.cons_append, ← List.singleton_append] at isPath
            exact isPath.of_append
          exact past.trans (past.ofPath isPath List.mem_cons_self)
            (past.ofParent (isPath_concat.mp firstPath).2)

/-- A block of a chain is its tip or in the past of it. -/
theorem Past.eq_tip_or_inPast (past : tree.Past) {path : List B} (isPath : tree.IsPath path)
    {block : B} (member : block ∈ path) :
    block = tree.tip path ∨ past.inPast (tree.tip path) block := by
  cases path using List.reverseRecOn with
  | nil => contradiction
  | append_singleton init last =>
      rw [tip_concat]
      rcases List.mem_append.mp member with inInit | isLast
      · exact Or.inr (past.ofPath isPath inInit)
      · exact Or.inl (List.mem_singleton.mp isLast)

/-- On a chain, the blocks up to a tip are the tip and those in its past. -/
theorem Past.mem_iff (past : tree.Past) {earlier later : List B}
    (isPath : tree.IsPath (earlier ++ later)) {block : B} (member : block ∈ earlier ++ later) :
    block ∈ earlier ↔ block = tree.tip earlier ∨ past.inPast (tree.tip earlier) block := by
  constructor
  · exact past.eq_tip_or_inPast isPath.of_append
  · intro notAfter
    rcases List.mem_append.mp member with inEarlier | inLater
    · exact inEarlier
    · have after := past.tip isPath inLater
      rcases notAfter with rfl | before
      · exact absurd after (past.irrefl _)
      · exact absurd (past.trans after before) (past.irrefl _)

end BlockTree

/-- Two chains that share `common` and then differ: `removed` leads to the first
and `added` to the second. -/
structure Forks {B : Type u} (first second common removed added : List B) : Prop where
  first_eq : first = common ++ removed
  second_eq : second = common ++ added
  lowest : ∀ block, removed.head? = some block → added.head? ≠ some block

end VecnoIndexer.Chain
