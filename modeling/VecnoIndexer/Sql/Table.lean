import Mathlib.Data.List.Basic
import Mathlib.Data.List.Pairwise

/-!
# Relational tables with a nullable unique key

A table is a list of rows together with the proof that no two rows share a
non-NULL key, so a state that violates a `PRIMARY KEY` or `UNIQUE` constraint
cannot be built.  Rows whose key is NULL never conflict, as in SQL.

The operations are the statement forms `INSERT .. ON CONFLICT DO NOTHING`,
`INSERT .. ON CONFLICT DO UPDATE` and `DELETE .. WHERE`.  Row order carries no
meaning; results are stated through membership and key lookup.
-/

namespace VecnoIndexer.Sql

universe u v

/-- What a unique constraint asks of two rows: their keys differ, or are NULL. -/
def KeysDiffer {α : Type u} {κ : Type v} (key : α → Option κ) (first second : α) : Prop :=
  key first = none ∨ key first ≠ key second

instance {α : Type u} {κ : Type v} [DecidableEq κ] (key : α → Option κ) (first second : α) :
    Decidable (KeysDiffer key first second) :=
  inferInstanceAs (Decidable (_ ∨ _))

instance {α : Type u} {κ : Type v} (key : α → Option κ) : Std.Symm (KeysDiffer key) where
  symm first second differ := by
    by_cases secondNone : key second = none
    · exact Or.inl secondNone
    · rcases differ with firstNone | keysNe
      · exact Or.inr fun equal => secondNone (equal.trans firstNone)
      · exact Or.inr keysNe.symm

/-- Rows with at most one row for each non-NULL key. -/
structure Table {α : Type u} {κ : Type v} (key : α → Option κ) where
  rows : List α
  unique : rows.Pairwise (KeysDiffer key)

namespace Table

variable {α : Type u} {κ : Type v} {key : α → Option κ}

instance : Membership α (Table key) where
  mem table row := row ∈ table.rows

theorem mem_def {table : Table key} {row : α} : row ∈ table ↔ row ∈ table.rows :=
  Iff.rfl

instance [DecidableEq α] (table : Table key) (row : α) : Decidable (row ∈ table) :=
  inferInstanceAs (Decidable (row ∈ table.rows))

/-- A table without rows, as `TRUNCATE` leaves it. -/
def empty : Table key where
  rows := []
  unique := List.Pairwise.nil

@[simp]
theorem notMem_empty (row : α) : row ∉ (empty : Table key) := by
  simp [empty, mem_def]

/-- Two rows of one table that share a non-NULL key are the same row. -/
theorem eq_of_key_eq {table : Table key} {first second : α} {k : κ}
    (firstMem : first ∈ table) (secondMem : second ∈ table)
    (firstKey : key first = some k) (secondKey : key second = some k) :
    first = second := by
  by_contra different
  rcases table.unique.forall firstMem secondMem different with firstNone | keysNe
  · rw [firstKey] at firstNone
    contradiction
  · exact keysNe (firstKey.trans secondKey.symm)

/-! ## Key lookup -/

/-- Some row carries the key `k`. -/
def HasKey (table : Table key) (k : κ) : Prop :=
  ∃ row ∈ table, key row = some k

variable [DecidableEq κ]

/-- The row stored under a key, as `SELECT .. WHERE key = k` returns it. -/
def lookup (table : Table key) (k : κ) : Option α :=
  table.rows.find? fun row => key row = some k

theorem lookup_eq_some_iff {table : Table key} {k : κ} {row : α} :
    table.lookup k = some row ↔ row ∈ table ∧ key row = some k := by
  constructor
  · intro found
    have rowKey : key row = some k := by simpa using List.find?_some found
    exact ⟨List.mem_of_find?_eq_some found, rowKey⟩
  · rintro ⟨rowMem, rowKey⟩
    cases found : table.lookup k with
    | none =>
        have absent := List.find?_eq_none.mp found row rowMem
        simp [rowKey] at absent
    | some other =>
        have otherKey : key other = some k := by simpa using List.find?_some found
        have otherMem : other ∈ table := List.mem_of_find?_eq_some found
        rw [eq_of_key_eq otherMem rowMem otherKey rowKey]

theorem lookup_eq_none_iff {table : Table key} {k : κ} :
    table.lookup k = none ↔ ¬ table.HasKey k := by
  simp [lookup, HasKey, mem_def, List.find?_eq_none]

/-- At most one row carries a key. -/
theorem filter_key_eq (table : Table key) (k : κ) :
    (table.rows.filter fun row => key row = some k) = (table.lookup k).toList := by
  obtain ⟨rows, unique⟩ := table
  rw [lookup]
  induction rows with
  | nil => rfl
  | cons first rest ih =>
      obtain ⟨differ, restUnique⟩ := List.pairwise_cons.mp unique
      by_cases firstKey : key first = some k
      · have alone : (rest.filter fun row => key row = some k) = [] := by
          apply List.filter_eq_nil_iff.mpr
          intro row listed rowKey
          rcases differ row listed with none | keysNe
          · rw [firstKey] at none
            contradiction
          · exact keysNe (firstKey.trans (of_decide_eq_true rowKey).symm)
        rw [List.filter_cons_of_pos (by simpa using firstKey), alone,
          List.find?_cons_of_pos (by simpa using firstKey)]
        rfl
      · rw [List.filter_cons_of_neg (by simpa using firstKey), ih restUnique,
          List.find?_cons_of_neg (by simpa using firstKey)]

@[simp]
theorem lookup_empty (k : κ) : (empty : Table key).lookup k = none :=
  rfl

/-! ## `INSERT .. ON CONFLICT DO NOTHING` -/

/-- The row cannot be stored because its non-NULL key is taken. -/
def Conflicts (table : Table key) (row : α) : Prop :=
  key row ≠ none ∧ ∃ old ∈ table.rows, key old = key row

instance (table : Table key) (row : α) : Decidable (table.Conflicts row) :=
  inferInstanceAs (Decidable (_ ∧ _))

omit [DecidableEq κ] in
theorem conflicts_iff {table : Table key} {row : α} :
    table.Conflicts row ↔ ∃ k, key row = some k ∧ table.HasKey k := by
  cases rowKey : key row with
  | none => simp [Conflicts, rowKey]
  | some k => simp [Conflicts, HasKey, mem_def, rowKey]

/-- Append a row whose key is free. -/
def append (table : Table key) (row : α) (free : ¬ table.Conflicts row) : Table key where
  rows := table.rows ++ [row]
  unique := by
    refine List.pairwise_append.mpr ⟨table.unique, List.pairwise_singleton _ _, ?_⟩
    intro old oldMem new newMem
    rw [List.mem_singleton] at newMem
    subst new
    by_cases oldKey : key old = none
    · exact Or.inl oldKey
    · refine Or.inr fun equal => free ⟨?_, old, oldMem, equal⟩
      exact fun rowNone => oldKey (equal.trans rowNone)

/-- Insert one row unless its key is taken. -/
def insertIgnore (table : Table key) (row : α) : Table key :=
  if conflict : table.Conflicts row then table else table.append row conflict

/-- One multi-row `INSERT .. ON CONFLICT DO NOTHING`. A key repeated within the
statement is stored once. -/
def insertAll (table : Table key) (rows : List α) : Table key :=
  rows.foldl insertIgnore table

theorem mem_insertIgnore {table : Table key} {row other : α} :
    other ∈ table.insertIgnore row ↔
      other ∈ table ∨ (other = row ∧ ¬ table.Conflicts row) := by
  by_cases conflict : table.Conflicts row <;>
    simp [insertIgnore, conflict, append, mem_def]

@[simp]
theorem insertAll_nil (table : Table key) : table.insertAll [] = table :=
  rfl

@[simp]
theorem insertAll_cons (table : Table key) (row : α) (rows : List α) :
    table.insertAll (row :: rows) = (table.insertIgnore row).insertAll rows :=
  rfl

theorem insertAll_append (table : Table key) (first second : List α) :
    table.insertAll (first ++ second) = (table.insertAll first).insertAll second := by
  simp [insertAll]

theorem mem_insertAll_of_mem {table : Table key} {rows : List α} {row : α}
    (rowMem : row ∈ table) : row ∈ table.insertAll rows := by
  induction rows generalizing table with
  | nil => exact rowMem
  | cons first rest ih => exact ih (mem_insertIgnore.mpr (Or.inl rowMem))

theorem mem_or_mem_of_mem_insertAll {table : Table key} {rows : List α} {row : α}
    (rowMem : row ∈ table.insertAll rows) : row ∈ table ∨ row ∈ rows := by
  induction rows generalizing table with
  | nil => exact Or.inl rowMem
  | cons first rest ih =>
      rcases ih rowMem with inFirst | inRest
      · rcases mem_insertIgnore.mp inFirst with old | ⟨rfl, _⟩
        · exact Or.inl old
        · exact Or.inr List.mem_cons_self
      · exact Or.inr (List.mem_cons_of_mem first inRest)

theorem hasKey_insertIgnore {table : Table key} {row : α} {k : κ} :
    (table.insertIgnore row).HasKey k ↔ table.HasKey k ∨ key row = some k := by
  constructor
  · rintro ⟨other, otherMem, otherKey⟩
    rcases mem_insertIgnore.mp otherMem with old | ⟨rfl, _⟩
    · exact Or.inl ⟨other, old, otherKey⟩
    · exact Or.inr otherKey
  · rintro (⟨other, otherMem, otherKey⟩ | rowKey)
    · exact ⟨other, mem_insertIgnore.mpr (Or.inl otherMem), otherKey⟩
    · by_cases conflict : table.Conflicts row
      · obtain ⟨taken, takenKey, other, otherMem, otherKey⟩ := conflicts_iff.mp conflict
        have sameKey : taken = k := Option.some.inj (takenKey.symm.trans rowKey)
        subst taken
        exact ⟨other, mem_insertIgnore.mpr (Or.inl otherMem), otherKey⟩
      · exact ⟨row, mem_insertIgnore.mpr (Or.inr ⟨rfl, conflict⟩), rowKey⟩

/-- After an insert the stored keys are the old ones and those of the rows
given, whichever rows were ignored. -/
theorem hasKey_insertAll {table : Table key} {rows : List α} {k : κ} :
    (table.insertAll rows).HasKey k ↔
      table.HasKey k ∨ ∃ row ∈ rows, key row = some k := by
  induction rows generalizing table with
  | nil => simp
  | cons first rest ih =>
      rw [insertAll_cons, ih, hasKey_insertIgnore]
      simp only [List.mem_cons, exists_eq_or_imp]
      exact or_assoc

theorem lookup_insertIgnore (table : Table key) (row : α) (k : κ) :
    (table.insertIgnore row).lookup k =
      (table.lookup k).or (if key row = some k then some row else none) := by
  cases found : table.lookup k with
  | some old =>
      rw [Option.some_or]
      obtain ⟨stored, oldKey⟩ := lookup_eq_some_iff.mp found
      exact lookup_eq_some_iff.mpr ⟨mem_insertIgnore.mpr (Or.inl stored), oldKey⟩
  | none =>
      rw [Option.none_or]
      have absent := lookup_eq_none_iff.mp found
      by_cases rowKey : key row = some k
      · have free : ¬ table.Conflicts row := fun conflict => by
          obtain ⟨taken, takenKey, hasKey⟩ := conflicts_iff.mp conflict
          rw [rowKey] at takenKey
          exact absent (Option.some.inj takenKey ▸ hasKey)
        rw [if_pos rowKey]
        exact lookup_eq_some_iff.mpr ⟨mem_insertIgnore.mpr (Or.inr ⟨rfl, free⟩), rowKey⟩
      · rw [if_neg rowKey, lookup_eq_none_iff, hasKey_insertIgnore]
        exact not_or.mpr ⟨absent, rowKey⟩

/-- The first writer of a key wins. -/
theorem lookup_insertAll (table : Table key) (rows : List α) (k : κ) :
    (table.insertAll rows).lookup k =
      (table.lookup k).or (rows.find? fun row => key row = some k) := by
  induction rows generalizing table with
  | nil => simp
  | cons first rest ih =>
      rw [insertAll_cons, ih, lookup_insertIgnore, Option.or_assoc, List.find?_cons]
      by_cases firstKey : key first = some k
      · simp [firstKey]
      · simp [firstKey]

/-- When every row that shares a key with a given one, stored or given, is that
row itself, an insert adds exactly the rows given. -/
theorem mem_insertAll_iff {table : Table key} {rows : List α}
    (consistent : ∀ row ∈ rows, ∀ other, other ∈ table ∨ other ∈ rows →
      ∀ k, key row = some k → key other = some k → other = row)
    {row : α} : row ∈ table.insertAll rows ↔ row ∈ table ∨ row ∈ rows := by
  refine ⟨mem_or_mem_of_mem_insertAll, ?_⟩
  rintro (old | given)
  · exact mem_insertAll_of_mem old
  · cases rowKey : key row with
    | some k =>
        obtain ⟨other, otherMem, otherKey⟩ : (table.insertAll rows).HasKey k :=
          hasKey_insertAll.mpr (Or.inr ⟨row, given, rowKey⟩)
        have same := consistent row given other (mem_or_mem_of_mem_insertAll otherMem)
          k rowKey otherKey
        exact same ▸ otherMem
    | none =>
        obtain ⟨before, after, rfl⟩ := List.append_of_mem given
        rw [insertAll_append, insertAll_cons]
        refine mem_insertAll_of_mem (mem_insertIgnore.mpr (Or.inr ⟨rfl, ?_⟩))
        exact fun conflict => conflict.1 rowKey

/-- Rows without a key are appended. -/
theorem rows_insertAll_of_null {table : Table key} {rows : List α}
    (null : ∀ row ∈ rows, key row = none) :
    (table.insertAll rows).rows = table.rows ++ rows := by
  induction rows generalizing table with
  | nil => rw [insertAll_nil, List.append_nil]
  | cons first rest ih =>
      have free : ¬ table.Conflicts first := fun conflict => conflict.1 (null first (by simp))
      rw [insertAll_cons, ih fun row listed => null row (List.mem_cons_of_mem first listed),
        insertIgnore, dif_neg free, append, List.append_assoc, List.singleton_append]

/-! ## `INSERT .. ON CONFLICT (key) DO UPDATE` -/

/-- Replace the row stored under the same key, or append the row. -/
def upsert (table : Table key) (row : α) : Table key :=
  if conflict : table.Conflicts row then
    { rows := table.rows.map fun old => if key old = key row then row else old
      unique := by
        refine List.pairwise_map.mpr (table.unique.imp ?_)
        intro first second differ
        unfold KeysDiffer at differ ⊢
        split <;> split <;> simp_all [eq_comm] }
  else
    table.append row conflict

theorem mem_upsert {table : Table key} {row other : α} {k : κ}
    (rowKey : key row = some k) :
    other ∈ table.upsert row ↔ other = row ∨ (other ∈ table ∧ key other ≠ some k) := by
  by_cases conflict : table.Conflicts row
  · have hasRow := conflict.2
    rw [rowKey] at hasRow
    simp only [upsert, conflict, dif_pos, mem_def, List.mem_map, rowKey]
    constructor
    · rintro ⟨old, oldMem, rfl⟩
      split
      · exact Or.inl rfl
      · rename_i keyNe
        exact Or.inr ⟨oldMem, keyNe⟩
    · rintro (rfl | ⟨otherMem, keyNe⟩)
      · obtain ⟨old, oldMem, oldKey⟩ := hasRow
        exact ⟨old, oldMem, if_pos oldKey⟩
      · exact ⟨other, otherMem, if_neg keyNe⟩
  · simp only [upsert, conflict, dif_neg, not_false_eq_true, append, mem_def,
      List.mem_append, List.mem_singleton]
    constructor
    · rintro (old | rfl)
      · refine Or.inr ⟨old, fun otherKey => conflict ⟨by simp [rowKey], other, old, ?_⟩⟩
        exact otherKey.trans rowKey.symm
      · exact Or.inl rfl
    · rintro (rfl | ⟨old, _⟩)
      · exact Or.inr rfl
      · exact Or.inl old

@[simp]
theorem lookup_upsert_self {table : Table key} {row : α} {k : κ}
    (rowKey : key row = some k) : (table.upsert row).lookup k = some row :=
  lookup_eq_some_iff.mpr ⟨(mem_upsert rowKey).mpr (Or.inl rfl), rowKey⟩

theorem lookup_upsert_ne {table : Table key} {row : α} {k other : κ}
    (rowKey : key row = some k) (different : other ≠ k) :
    (table.upsert row).lookup other = table.lookup other := by
  apply Option.ext
  intro found
  rw [lookup_eq_some_iff, lookup_eq_some_iff, mem_upsert rowKey]
  constructor
  · rintro ⟨rfl | ⟨foundMem, _⟩, foundKey⟩
    · exact absurd (Option.some.inj (foundKey.symm.trans rowKey)) different
    · exact ⟨foundMem, foundKey⟩
  · rintro ⟨foundMem, foundKey⟩
    refine ⟨Or.inr ⟨foundMem, ?_⟩, foundKey⟩
    exact fun equal => different (Option.some.inj (foundKey.symm.trans equal))

/-! ## `DELETE .. WHERE` -/

omit [DecidableEq κ] in
/-- Keep the rows the condition does not match. -/
def deleteWhere (table : Table key) (condition : α → Prop) [DecidablePred condition] :
    Table key where
  rows := table.rows.filter fun row => ¬ condition row
  unique := table.unique.filter _

omit [DecidableEq κ] in
@[simp]
theorem mem_deleteWhere {table : Table key} {condition : α → Prop}
    [DecidablePred condition] {row : α} :
    row ∈ table.deleteWhere condition ↔ row ∈ table ∧ ¬ condition row := by
  simp [deleteWhere, mem_def]

omit [DecidableEq κ] in
theorem deleteWhere_eq_self {table : Table key} {condition : α → Prop}
    [DecidablePred condition] (nothing : ∀ row ∈ table, ¬ condition row) :
    table.deleteWhere condition = table := by
  obtain ⟨rows, unique⟩ := table
  simp only [deleteWhere, mk.injEq]
  exact List.filter_eq_self.mpr fun row stored => decide_eq_true (nothing row stored)

omit [DecidableEq κ] in
/-- Two deletes are one. -/
theorem deleteWhere_deleteWhere (table : Table key) {first second both : α → Prop}
    [DecidablePred first] [DecidablePred second] [DecidablePred both]
    (both_iff : ∀ row, both row ↔ first row ∨ second row) :
    (table.deleteWhere first).deleteWhere second = table.deleteWhere both := by
  simp only [deleteWhere, mk.injEq, List.filter_filter]
  apply List.filter_congr
  intro row _
  simp only [both_iff, not_or, Bool.decide_and]
  exact Bool.and_comm _ _

omit [DecidableEq κ] in
/-- The number of rows a `DELETE` affects. -/
def countWhere (table : Table key) (condition : α → Prop) [DecidablePred condition] : Nat :=
  table.rows.countP fun row => condition row

omit [DecidableEq κ] in
theorem countWhere_add_length (table : Table key) (condition : α → Prop)
    [DecidablePred condition] :
    table.countWhere condition + (table.deleteWhere condition).rows.length =
      table.rows.length := by
  rw [countWhere, deleteWhere, ← List.countP_eq_length_filter, eq_comm]
  simpa using @List.length_eq_countP_add_countP _ (fun row => decide (condition row)) table.rows

end Table

/-! ## `LIMIT` without an order -/

/-- Which of the matching rows a `LIMIT` without `ORDER BY` takes: any of them,
as many as the limit allows. -/
structure LimitChoice (α : Type u) where
  pick : Nat → List α → List α
  sublist : ∀ limit rows, (pick limit rows).Sublist rows
  length_eq : ∀ limit rows, (pick limit rows).length = min limit rows.length

namespace LimitChoice

variable {α : Type u} (choice : LimitChoice α) {limit : Nat} {rows : List α}

/-- The rows listed first. -/
def first : LimitChoice α where
  pick limit rows := rows.take limit
  sublist limit rows := List.take_sublist limit rows
  length_eq _ _ := List.length_take

/-- The rows listed last. -/
def last : LimitChoice α where
  pick limit rows := rows.drop (rows.length - limit)
  sublist _ rows := List.drop_sublist _ rows
  length_eq limit rows := by
    rw [List.length_drop]
    omega

/-- One listed row in particular, where one is asked for. -/
def taking [DecidableEq α] (row : α) : LimitChoice α where
  pick limit rows := if limit = 1 ∧ row ∈ rows then [row] else rows.take limit
  sublist limit rows := by
    split_ifs with asked
    · exact List.singleton_sublist.mpr asked.2
    · exact List.take_sublist limit rows
  length_eq limit rows := by
    split_ifs with asked
    · have listed := List.length_pos_of_mem asked.2
      rw [List.length_singleton]
      omega
    · exact List.length_take

theorem mem_pick_taking [DecidableEq α] {row : α} (listed : row ∈ rows) :
    row ∈ (taking row).pick 1 rows := by
  simp only [taking, listed, and_self, if_true, List.mem_singleton]

theorem mem_of_mem_pick {row : α} (picked : row ∈ choice.pick limit rows) : row ∈ rows :=
  (choice.sublist limit rows).subset picked

theorem pick_eq_nil_iff (positive : 0 < limit) : choice.pick limit rows = [] ↔ rows = [] := by
  rw [← List.length_eq_zero_iff, ← List.length_eq_zero_iff, choice.length_eq]
  omega

/-- A limit that covers all rows takes all of them. -/
theorem pick_eq_self (covers : rows.length ≤ limit) : choice.pick limit rows = rows := by
  apply (choice.sublist limit rows).eq_of_length
  rw [choice.length_eq, Nat.min_eq_right covers]

end LimitChoice

/-! ## Tables of a state -/

/-- A table as a part of a state. -/
structure TableOf {α κ : Type} (σ : Type) (key : α → Option κ) where
  get : σ → Table key
  set : Table key → σ → σ
  get_set : ∀ table state, get (set table state) = table
  set_set : ∀ first second state, set second (set first state) = set second state
  set_get : ∀ state, set (get state) state = state

end VecnoIndexer.Sql
