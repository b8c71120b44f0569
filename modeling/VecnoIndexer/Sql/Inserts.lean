import VecnoIndexer.Sql.Session
import VecnoIndexer.Sql.Table

/-!
# Inserting in pieces

Rows reach a table by several `INSERT .. ON CONFLICT DO NOTHING` statements, cut
and ordered somehow, and some of them more than once.  `Filled` says what such
statements leave, up to a projection of the rows: the old rows, and for each free
key that was given, a row like one of those given.  Rows of another kind may have
been inserted besides.

Two tables filled from one with rows that agree on their keys have the same rows
up to the projection, whatever the statements were.
-/

namespace VecnoIndexer.Sql

variable {ε σ α β κ : Type} {key : α → Option κ}

/-! ## One statement -/

section Statement

variable [DecidableEq κ]

/-- Insert rows into a table of the state. -/
def TableOf.insert (place : TableOf σ key) (rows : List α) (state : σ) : σ :=
  place.set ((place.get state).insertAll rows) state

@[simp]
theorem TableOf.insert_nil (place : TableOf σ key) (state : σ) : place.insert [] state = state :=
  place.set_get state

theorem TableOf.insert_append (place : TableOf σ key) (first second : List α) (state : σ) :
    place.insert (first ++ second) state = place.insert second (place.insert first state) := by
  simp only [insert, Table.insertAll_append, place.get_set, place.set_set]

@[simp]
theorem TableOf.get_insert (place : TableOf σ key) (rows : List α) (state : σ) :
    place.get (place.insert rows state) = (place.get state).insertAll rows :=
  place.get_set _ _

/-- The statement, with the number of rows it affects. -/
def insertRows (unavailable : ε) (place : TableOf σ key) (rows : List α) : Session ε σ ℕ :=
  Session.statement unavailable fun state =>
    let inserted := (place.get state).insertAll rows
    .ok (inserted.rows.length - (place.get state).rows.length, place.set inserted state)

/-- After steps that each insert rows into a table, its keys are the old ones and those of
the rows given. -/
theorem hasKey_foldl_inserts {δ : Type} {step : σ → δ → σ} {table : σ → Table key}
    {rowsOf : δ → List α}
    (inserts : ∀ state action,
      table (step state action) = (table state).insertAll (rowsOf action))
    (actions : List δ) (state : σ) (k : κ) :
    (table (actions.foldl step state)).HasKey k ↔
      (table state).HasKey k ∨ ∃ action ∈ actions, ∃ row ∈ rowsOf action, key row = some k := by
  induction actions generalizing state with
  | nil => simp
  | cons action rest ih =>
      rw [List.foldl_cons, ih, inserts, Table.hasKey_insertAll]
      simp only [List.mem_cons, exists_eq_or_imp, or_assoc]

theorem map_find?_of_map_eq {project : α → β}
    (keyed : ∀ row other, project row = project other → key row = key other)
    {first second : List α} (same : first.map project = second.map project) (k : κ) :
    (first.find? fun row => key row = some k).map project =
      (second.find? fun row => key row = some k).map project := by
  induction first generalizing second with
  | nil =>
      cases second with
      | nil => rfl
      | cons row rest => simp at same
  | cons row rest ih =>
      cases second with
      | nil => simp at same
      | cons other others =>
          rw [List.map_cons, List.map_cons, List.cons.injEq] at same
          have sameKey := keyed row other same.1
          rw [List.find?_cons, List.find?_cons, ← sameKey]
          by_cases rowKey : key row = some k
          · simpa [rowKey] using same.1
          · simpa [rowKey] using ih same.2

/-- Two writers of rows that are alike leave rows that are alike, whichever writes first. -/
theorem map_lookup_insertAll_comm {project : α → β}
    (keyed : ∀ row other, project row = project other → key row = key other)
    {first second : List α} (same : first.map project = second.map project)
    (table : Table key) (k : κ) :
    (((table.insertAll first).insertAll second).lookup k).map project =
      (((table.insertAll second).insertAll first).lookup k).map project := by
  have found := map_find?_of_map_eq keyed same k
  simp only [Table.lookup_insertAll]
  cases table.lookup k with
  | some old => rfl
  | none =>
      cases firstFound : first.find? fun row => key row = some k <;>
        cases secondFound : second.find? fun row => key row = some k <;>
        simp [firstFound, secondFound] at found ⊢
      exact found

end Statement

/-! ## What inserts leave -/

/-- The old rows are kept, a new one is like one of the rows given or of the other kind
and had a free key, and every key given is taken. -/
structure Filled (project : α → β) (rows : List α) (beside : α → Prop)
    (before after : Table key) : Prop where
  kept : ∀ row ∈ before, row ∈ after
  added : ∀ row ∈ after, row ∈ before ∨
    (((∃ given ∈ rows, project given = project row) ∨ beside row) ∧
      ∀ k, key row = some k → ¬ before.HasKey k)
  present : ∀ row ∈ rows, ∀ k, key row = some k → after.HasKey k

namespace Filled

variable {project : α → β} {rows more : List α} {beside other : α → Prop}
  {before middle after : Table key}

theorem refl (table : Table key) : Filled project [] beside table table where
  kept _ stored := stored
  added _ stored := Or.inl stored
  present _ given := absurd given List.not_mem_nil

theorem mono (filled : Filled project rows beside before after)
    (weaker : ∀ row, beside row → other row) : Filled project rows other before after where
  kept := filled.kept
  added row stored := by
    rcases filled.added row stored with old | ⟨given | isBeside, free⟩
    · exact Or.inl old
    · exact Or.inr ⟨Or.inl given, free⟩
    · exact Or.inr ⟨Or.inr (weaker row isBeside), free⟩
  present := filled.present

theorem hasKey (filled : Filled project rows beside before after) {k : κ}
    (taken : before.HasKey k) : after.HasKey k := by
  obtain ⟨row, stored, rowKey⟩ := taken
  exact ⟨row, filled.kept row stored, rowKey⟩

theorem trans (first : Filled project rows beside before middle)
    (second : Filled project more beside middle after) :
    Filled project (rows ++ more) beside before after where
  kept row stored := second.kept row (first.kept row stored)
  added row stored := by
    rcases second.added row stored with earlier | ⟨given, free⟩
    · rcases first.added row earlier with old | ⟨⟨given, isGiven, like⟩ | isBeside, free⟩
      · exact Or.inl old
      · exact Or.inr ⟨Or.inl ⟨given, List.mem_append_left more isGiven, like⟩, free⟩
      · exact Or.inr ⟨Or.inr isBeside, free⟩
    · refine Or.inr ⟨?_, fun k rowKey taken => free k rowKey (first.hasKey taken)⟩
      rcases given with ⟨given, isGiven, like⟩ | isBeside
      · exact Or.inl ⟨given, List.mem_append_right rows isGiven, like⟩
      · exact Or.inr isBeside
  present row given k rowKey := by
    rcases List.mem_append.mp given with earlier | later
    · exact second.hasKey (first.present row earlier k rowKey)
    · exact second.present row later k rowKey

/-- Only the keys of the rows given and the rows up to the projection count. -/
theorem congr (filled : Filled project rows beside before after)
    (given : ∀ row ∈ rows, ∃ other ∈ more, project other = project row)
    (taken : ∀ row ∈ more, ∃ other ∈ rows, key other = key row) :
    Filled project more beside before after where
  kept := filled.kept
  added row stored := by
    rcases filled.added row stored with old | ⟨⟨other, isGiven, like⟩ | isBeside, free⟩
    · exact Or.inl old
    · obtain ⟨another, isMore, same⟩ := given other isGiven
      exact Or.inr ⟨Or.inl ⟨another, isMore, same.trans like⟩, free⟩
    · exact Or.inr ⟨Or.inr isBeside, free⟩
  present row isMore k rowKey := by
    obtain ⟨other, isGiven, sameKey⟩ := taken row isMore
    exact filled.present other isGiven k (sameKey.trans rowKey)

/-- When all keys given are taken before, only rows of the other kind are new. -/
theorem mem_or_beside (filled : Filled project rows beside before after)
    (keyed : ∀ row other, project row = project other → key row = key other)
    (keyedRows : ∀ row, ∃ k, key row = some k)
    (taken : ∀ row ∈ rows, ∀ k, key row = some k → before.HasKey k)
    {row : α} (stored : row ∈ after) : row ∈ before ∨ beside row := by
  rcases filled.added row stored with old | ⟨⟨given, isGiven, like⟩ | isBeside, free⟩
  · exact Or.inl old
  · obtain ⟨k, rowKey⟩ := keyedRows row
    exact absurd (taken given isGiven k ((keyed given row like).trans rowKey)) (free k rowKey)
  · exact Or.inr isBeside

end Filled

theorem filled_insertAll [DecidableEq κ] (project : α → β) (beside : α → Prop)
    (table : Table key) (rows : List α) :
    Filled project rows beside table (table.insertAll rows) where
  kept _ stored := Table.mem_insertAll_of_mem stored
  added := by
    intro row stored
    by_cases old : row ∈ table
    · exact Or.inl old
    · have given := (Table.mem_or_mem_of_mem_insertAll stored).resolve_left old
      refine Or.inr ⟨Or.inl ⟨row, given, rfl⟩, ?_⟩
      rintro k rowKey ⟨other, otherMem, otherKey⟩
      have same := Table.eq_of_key_eq (Table.mem_insertAll_of_mem otherMem) stored otherKey rowKey
      exact old (same ▸ otherMem)
  present row given k rowKey := Table.hasKey_insertAll.mpr (Or.inr ⟨row, given, rowKey⟩)

/-- Rows of the other kind only. -/
theorem filled_insertAll_beside [DecidableEq κ] (project : α → β) {beside : α → Prop}
    (table : Table key) {rows : List α} (isBeside : ∀ row ∈ rows, beside row) :
    Filled project [] beside table (table.insertAll rows) where
  kept _ stored := Table.mem_insertAll_of_mem stored
  added := by
    intro row stored
    rcases (filled_insertAll project beside table rows).added row stored with old | ⟨_, free⟩
    · exact Or.inl old
    · rcases Table.mem_or_mem_of_mem_insertAll stored with old | given
      · exact Or.inl old
      · exact Or.inr ⟨Or.inr (isBeside row given), free⟩
  present _ given := absurd given List.not_mem_nil

/-! ## Tables filled in two ways -/

/-- Up to a projection, a table has the rows of another one and perhaps some besides. -/
structure SameRows (project : α → β) (beside : α → Prop) (first second : Table key) : Prop where
  stored : ∀ row ∈ second, ∃ other ∈ first, project other = project row
  only : ∀ row ∈ first, (∃ other ∈ second, project other = project row) ∨ beside row

section Unique

variable {project : α → β} {rows more : List α} {beside other : α → Prop}
  {before first second : Table key}

theorem subset_of_filled (keyed : ∀ row other, project row = project other → key row = key other)
    (keyedRows : ∀ row, ∃ k, key row = some k)
    (consistent : ∀ row ∈ rows, ∀ other ∈ more, key row = key other → project row = project other)
    (covered : ∀ row ∈ rows, ∃ other ∈ more, key other = key row)
    (firstFilled : Filled project rows beside before first)
    (secondFilled : Filled project more other before second)
    (decided : ∀ row ∈ second, other row → ∀ given, key given = key row →
      project row = project given) {row : α} (stored : row ∈ first) :
    (∃ other ∈ second, project other = project row) ∨ beside row := by
  rcases firstFilled.added row stored with old | ⟨⟨given, isGiven, like⟩ | isBeside, free⟩
  · exact Or.inl ⟨row, secondFilled.kept row old, rfl⟩
  · obtain ⟨k, rowKey⟩ := keyedRows row
    obtain ⟨target, isMore, sameKey⟩ := covered given isGiven
    have givenKey : key given = some k := (keyed given row like).trans rowKey
    obtain ⟨found, foundMem, foundKey⟩ :=
      secondFilled.present target isMore k (sameKey.trans givenKey)
    refine Or.inl ⟨found, foundMem, ?_⟩
    rcases secondFilled.added found foundMem with
      old | ⟨⟨another, isAnother, anotherLike⟩ | isOther, _⟩
    · exact absurd ⟨found, old, foundKey⟩ (free k rowKey)
    · have anotherKey : key another = some k := (keyed another found anotherLike).trans foundKey
      have same := consistent given isGiven another isAnother (givenKey.trans anotherKey.symm)
      exact anotherLike.symm.trans (same.symm.trans like)
    · exact decided found foundMem isOther row (rowKey.trans foundKey.symm)
  · exact Or.inr isBeside

/-- Rows with the same keys, given somehow, leave the same rows, if a row of the other kind
is determined by its key. -/
theorem sameRows_of_filled (keyed : ∀ row other, project row = project other → key row = key other)
    (keyedRows : ∀ row, ∃ k, key row = some k)
    (consistent : ∀ row ∈ rows, ∀ other ∈ more, key row = key other → project row = project other)
    (covered : ∀ row ∈ rows, ∃ other ∈ more, key other = key row)
    (covers : ∀ row ∈ more, ∃ other ∈ rows, key other = key row)
    (decided : ∀ row, beside row → ∀ given, key given = key row → project row = project given)
    (firstFilled : Filled project rows beside before first)
    (secondFilled : Filled project more (fun _ => False) before second) :
    SameRows project beside first second where
  stored row stored := by
    have found := subset_of_filled keyed keyedRows
      (fun row isMore other isGiven sameKey =>
        (consistent other isGiven row isMore sameKey.symm).symm)
      covers secondFilled firstFilled (fun row _ => decided row) stored
    exact found.resolve_right id
  only row stored :=
    subset_of_filled keyed keyedRows consistent covered firstFilled secondFilled
      (fun _ _ impossible => impossible.elim) stored

end Unique

end VecnoIndexer.Sql
