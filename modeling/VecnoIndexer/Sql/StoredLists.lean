import Mathlib.Data.List.Nodup
import VecnoIndexer.Collections.Fallible
import VecnoIndexer.Sql.Table

/-!
# Lists stored row by row

A list that belongs to an owner is stored as one row for each element, whose key is the owner
and the position.  If the rows of the owner have the positions of the list and each is read as
the element there, the list is read back.
-/

namespace VecnoIndexer.Sql.Table

open VecnoIndexer.Collections

universe u

variable {α : Type u} {β ω : Type} [DecidableEq ω] {key : α → Option (ω × Int)}

/-- `SELECT .. WHERE owner = $1` -/
def rowsOfOwner (table : Table key) (owner : ω) : List α :=
  table.rows.filter fun row => (key row).any fun k => k.1 = owner

/-- The rows of an owner by position, each of them read. -/
def readList (table : Table key) (owner : ω) (read : α → Option β) : Option (List β) :=
  (List.range (table.rowsOfOwner owner).length).mapM fun (position : ℕ) =>
    (table.lookup (owner, (position : Int))).bind read

omit [DecidableEq ω] in
theorem differ_of_owner {owner : ω} {first second : α} {firstIndex secondIndex : Int}
    (differ : KeysDiffer key first second) (firstKey : key first = some (owner, firstIndex))
    (secondKey : key second = some (owner, secondIndex)) : firstIndex ≠ secondIndex := by
  rintro rfl
  rcases differ with none | ne
  · rw [firstKey] at none
    contradiction
  · exact ne (firstKey.trans secondKey.symm)

/-- As many rows as there are positions. -/
theorem length_rowsOfOwner {table : Table key} {owner : ω} {length : ℕ}
    (present : ∀ position < length, table.HasKey (owner, (position : Int)))
    (only : ∀ row ∈ table, ∀ index, key row = some (owner, index) →
      ∃ position < length, index = (position : Int)) :
    (table.rowsOfOwner owner).length = length := by
  let position (row : α) : Int := (key row).elim 0 Prod.snd
  have owned : ∀ row ∈ table.rowsOfOwner owner,
      row ∈ table ∧ key row = some (owner, position row) := by
    intro row isRow
    obtain ⟨stored, hasOwner⟩ := List.mem_filter.mp isRow
    obtain ⟨⟨rowOwner, index⟩, rowKey, same⟩ := (Option.any_eq_true _ _).mp hasOwner
    cases of_decide_eq_true same
    refine ⟨stored, ?_⟩
    simp only [position, rowKey, Option.elim_some]
  have nodup : ((table.rowsOfOwner owner).map position).Nodup := by
    refine List.pairwise_map.mpr ((table.unique.filter _).imp_of_mem ?_)
    intro first second isFirst isSecond differ
    exact differ_of_owner differ (owned first isFirst).2 (owned second isSecond).2
  have positions : ((List.range length).map fun (position : ℕ) => (position : Int)).Nodup :=
    List.nodup_range.map fun _ _ => Int.ofNat_inj.mp
  have same : ((table.rowsOfOwner owner).map position).Perm
      ((List.range length).map fun (position : ℕ) => (position : Int)) := by
    refine (List.perm_ext_iff_of_nodup nodup positions).mpr fun index => ?_
    simp only [List.mem_map, List.mem_range]
    constructor
    · rintro ⟨row, isRow, rfl⟩
      obtain ⟨place, inside, eq⟩ := only row (owned row isRow).1 _ (owned row isRow).2
      exact ⟨place, inside, eq.symm⟩
    · rintro ⟨place, inside, rfl⟩
      obtain ⟨row, stored, rowKey⟩ := present place inside
      refine ⟨row, List.mem_filter.mpr ⟨stored, ?_⟩, ?_⟩
      · simp [rowKey]
      · simp only [position, rowKey, Option.elim_some]
  have lengths := same.length_eq
  rwa [List.length_map, List.length_map, List.length_range] at lengths

/-- The list is read back. -/
theorem readList_eq_some {table : Table key} {owner : ω} {read : α → Option β} {items : List β}
    (present : ∀ position < items.length, table.HasKey (owner, (position : Int)))
    (reads : ∀ row ∈ table, ∀ index, key row = some (owner, index) →
      ∃ position, ∃ inside : position < items.length,
        index = (position : Int) ∧ read row = some items[position]) :
    table.readList owner read = some items := by
  have count : (table.rowsOfOwner owner).length = items.length := by
    refine length_rowsOfOwner present fun row stored index rowKey => ?_
    obtain ⟨position, inside, eq, _⟩ := reads row stored index rowKey
    exact ⟨position, inside, eq⟩
  rw [readList, count]
  apply mapM_range_eq_some
  intro position inside
  obtain ⟨row, stored, rowKey⟩ := present position inside
  rw [lookup_eq_some_iff.mpr ⟨stored, rowKey⟩, Option.bind_some]
  obtain ⟨place, _, eq, readRow⟩ := reads row stored _ rowKey
  cases Int.ofNat_inj.mp eq
  exact readRow

end VecnoIndexer.Sql.Table
