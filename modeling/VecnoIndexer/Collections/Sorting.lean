import Mathlib.Data.List.Lex
import Mathlib.Data.List.Sort
import Mathlib.Data.Prod.Lex
import Mathlib.Data.String.Basic
import VecnoIndexer.Collections.Chunks

/-!
# Sorting and cutting

Rows are sorted before they are cut into chunks.  Which rows share a chunk depends on
the order, which rows there are does not.
-/

namespace VecnoIndexer.Collections

universe u v

variable {α : Type u} {κ : Type v} [LinearOrder κ]

/-- `values.sort_by(..)`, which is stable. -/
def sortByKey (key : α → κ) (values : List α) : List α :=
  values.insertionSort fun first second => key first ≤ key second

@[simp]
theorem mem_sortByKey {key : α → κ} {values : List α} {value : α} :
    value ∈ sortByKey key values ↔ value ∈ values :=
  List.mem_insertionSort _

/-- The chunks of the sorted values, each made something of. -/
def sortedChunks {β : Type u} (size : Nat) (key : α → κ) (make : List α → β) (values : List α) :
    List β :=
  (chunks size (sortByKey key values)).map make

theorem exists_sortedChunks_iff {β : Type u} {size : Nat} (positive : 0 < size) {key : α → κ}
    {make : List α → β} {content : β → List α} (made : ∀ chunk, content (make chunk) = chunk)
    {values : List α} {value : α} :
    (∃ piece ∈ sortedChunks size key make values, value ∈ content piece) ↔ value ∈ values := by
  rw [← @mem_sortByKey _ _ _ key, ← mem_chunks_iff positive]
  simp only [sortedChunks, List.mem_map, exists_exists_and_eq_and, made]

theorem piece_of_mem_sortedChunks {β : Type u} {size : Nat} (positive : 0 < size) {key : α → κ}
    {make : List α → β} {values : List α} {made : β}
    (member : made ∈ sortedChunks size key make values) :
    ∃ chunk, Piece size values chunk ∧ make chunk = made := by
  obtain ⟨chunk, isChunk, same⟩ := List.mem_map.mp member
  have piece := piece_of_mem_chunks positive isChunk
  exact ⟨chunk, ⟨piece.ne_nil, piece.length_le, fun value held =>
    mem_sortByKey.mp (piece.among value held)⟩, same⟩

end VecnoIndexer.Collections
