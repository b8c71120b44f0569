import Mathlib.Data.List.Basic

/-!
# Cutting a slice into chunks

`slice.chunks(size)`: consecutive pieces of `size` elements, the last one
possibly shorter.  The recursion is on a bound for the number of pieces, so
chunks of concrete lists compute.
-/

namespace VecnoIndexer.Collections

universe u

variable {α : Type u}

/-- At most `count` pieces of `size` elements. -/
def chunksUpTo (size : Nat) : Nat → List α → List (List α)
  | 0, _ => []
  | _ + 1, [] => []
  | count + 1, first :: rest =>
      (first :: rest).take size :: chunksUpTo size count ((first :: rest).drop size)

/-- `slice.chunks(size)`. -/
def chunks (size : Nat) (values : List α) : List (List α) :=
  chunksUpTo size values.length values

@[simp]
theorem chunks_nil (size : Nat) : chunks size ([] : List α) = [] :=
  rfl

theorem flatten_chunksUpTo {size : Nat} (positive : 0 < size) {count : Nat}
    {values : List α} (enough : values.length ≤ count) :
    (chunksUpTo size count values).flatten = values := by
  induction count generalizing values with
  | zero => simpa [chunksUpTo, eq_comm] using enough
  | succ count ih =>
      cases values with
      | nil => rfl
      | cons first rest =>
          have fewer : ((first :: rest).drop size).length ≤ count := by
            rw [List.length_drop]
            omega
          rw [chunksUpTo, List.flatten_cons, ih fewer, List.take_append_drop]

/-- No element is lost or repeated. -/
@[simp]
theorem flatten_chunks {size : Nat} (positive : 0 < size) (values : List α) :
    (chunks size values).flatten = values :=
  flatten_chunksUpTo positive (Nat.le_refl _)

theorem mem_chunks_iff {size : Nat} (positive : 0 < size) {values : List α} {value : α} :
    (∃ chunk ∈ chunks size values, value ∈ chunk) ↔ value ∈ values := by
  rw [← List.mem_flatten, flatten_chunks positive]

/-- A chunk is cut off the front of what is left. -/
theorem exists_suffix_of_mem_chunksUpTo {size count : Nat} {values chunk : List α}
    (isChunk : chunk ∈ chunksUpTo size count values) :
    ∃ first rest, (first :: rest) <:+ values ∧ chunk = (first :: rest).take size := by
  induction count generalizing values with
  | zero => cases isChunk
  | succ count ih =>
      cases values with
      | nil => cases isChunk
      | cons first rest =>
          rcases List.mem_cons.mp isChunk with rfl | isLater
          · exact ⟨first, rest, List.suffix_rfl, rfl⟩
          · obtain ⟨next, left, suffix, cut⟩ := ih isLater
            exact ⟨next, left, suffix.trans (List.drop_suffix size _), cut⟩

/-- Nothing is made up, whatever the size. -/
theorem mem_of_mem_chunk {size : Nat} {values chunk : List α} (isChunk : chunk ∈ chunks size values)
    {value : α} (member : value ∈ chunk) : value ∈ values := by
  obtain ⟨first, rest, suffix, rfl⟩ := exists_suffix_of_mem_chunksUpTo isChunk
  exact suffix.subset (List.mem_of_mem_take member)

/-- No chunk is empty. -/
theorem ne_nil_of_mem_chunks {size : Nat} (positive : 0 < size) {values chunk : List α}
    (isChunk : chunk ∈ chunks size values) : chunk ≠ [] := by
  obtain ⟨first, rest, _, rfl⟩ := exists_suffix_of_mem_chunksUpTo isChunk
  cases size with
  | zero => cases positive
  | succ size => exact List.cons_ne_nil first _

theorem length_le_of_mem_chunks {size : Nat} {values chunk : List α}
    (isChunk : chunk ∈ chunks size values) : chunk.length ≤ size := by
  obtain ⟨first, rest, _, rfl⟩ := exists_suffix_of_mem_chunksUpTo isChunk
  exact List.length_take_le size _

/-- Some elements of a slice, up to a number of them. -/
structure Piece (size : Nat) (values piece : List α) : Prop where
  ne_nil : piece ≠ []
  length_le : piece.length ≤ size
  among : ∀ value ∈ piece, value ∈ values

theorem piece_of_mem_chunks {size : Nat} (positive : 0 < size) {values chunk : List α}
    (isChunk : chunk ∈ chunks size values) : Piece size values chunk where
  ne_nil := ne_nil_of_mem_chunks positive isChunk
  length_le := length_le_of_mem_chunks isChunk
  among _ := mem_of_mem_chunk isChunk

/-- A slice longer than a chunk is cut. -/
theorem exists_two_chunks {size : Nat} {values : List α} (positive : 0 < size)
    (more : size < values.length) :
    ∃ first second rest, chunks size values = first :: second :: rest := by
  have whole := flatten_chunks positive values
  cases cut : chunks size values with
  | nil =>
      rw [cut] at whole
      rw [← whole] at more
      exact absurd more (Nat.not_lt_zero _)
  | cons first rest =>
      cases rest with
      | cons second rest => exact ⟨first, second, rest, rfl⟩
      | nil =>
          rw [cut, List.flatten_singleton] at whole
          have atMost : first.length ≤ size :=
            length_le_of_mem_chunks (cut ▸ List.mem_singleton_self first)
          rw [whole] at atMost
          exact absurd more (Nat.not_lt_of_le atMost)

end VecnoIndexer.Collections
