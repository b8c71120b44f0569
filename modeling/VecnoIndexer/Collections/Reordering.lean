import Mathlib.Data.List.Perm.Basic

/-!
# Orders the program does not fix

The entries of a hash map come out in an unspecified order, and concurrent
statements complete in one.  A `Reordering` is one such order; a result that must
not depend on it is stated for all of them.
-/

namespace VecnoIndexer.Collections

universe u

/-- Some rearrangement of the entries. -/
structure Reordering (α : Type u) where
  order : List α → List α
  perm : ∀ entries, (order entries).Perm entries

namespace Reordering

variable {α : Type u}

/-- The order in which the entries are listed. -/
def listed : Reordering α where
  order := id
  perm := List.Perm.refl

@[simp]
theorem mem_order (hashOrder : Reordering α) {entries : List α} {entry : α} :
    entry ∈ hashOrder.order entries ↔ entry ∈ entries :=
  (hashOrder.perm entries).mem_iff

end Reordering

end VecnoIndexer.Collections
