import Mathlib.Data.List.Basic

/-!
# First occurrences

`eraseDups` lists the elements of a list in the order in which they first occur.
-/

namespace VecnoIndexer.Collections

universe u

variable {α : Type u} [DecidableEq α] {first second : List α} {value : α}

/-- A value that occurred before is no first occurrence. -/
theorem eraseDups_concat_of_mem (occurred : value ∈ first) :
    (first ++ [value]).eraseDups = first.eraseDups := by
  rw [List.eraseDups_append]
  simp [List.removeAll, occurred]

theorem eraseDups_concat_of_notMem (fresh : value ∉ first) :
    (first ++ [value]).eraseDups = first.eraseDups ++ [value] := by
  rw [List.eraseDups_append]
  simp [List.removeAll, fresh, List.eraseDups_cons]

theorem mem_iff_of_eraseDups_eq (same : first.eraseDups = second.eraseDups) :
    value ∈ first ↔ value ∈ second := by
  rw [← List.mem_eraseDups, same, List.mem_eraseDups]

/-- Lists with the same first occurrences still have them after another value. -/
theorem eraseDups_concat_congr (same : first.eraseDups = second.eraseDups) (value : α) :
    (first ++ [value]).eraseDups = (second ++ [value]).eraseDups := by
  by_cases occurred : value ∈ first
  · rw [eraseDups_concat_of_mem occurred,
      eraseDups_concat_of_mem ((mem_iff_of_eraseDups_eq same).mp occurred), same]
  · rw [eraseDups_concat_of_notMem occurred,
      eraseDups_concat_of_notMem (mt (mem_iff_of_eraseDups_eq same).mpr occurred), same]

/-- A longer list has more first occurrences, after those it had. -/
theorem eraseDups_prefix (first second : List α) :
    first.eraseDups <+: (first ++ second).eraseDups := by
  rw [List.eraseDups_append]
  exact List.prefix_append _ _

end VecnoIndexer.Collections
