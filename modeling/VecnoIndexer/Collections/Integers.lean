import Mathlib.Algebra.Ring.Int.Defs
import Mathlib.Algebra.Ring.Nat

/-!
# Fixed-width integers

The program's machine integers are mathematical integers; this file says where
a width matters: which values a type holds, what arithmetic on it wraps to, and
when a conversion fails.
-/

namespace VecnoIndexer.Collections

/-- The values of `i16` and `SMALLINT`. -/
def InI16 (value : Int) : Prop :=
  -2 ^ 15 ≤ value ∧ value < 2 ^ 15

/-- The values of `i32` and `INTEGER`. -/
def InI32 (value : Int) : Prop :=
  -2 ^ 31 ≤ value ∧ value < 2 ^ 31

/-- The values of `i64` and `BIGINT`. -/
def InI64 (value : Int) : Prop :=
  -2 ^ 63 ≤ value ∧ value < 2 ^ 63

instance (value : Int) : Decidable (InI16 value) := inferInstanceAs (Decidable (_ ∧ _))
instance (value : Int) : Decidable (InI32 value) := inferInstanceAs (Decidable (_ ∧ _))
instance (value : Int) : Decidable (InI64 value) := inferInstanceAs (Decidable (_ ∧ _))

/-- The `i64` an integer wraps to. -/
def wrapI64 (value : Int) : Int :=
  Int.bmod value (2 ^ 64)

/-- The `i16` an integer wraps to. -/
def wrapI16 (value : Int) : Int :=
  Int.bmod value (2 ^ 16)

theorem wrapI64_of_inI64 {value : Int} (fits : InI64 value) : wrapI64 value = value := by
  obtain ⟨lower, upper⟩ := fits
  exact Int.bmod_eq_of_le (by omega) (by omega)

theorem wrapI16_of_inI16 {value : Int} (fits : InI16 value) : wrapI16 value = value := by
  obtain ⟨lower, upper⟩ := fits
  exact Int.bmod_eq_of_le (by omega) (by omega)

theorem inI64_wrapI64 (value : Int) : InI64 (wrapI64 value) := by
  have lower := Int.le_bmod (x := value) (m := 2 ^ 64) (by decide)
  have upper := Int.bmod_lt (x := value) (m := 2 ^ 64) (by decide)
  unfold wrapI64
  constructor <;> omega

/-- The result of `i64` arithmetic under overflow checks.  One that is no `i64` is a panic, here
without a value. -/
def checkedI64 (value : Int) : Option Int :=
  if InI64 value then some value else none

theorem checkedI64_eq_some_iff {value result : Int} :
    checkedI64 value = some result ↔ InI64 value ∧ value = result := by
  simp [checkedI64]

@[simp]
theorem isSome_checkedI64 {value : Int} : (checkedI64 value).isSome = true ↔ InI64 value := by
  unfold checkedI64
  split_ifs <;> simp_all

theorem checkedI64_of_inI64 {value : Int} (fits : InI64 value) : checkedI64 value = some value :=
  if_pos fits

/-- `to_i16()` on an unsigned value. -/
def toI16 (value : Nat) : Option Int :=
  if InI16 value then some value else none

/-- `to_i32()` on an unsigned value. -/
def toI32 (value : Nat) : Option Int :=
  if InI32 value then some value else none

/-- `to_i64()` on an unsigned value. -/
def toI64 (value : Nat) : Option Int :=
  if InI64 value then some value else none

/-! A value in range is converted. -/

theorem toI16_of_inI16 {value : Nat} (fits : InI16 value) : toI16 value = some (value : Int) :=
  if_pos fits

theorem toI32_of_inI32 {value : Nat} (fits : InI32 value) : toI32 value = some (value : Int) :=
  if_pos fits

theorem toI64_of_inI64 {value : Nat} (fits : InI64 value) : toI64 value = some (value : Int) :=
  if_pos fits

end VecnoIndexer.Collections
