import Mathlib.Algebra.GroupWithZero.Nat

/-!
# Machine integers

Counters are natural numbers.  Where the source saturates, so does the model.
-/

namespace Reposcout

/-- `u64::MAX`, also `usize::MAX` on the supported targets. -/
def u64Max : Nat := 2 ^ 64 - 1

/-- `saturating_add` on `u64` and `usize`. -/
def satAdd (a b : Nat) : Nat := min (a + b) u64Max

/-- `saturating_mul` on `u64`. -/
def satMul (a b : Nat) : Nat := min (a * b) u64Max

/-- `checked_add` on `usize`. -/
def checkedAdd (a b : Nat) : Option Nat := if a + b ≤ u64Max then some (a + b) else none

/-- `checked_sub` on `usize`. -/
def checkedSub (a b : Nat) : Option Nat := if b ≤ a then some (a - b) else none

/-- `u32::MAX`. -/
def u32Max : Nat := 2 ^ 32 - 1

/-- `saturating_add` on `u32`. -/
def satAdd32 (a b : Nat) : Nat := min (a + b) u32Max

/-- A vector or slice of the source: its length is a `usize`. -/
structure Vec (α : Type) where
  toList : List α
  length_le : toList.length ≤ u64Max

theorem satAdd_eq {a b : Nat} (h : a + b ≤ u64Max) : satAdd a b = a + b :=
  Nat.min_eq_left h

/-- A running saturating sum is the sum, cut off at the largest value. -/
theorem satAdd_min (a b : Nat) : satAdd (min a u64Max) b = min (a + b) u64Max := by
  unfold satAdd
  omega

theorem satAdd32_min (a b : Nat) : satAdd32 (min a u32Max) b = min (a + b) u32Max := by
  unfold satAdd32
  omega

end Reposcout
