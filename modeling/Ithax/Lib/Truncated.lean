import Mathlib.Algebra.Group.Nat.Defs
import Mathlib.Order.Basic

/-!
# Truncated arithmetic

Numbers of 32 bits keep a sum or a product modulo 2 ^ 32. Here is when that is the
mathematical one, and when a bound that is checked against it says the same.

* `truncated_mul_iff`   — a product is the exact one below 2 ^ 32.
* `toNat_mul_toUInt64`  — a product in 64 bits always is.
* `truncated_check_iff` — a check of a truncated sum is right, except where the sum wraps and
  what is left of it passes.
-/

namespace Ithax.Lib

/-- A truncated product is no larger. -/
theorem toNat_mul_le (a b : UInt32) : (a * b).toNat ≤ a.toNat * b.toNat := by
  rw [UInt32.toNat_mul]
  exact Nat.mod_le _ _

/-- A product is exact as long as it fits. -/
theorem truncated_mul_iff (a b : UInt32) :
    (a * b).toNat = a.toNat * b.toNat ↔ a.toNat * b.toNat < 2 ^ 32 := by
  rw [UInt32.toNat_mul]
  constructor
  · intro h
    rw [← h]
    exact Nat.mod_lt _ (by decide)
  · exact Nat.mod_eq_of_lt

/-- A product of two numbers of 32 bits has room in 64. -/
theorem toNat_mul_toUInt64 (a b : UInt32) :
    (a.toUInt64 * b.toUInt64).toNat = a.toNat * b.toNat := by
  have hA : a.toNat < 2 ^ 32 := a.toNat_lt
  have hB : b.toNat < 2 ^ 32 := b.toNat_lt
  have hProduct : a.toNat * b.toNat < 2 ^ 32 * 2 ^ 32 := Nat.mul_lt_mul'' hA hB
  rw [UInt64.toNat_mul, UInt32.toNat_toUInt64, UInt32.toNat_toUInt64]
  exact Nat.mod_eq_of_lt hProduct

/-- The low half of a number of 64 bits is all of it below 2 ^ 32. -/
theorem truncated_iff (n : UInt64) : n.toUInt32.toNat = n.toNat ↔ n.toNat < 2 ^ 32 := by
  rw [UInt64.toNat_toUInt32]
  constructor
  · intro h
    rw [← h]
    exact Nat.mod_lt _ (by decide)
  · exact Nat.mod_eq_of_lt

/-- When the check of a truncated sum is right. -/
theorem truncated_check_iff (a b : UInt32) (limit : UInt64) :
    ((a + b).toUInt64 ≤ limit ↔ a.toNat + b.toNat ≤ limit.toNat) ↔
      a.toNat + b.toNat < 2 ^ 32 ∨ a.toNat + b.toNat ≤ limit.toNat ∨
        limit.toNat < a.toNat + b.toNat - 2 ^ 32 := by
  have hA : a.toNat < 2 ^ 32 := a.toNat_lt
  have hB : b.toNat < 2 ^ 32 := b.toNat_lt
  rw [UInt64.le_iff_toNat_le, UInt32.toNat_toUInt64, UInt32.toNat_add]
  by_cases hFits : a.toNat + b.toNat < 2 ^ 32
  · rw [Nat.mod_eq_of_lt hFits]
    omega
  · have hWraps : (a.toNat + b.toNat) % 2 ^ 32 = a.toNat + b.toNat - 2 ^ 32 := by omega
    rw [hWraps]
    omega

end Ithax.Lib
