import Mathlib.Data.Nat.Bitwise
import Mathlib.Tactic.Ring

/-!
# Little-endian byte strings

Fixed-width unsigned numbers as byte lists, least significant byte first.
`leBytes k n` writes the `k` low bytes of `n` the way a shift-and-mask loop
does; `leNat` reads a byte list back by shift-and-or.

Main results:

* `leNat_leBytes` — reading back what was written gives `n` modulo `256 ^ k`;
* `leBytes_leNat` — writing back what was read gives the same bytes;
* `toInt64_toInt8` and its kin — a number that fits a narrower type survives
  the narrowing.
-/

namespace Ithax.Lib

/-- Raw byte strings. -/
abbrev Bytes := List UInt8

/-- The `k` low-order bytes of `n`, least significant first. -/
def leBytes : Nat → Nat → Bytes
  | 0, _ => []
  | k + 1, n => UInt8.ofNat n :: leBytes k (n >>> 8)

/-- The number whose little-endian bytes are given. -/
def leNat : Bytes → Nat
  | [] => 0
  | b :: bs => b.toNat ||| leNat bs <<< 8

/-- As many bytes as asked for. -/
@[simp] theorem length_leBytes (k n : Nat) : (leBytes k n).length = k := by
  induction k generalizing n with
  | zero => rfl
  | succ k ih => simp [leBytes, ih]

/-- Each byte contributes its own base-256 digit. -/
theorem leNat_cons (b : UInt8) (bs : Bytes) :
    leNat (b :: bs) = b.toNat + 256 * leNat bs := by
  have hb : b.toNat < 2 ^ 8 := b.toNat_lt
  rw [leNat, Nat.or_comm, Nat.shiftLeft_eq, Nat.mul_comm (leNat bs),
    ← Nat.two_pow_add_eq_or_of_lt hb]
  omega

/-- Bytes make a number below the power. -/
theorem leNat_lt (bs : Bytes) : leNat bs < 256 ^ bs.length := by
  induction bs with
  | nil => simp [leNat]
  | cons b bs ih =>
    have hb : b.toNat < 256 := b.toNat_lt
    rw [leNat_cons, List.length_cons, pow_succ]
    omega

/-- Writing a number and reading it back cuts it to the width. -/
theorem leNat_leBytes (k n : Nat) : leNat (leBytes k n) = n % 256 ^ k := by
  induction k generalizing n with
  | zero => simp [leBytes, leNat, Nat.mod_one]
  | succ k ih =>
    rw [leBytes, leNat_cons, ih, Nat.shiftRight_eq_div_pow]
    have hb : (UInt8.ofNat n).toNat = n % 256 := by simp
    rw [hb, show 256 ^ (k + 1) = 256 * 256 ^ k by ring, Nat.mod_mul]

/-- A number that fits comes back. -/
theorem leNat_leBytes_of_lt {k n : Nat} (h : n < 256 ^ k) :
    leNat (leBytes k n) = n := by
  rw [leNat_leBytes, Nat.mod_eq_of_lt h]

/-- Bytes come back from their number. -/
theorem leBytes_leNat (bs : Bytes) : leBytes bs.length (leNat bs) = bs := by
  induction bs with
  | nil => rfl
  | cons b bs ih =>
    have hb : b.toNat < 256 := b.toNat_lt
    have hLow : UInt8.ofNat (b.toNat + 256 * leNat bs) = b := by
      apply UInt8.toNat_inj.mp
      simp only [UInt8.toNat_ofNat']
      omega
    have hHigh : (b.toNat + 256 * leNat bs) >>> 8 = leNat bs := by
      rw [Nat.shiftRight_eq_div_pow]
      omega
    rw [leNat_cons, List.length_cons, leBytes, hLow, hHigh, ih]

-- ---------------------------------------------------------------------------
-- Machine integers
-- ---------------------------------------------------------------------------

/-- A 64-bit word comes back. -/
theorem uint64_leBytes (n : UInt64) : UInt64.ofNat (leNat (leBytes 8 n.toNat)) = n := by
  rw [leNat_leBytes_of_lt n.toNat_lt]
  exact UInt64.ofNat_toNat

/-- A 32-bit word comes back. -/
theorem uint32_leBytes (n : UInt32) : UInt32.ofNat (leNat (leBytes 4 n.toNat)) = n := by
  rw [leNat_leBytes_of_lt n.toNat_lt]
  exact UInt32.ofNat_toNat

/-- A 16-bit word comes back. -/
theorem uint16_leBytes (n : UInt16) : UInt16.ofNat (leNat (leBytes 2 n.toNat)) = n := by
  rw [leNat_leBytes_of_lt n.toNat_lt]
  exact UInt16.ofNat_toNat

/-- Narrowing a number in range loses nothing. -/
theorem toInt64_toInt8 {n : Int64} (hLow : -2 ^ 7 ≤ n.toInt) (hHigh : n.toInt < 2 ^ 7) :
    n.toInt8.toInt64 = n := by
  rw [← Int64.toInt_inj, Int8.toInt_toInt64, Int64.toInt_toInt8]
  exact Int.bmod_eq_of_le (by omega) (by omega)

theorem toInt64_toInt16 {n : Int64} (hLow : -2 ^ 15 ≤ n.toInt)
    (hHigh : n.toInt < 2 ^ 15) : n.toInt16.toInt64 = n := by
  rw [← Int64.toInt_inj, Int16.toInt_toInt64, Int64.toInt_toInt16]
  exact Int.bmod_eq_of_le (by omega) (by omega)

theorem toInt64_toInt32 {n : Int64} (hLow : -2 ^ 31 ≤ n.toInt)
    (hHigh : n.toInt < 2 ^ 31) : n.toInt32.toInt64 = n := by
  rw [← Int64.toInt_inj, Int32.toInt_toInt64, Int64.toInt_toInt32]
  exact Int.bmod_eq_of_le (by omega) (by omega)

/-- A non-negative number below `k` is its unsigned value modulo `k`. -/
theorem ofNat_toUInt64_mod {n : Int64} {k : Nat} (hLow : 0 ≤ n.toInt)
    (hHigh : n.toInt < k) : Int64.ofNat (n.toUInt64.toNat % k) = n := by
  have hNonneg : (0 : Int64) ≤ n := Int64.le_iff_toInt_le.mpr (by simpa using hLow)
  have hNat : (n.toNatClampNeg : Int) = n.toInt := by
    rw [← Int64.toNat_toInt]
    exact Int.toNat_of_nonneg hLow
  rw [Int64.toNat_toUInt64_of_le hNonneg, Nat.mod_eq_of_lt (by omega),
    Int64.ofNat_toNatClampNeg n hNonneg]

/-- Only the numbers below `k` do. -/
theorem ofNat_toUInt64_mod_iff {n : Int64} {k : Nat} (hPos : 0 < k) (hBound : k ≤ 2 ^ 63) :
    Int64.ofNat (n.toUInt64.toNat % k) = n ↔ 0 ≤ n.toInt ∧ n.toInt < k := by
  constructor
  · intro hSame
    have hLt := Nat.mod_lt n.toUInt64.toNat hPos
    have hInt : ((n.toUInt64.toNat % k : Nat) : Int) = n.toInt := by
      rw [← Int64.toInt_ofNat_of_lt (show n.toUInt64.toNat % k < 2 ^ 63 by omega)]
      exact congrArg Int64.toInt hSame
    rw [← hInt]
    omega
  · rintro ⟨hLow, hHigh⟩
    exact ofNat_toUInt64_mod hLow hHigh

end Ithax.Lib
