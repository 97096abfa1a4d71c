import Ithax.Lib.Exceptional
import Mathlib.Algebra.Group.Nat.Defs

/-!
# Watched arithmetic

Unsigned 64-bit arithmetic wraps without a sign of it. Here a program carries one bit more,
which an operation sets when its result is not the mathematical one.
-/

namespace Ithax.Lib

/-- An object whose methods do watched arithmetic. -/
structure Watched (σ : Type) where
  object : σ
  wrapped : Bool
deriving DecidableEq, Repr

namespace Watched

variable {ε σ : Type} {a b : UInt64} {s : Watched σ}

/-- Addition as the machine does it. It is watched for a sum from `2 ^ 64` on. -/
def add (a b : UInt64) : EStateM ε (Watched σ) UInt64 := fun s =>
  .ok (a + b) { s with wrapped := s.wrapped || decide (2 ^ 64 ≤ a.toNat + b.toNat) }

/-- Subtraction as the machine does it. It is watched for a difference below zero. -/
def sub (a b : UInt64) : EStateM ε (Watched σ) UInt64 := fun s =>
  .ok (a - b) { s with wrapped := s.wrapped || decide (a < b) }

/-- The object is replaced and the watch kept. -/
def set (object : σ) : EStateM ε (Watched σ) Unit := modify fun s => { s with object := object }

/-- An addition in range leaves the watch as it was. -/
theorem add_of_lt (h : a.toNat + b.toNat < 2 ^ 64) :
    (add a b : EStateM ε (Watched σ) UInt64) s = .ok (a + b) s := by
  have hExact : decide (2 ^ 64 ≤ a.toNat + b.toNat) = false := decide_eq_false (by omega)
  unfold add
  rw [hExact, Bool.or_false]

/-- So does a subtraction in range. -/
theorem sub_of_le (h : b ≤ a) :
    (sub a b : EStateM ε (Watched σ) UInt64) s = .ok (a - b) s := by
  have hExact : ¬a < b := UInt64.not_lt.mpr h
  simp [sub, hExact]

end Watched

end Ithax.Lib
