import Mathlib.Algebra.BigOperators.Group.List.Basic
import Mathlib.Algebra.GroupWithZero.Nat
import Mathlib.Algebra.Order.BigOperators.Group.List

/-!
# Headroom

Shares of something that is measured anew at each admission. A share is `Covered` when it
fits its own measurement together with the shares before it, and that is what lasts when
shares are given back in any order.
-/

namespace Ithax.Lib

/-- What is held, and the measurement it was admitted against. -/
structure Share where
  size : Nat
  limit : Nat

/-- What all of them hold. -/
def held (shares : List Share) : Nat := (shares.map Share.size).sum

/-- Every share fits with the ones admitted before it; the latest one is first. -/
def Covered : List Share → Prop
  | [] => True
  | share :: rest => share.size + held rest ≤ share.limit ∧ Covered rest

variable {share : Share} {shares rest : List Share}

/-- Nothing is held. -/
@[simp] theorem held_nil : held [] = 0 := rfl

/-- One share more is held. -/
@[simp] theorem held_cons : held (share :: rest) = share.size + held rest := by simp [held]

/-- No shares. -/
@[simp] theorem covered_nil : Covered [] := trivial

/-- A share needs its limit above what is held with it. -/
@[simp] theorem covered_cons_iff :
    Covered (share :: rest) ↔ share.size + held rest ≤ share.limit ∧ Covered rest := Iff.rfl

/-- Fewer shares hold less. -/
theorem held_le_of_sublist (h : rest.Sublist shares) : held rest ≤ held shares := by
  induction h with
  | slnil => simp
  | cons share h ih =>
    rw [held_cons]
    omega
  | cons_cons share h ih =>
    rw [held_cons, held_cons]
    omega

/-- By induction on what is given back: the others only get more room. -/
theorem Covered.sublist (hCovered : Covered shares) (h : rest.Sublist shares) :
    Covered rest := by
  induction h with
  | slnil => simp
  | cons share h ih => exact ih hCovered.2
  | cons_cons share h ih =>
    have hLess := held_le_of_sublist h
    obtain ⟨hFits, hRest⟩ := hCovered
    exact ⟨by omega, ih hRest⟩

end Ithax.Lib
