import Mathlib.Data.List.Basic
import Mathlib.Order.Lattice

/-!
# Lists grouped by a key

Two lists in which every key has the same entries in the same order: one may be the other,
grouped. They have the same entries, and the one that is sorted by the key is unique.
-/

namespace Ithax.Lib

variable {α κ : Type}

/-- Every key has the same entries, in the same order. -/
def SameByKey [DecidableEq κ] (key : α → κ) (xs ys : List α) : Prop :=
  ∀ k, xs.filter (fun x => key x = k) = ys.filter (fun y => key y = k)

section DecidableEq

variable [DecidableEq κ] {key : α → κ} {xs ys : List α}

/-- Leaving elements out by a property of theirs. -/
theorem SameByKey.filter (h : SameByKey key xs ys) (keep : α → Bool) :
    SameByKey key (xs.filter keep) (ys.filter keep) := by
  intro k
  rw [List.filter_comm, h k, List.filter_comm]

/-- The two lists have the same elements. -/
theorem SameByKey.perm (h : SameByKey key xs ys) : xs.Perm ys := by
  classical
  rw [List.perm_iff_count]
  intro x
  have hOwn : ∀ zs : List α, (zs.filter fun z => key z = key x).count x = zs.count x :=
    fun zs => List.count_filter (decide_eq_true rfl)
  rw [← hOwn xs, h (key x), hOwn ys]

/-- The first elements taken off. -/
theorem SameByKey.tail {x : α} (h : SameByKey key (x :: xs) (x :: ys)) :
    SameByKey key xs ys := by
  intro k
  have hFull := h k
  by_cases hx : key x = k
  · rw [List.filter_cons_of_pos (by simpa using hx),
      List.filter_cons_of_pos (by simpa using hx)] at hFull
    exact (List.cons.inj hFull).2
  · rw [List.filter_cons_of_neg (by simpa using hx),
      List.filter_cons_of_neg (by simpa using hx)] at hFull
    exact hFull

end DecidableEq

variable [LinearOrder κ] {key : α → κ}

/-- A list is the only one of its kind that is sorted by the key. -/
theorem SameByKey.eq_of_sorted {xs ys : List α} (h : SameByKey key xs ys)
    (hxs : xs.Pairwise fun a b => key a ≤ key b) (hys : ys.Pairwise fun a b => key a ≤ key b) :
    xs = ys := by
  induction xs generalizing ys with
  | nil => exact (List.nil_perm.mp h.perm).symm
  | cons x xs ih =>
    cases ys with
    | nil => exact absurd h.perm (by simp)
    | cons y ys =>
      obtain ⟨hx, hxsRest⟩ := List.pairwise_cons.mp hxs
      obtain ⟨hy, hysRest⟩ := List.pairwise_cons.mp hys
      -- each of the two heads has the least key
      have hxy : key x ≤ key y := by
        rcases List.mem_cons.mp (h.perm.mem_iff.mpr List.mem_cons_self) with rfl | hIn
        · exact le_refl _
        · exact hx y hIn
      have hyx : key y ≤ key x := by
        rcases List.mem_cons.mp (h.perm.mem_iff.mp List.mem_cons_self) with rfl | hIn
        · exact le_refl _
        · exact hy x hIn
      have hKey : key y = key x := le_antisymm hyx hxy
      have hHead := h (key x)
      rw [List.filter_cons_of_pos (by simp), List.filter_cons_of_pos (by simpa using hKey)] at hHead
      obtain rfl : x = y := (List.cons.inj hHead).1
      rw [ih h.tail hxsRest hysRest]

end Ithax.Lib
