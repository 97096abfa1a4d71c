import Mathlib.Logic.Function.Iterate
import Mathlib.Data.List.Basic

/-!
# Retry loops

A loop that tries until an attempt succeeds or a count of failures tells it to stop. What
the attempts find is a chain of states; how long it gets is told by the first attempt that
succeeds and the first count that stops.

* `length_attempts_le` — the loop ends where an attempt succeeds or the count stops;
* `length_attempts_eq` — it goes on as long as neither happens.
-/

namespace Ithax.Lib

/-- Which attempts fail, what a failed one leaves, and whether the loop stops after the
failure of the attempt of a number. -/
structure Retry (σ : Type) where
  fails : σ → Bool
  after : σ → σ
  stops : Nat → Bool

namespace Retry

variable {σ : Type} (r : Retry σ)

/-- Whether another attempt follows the one of number `k` on `s`. -/
def goesOn (k : Nat) (s : σ) : Bool := r.fails s && !r.stops k

/-- The states that the attempts find, in some rounds of the loop from number `k` on. -/
def attempts : Nat → Nat → σ → List σ
  | 0, _, _ => []
  | rounds + 1, k, s => s :: if r.goesOn k s then attempts rounds (k + 1) (r.after s) else []

variable {r} {rounds k n : Nat} {s : σ}

@[simp] theorem attempts_zero : r.attempts 0 k s = [] := rfl

theorem attempts_succ_of_goesOn (h : r.goesOn k s = true) :
    r.attempts (rounds + 1) k s = s :: r.attempts rounds (k + 1) (r.after s) := by
  simp [attempts, h]

theorem attempts_succ_of_ends (h : r.goesOn k s = false) : r.attempts (rounds + 1) k s = [s] := by
  simp [attempts, h]

/-- By induction on the number of the attempt after which the loop does not go on. -/
theorem length_attempts_le (rounds : Nat) (h : r.goesOn (k + n) (r.after^[n] s) = false) :
    (r.attempts rounds k s).length ≤ n + 1 := by
  induction n generalizing rounds k s with
  | zero =>
    cases rounds with
    | zero => simp
    | succ rounds => simp [attempts_succ_of_ends (show r.goesOn k s = false from h)]
  | succ n ih =>
    cases rounds with
    | zero => simp
    | succ rounds =>
      by_cases hGoes : r.goesOn k s = true
      · have hNext : r.goesOn (k + 1 + n) (r.after^[n] (r.after s)) = false := by
          rw [← Function.iterate_succ_apply, Nat.add_assoc, Nat.add_comm 1 n]
          exact h
        have hRest := ih rounds hNext
        rw [attempts_succ_of_goesOn hGoes, List.length_cons]
        omega
      · rw [attempts_succ_of_ends (Bool.not_eq_true _ ▸ hGoes)]
        simp

/-- By induction on the rounds: none of the attempts before the last ends the loop. -/
theorem length_attempts_eq (h : ∀ j < n, r.goesOn (k + j) (r.after^[j] s) = true) :
    (r.attempts (n + 1) k s).length = n + 1 := by
  induction n generalizing k s with
  | zero =>
    unfold attempts
    split <;> simp
  | succ n ih =>
    have hFirst : r.goesOn k s = true := h 0 (by omega)
    have hRest : ∀ j < n, r.goesOn (k + 1 + j) (r.after^[j] (r.after s)) = true := by
      intro j hj
      have hLater := h (j + 1) (by omega)
      rw [Function.iterate_succ_apply] at hLater
      rwa [Nat.add_assoc, Nat.add_comm 1 j]
    rw [attempts_succ_of_goesOn hFirst, List.length_cons, ih hRest]

/-- An attempt finds what the failed ones before it have left. -/
theorem attempt_eq {before later : List σ} {a : σ}
    (h : r.attempts rounds k s = before ++ a :: later) : a = r.after^[before.length] s := by
  induction before generalizing rounds k s with
  | nil =>
    cases rounds with
    | zero => simp at h
    | succ rounds =>
      simp only [attempts, List.nil_append, List.cons.injEq] at h
      exact h.1.symm
  | cons b before ih =>
    cases rounds with
    | zero => simp at h
    | succ rounds =>
      by_cases hGoes : r.goesOn k s = true
      · rw [attempts_succ_of_goesOn hGoes, List.cons_append, List.cons.injEq] at h
        rw [List.length_cons, Function.iterate_succ_apply]
        exact ih h.2
      · rw [attempts_succ_of_ends (Bool.not_eq_true _ ▸ hGoes)] at h
        simp at h

theorem mem_attempts_of_lt (h : n < (r.attempts rounds k s).length) :
    r.after^[n] s ∈ r.attempts rounds k s := by
  have hSplit : r.attempts rounds k s = (r.attempts rounds k s).take n ++
      (r.attempts rounds k s)[n] :: (r.attempts rounds k s).drop (n + 1) := by simp
  have hHere := attempt_eq hSplit
  have hCount : ((r.attempts rounds k s).take n).length = n := by
    rw [List.length_take]
    omega
  rw [hCount] at hHere
  rw [← hHere]
  exact List.getElem_mem h

/-- When everything fails, the loop ends by its count or not at all. -/
theorem stops_or_length_eq (hFails : ∀ a ∈ r.attempts (rounds + 1) k s, r.fails a = true) :
    r.stops (k + (r.attempts (rounds + 1) k s).length - 1) = true ∨
      (r.attempts (rounds + 1) k s).length = rounds + 1 := by
  induction rounds generalizing k s with
  | zero =>
    right
    unfold attempts
    split <;> simp
  | succ rounds ih =>
    by_cases hGoes : r.goesOn k s = true
    · rw [attempts_succ_of_goesOn hGoes] at hFails ⊢
      have hRest := ih fun a ha => hFails a (List.mem_cons_of_mem _ ha)
      rw [List.length_cons]
      obtain hStops | hLength := hRest
      · left
        rwa [Nat.add_assoc, Nat.add_comm 1] at hStops
      · right
        omega
    · have hEnds : r.goesOn k s = false := by simpa using hGoes
      rw [attempts_succ_of_ends hEnds] at hFails ⊢
      have hFail := hFails s (by simp)
      left
      simpa [goesOn, hFail] using hEnds

end Retry

end Ithax.Lib
