import Mathlib.Data.Fintype.Basic
import Mathlib.Data.Finset.Lattice.Fold

/-!
# Threads that come to rest

Some threads take turns on a state, in whatever order a schedule gives them. A turn uses
up some of a measure, or its thread waits and leaves the others as they were. If the
schedule comes back to every thread, they all wait from some turn on.

## Results

* `Winds.waits_of_recurs` — a thread that the schedule comes back to waits in the end.
* `Winds.comes_to_rest`   — under a fair schedule every thread does.
-/

namespace Ithax.Lib

variable {σ ε τ : Type}

/-- The state before turn `n`. -/
def scheduled (next : σ → ε → σ) (schedule : Nat → ε) (start : σ) : Nat → σ
  | 0 => start
  | n + 1 => next (scheduled next schedule start n) (schedule n)

/-- The turns after the first `n` are a schedule of their own. -/
theorem scheduled_add (next : σ → ε → σ) (schedule : Nat → ε) (start : σ) (n : Nat) : ∀ m,
    scheduled next schedule start (n + m) =
      scheduled next (fun m => schedule (n + m)) (scheduled next schedule start n) m
  | 0 => rfl
  | m + 1 => by
    rw [scheduled, ← scheduled_add next schedule start n m]
    rfl

/-- The schedule comes back to the thread. -/
def Recurs (thread : ε → τ) (schedule : Nat → ε) (t : τ) : Prop :=
  ∀ n, ∃ m, n ≤ m ∧ thread (schedule m) = t

/-- The schedule still comes back after the first turns. -/
theorem Recurs.later {thread : ε → τ} {schedule : Nat → ε} {t : τ}
    (h : Recurs thread schedule t) (n : Nat) : Recurs thread (fun m => schedule (n + m)) t := by
  intro k
  obtain ⟨m, hLater, hThread⟩ := h (n + k)
  refine ⟨m - n, by omega, ?_⟩
  have hSame : n + (m - n) = m := by omega
  show thread (schedule (n + (m - n))) = t
  rw [hSame]
  exact hThread

/-- The schedule comes back to every thread. -/
def Fair (thread : ε → τ) (schedule : Nat → ε) : Prop := ∀ t, Recurs thread schedule t

/-- Every turn uses up some of `work`, or its thread waits and no other stops waiting. -/
structure Winds (next : σ → ε → σ) (thread : ε → τ) (I : σ → Prop) (work : σ → Nat)
    (waits : σ → τ → Prop) : Prop where
  keeps : ∀ s e, I s → I (next s e)
  turn : ∀ s e, I s → work (next s e) < work s ∨
    waits s (thread e) ∧ work (next s e) = work s ∧ ∀ t, waits s t → waits (next s e) t

namespace Winds

variable {next : σ → ε → σ} {thread : ε → τ} {I : σ → Prop} {work : σ → Nat}
  {waits : σ → τ → Prop} {schedule : Nat → ε} {start : σ}

/-- The invariant holds before every turn. -/
theorem keeps_scheduled (h : Winds next thread I work waits) (hStart : I start) :
    ∀ n, I (scheduled next schedule start n)
  | 0 => hStart
  | n + 1 => h.keeps _ _ (h.keeps_scheduled hStart n)

/-- Work is only used up. -/
theorem work_antitone (h : Winds next thread I work waits) (hStart : I start) :
    Antitone fun n => work (scheduled next schedule start n) := by
  refine antitone_nat_of_succ_le fun n => ?_
  rcases h.turn _ (schedule n) (h.keeps_scheduled hStart n) with hLess | ⟨-, hSame, -⟩
  · exact Nat.le_of_lt hLess
  · exact Nat.le_of_eq hSame

/-- Some turn finds as little work as there ever will be. -/
theorem exists_least (work : σ → Nat) (states : Nat → σ) :
    ∃ n, ∀ m, work (states n) ≤ work (states m) := by
  obtain ⟨n, -, hLeast⟩ := WellFounded.has_min (measure fun n => work (states n)).wf Set.univ
    ⟨0, trivial⟩
  exact ⟨n, fun m => Nat.le_of_not_lt (hLeast m trivial)⟩

/-- While no work is used up, the thread whose turn it is waits, and whoever waits goes on. -/
theorem turn_of_least (h : Winds next thread I work waits) (hStart : I start) {n m : Nat}
    (hLeast : ∀ m, work (scheduled next schedule start n) ≤ work (scheduled next schedule start m))
    (hLater : n ≤ m) : waits (scheduled next schedule start m) (thread (schedule m)) ∧
      ∀ t, waits (scheduled next schedule start m) t →
        waits (scheduled next schedule start (m + 1)) t := by
  have hSpent : work (scheduled next schedule start m) ≤ work (scheduled next schedule start n) :=
    h.work_antitone hStart hLater
  have hNext := hLeast (m + 1)
  rw [scheduled] at hNext ⊢
  have hKept : I (scheduled next schedule start m) := h.keeps_scheduled hStart m
  rcases h.turn _ (schedule m) hKept with hLess | ⟨hWaits, -, hOthers⟩
  -- there is no less work than that, so no turn uses up any
  · omega
  · exact ⟨hWaits, hOthers⟩

/-- A thread that has its turns after the last that used up any work waits from there on. -/
theorem waits_of_recurs (h : Winds next thread I work waits) (hStart : I start) {t : τ}
    (hRecurs : Recurs thread schedule t) :
    ∃ n, ∀ m, n ≤ m → waits (scheduled next schedule start m) t := by
  obtain ⟨least, hLeast⟩ := exists_least work (scheduled next schedule start)
  obtain ⟨n, hLater, hThread⟩ := hRecurs least
  refine ⟨n, fun m hm => ?_⟩
  induction m, hm using Nat.le_induction with
  | base => exact hThread ▸ (h.turn_of_least hStart hLeast hLater).1
  | succ m hm ih => exact (h.turn_of_least hStart hLeast (hLater.trans hm)).2 t ih

/-- As many threads as one likes. -/
theorem rest_of_recurs (h : Winds next thread I work waits) (hStart : I start) (threads : Finset τ)
    (hRecurs : ∀ t ∈ threads, Recurs thread schedule t) :
    ∃ n, ∀ m, n ≤ m → ∀ t ∈ threads, waits (scheduled next schedule start m) t := by
  have hTurn : ∀ t, ∃ n, t ∈ threads →
      ∀ m, n ≤ m → waits (scheduled next schedule start m) t := by
    intro t
    -- each thread has a turn from which on it waits, and the latest of them will do for all
    by_cases hMem : t ∈ threads
    · obtain ⟨n, hn⟩ := h.waits_of_recurs hStart (hRecurs t hMem)
      exact ⟨n, fun _ => hn⟩
    · exact ⟨0, fun hNot => absurd hNot hMem⟩
  choose n hn using hTurn
  exact ⟨threads.sup n, fun m hm t hMem => hn t hMem m ((Finset.le_sup hMem).trans hm)⟩

/-- Under a fair schedule every thread waits in the end. -/
theorem comes_to_rest [Fintype τ] (h : Winds next thread I work waits) (hStart : I start)
    (hFair : Fair thread schedule) :
    ∃ n, ∀ m, n ≤ m → ∀ t, waits (scheduled next schedule start m) t := by
  obtain ⟨n, hn⟩ := h.rest_of_recurs hStart Finset.univ fun t _ => hFair t
  exact ⟨n, fun m hm t => hn m hm t (Finset.mem_univ t)⟩

end Winds

end Ithax.Lib
