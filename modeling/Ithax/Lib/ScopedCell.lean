import Mathlib.Data.List.Basic

/-!
# A cell with scopes

A cell can be set, and it has a stack: a push saves a part of what is in the cell, and a pop
puts that part back. A push and its pop make a scope, in which the cell can be set to
anything; after the scope the saved part is again what it was, and the rest is what the last
set has made it.

* `run_of_nested`    — what a run of nested scopes leaves, from inside some of them.
* `run_of_balanced`  — what it leaves from outside.
* `run_all_of_balanced` — where all of the cell is saved, scopes leave nothing.
-/

namespace Ithax.Lib.ScopedCell

/-- A part of a value that can be saved and put back. -/
structure Saving (β σ : Type) where
  save : β → σ
  restore : σ → β → β
  restore_save : ∀ b, restore (save b) b = b
  save_restore : ∀ saved b, save (restore saved b) = saved
  restore_restore : ∀ saved saved' b, restore saved (restore saved' b) = restore saved b

/-- All of a value. -/
def Saving.all (β : Type) : Saving β β where
  save b := b
  restore saved _ := saved
  restore_save _ := rfl
  save_restore _ _ := rfl
  restore_restore _ _ _ := rfl

inductive Op (β : Type) where
  | set (b : β)
  | push
  | pop
  deriving DecidableEq, Repr

structure Cell (β σ : Type) where
  bound : β
  stack : List σ
  deriving DecidableEq, Repr

variable {β σ : Type}

/-- A pop of an empty stack does nothing. -/
def Cell.step (saving : Saving β σ) (cell : Cell β σ) : Op β → Cell β σ
  | .set b => { cell with bound := b }
  | .push => { cell with stack := saving.save cell.bound :: cell.stack }
  | .pop =>
    match cell.stack with
    | [] => cell
    | saved :: rest => { bound := saving.restore saved cell.bound, stack := rest }

def Cell.run (saving : Saving β σ) (cell : Cell β σ) (ops : List (Op β)) : Cell β σ :=
  ops.foldl (Cell.step saving) cell

-- ---------------------------------------------------------------------------
-- Scopes
-- ---------------------------------------------------------------------------

/-- Every pop closes a scope, of those that are open at first or are opened, and in the end
all are closed. -/
def Nested : Nat → List (Op β) → Prop
  | opened, [] => opened = 0
  | opened, .set _ :: ops => Nested opened ops
  | opened, .push :: ops => Nested (opened + 1) ops
  | 0, .pop :: _ => False
  | opened + 1, .pop :: ops => Nested opened ops

instance decidableNested : ∀ (opened : Nat) (ops : List (Op β)), Decidable (Nested opened ops)
  | opened, [] => inferInstanceAs (Decidable (opened = 0))
  | opened, .set _ :: ops => decidableNested opened ops
  | opened, .push :: ops => decidableNested (opened + 1) ops
  | 0, .pop :: _ => isFalse id
  | opened + 1, .pop :: ops => decidableNested opened ops

/-- Each scope opened by `ops` is closed by them, and they close no other. -/
abbrev Balanced (ops : List (Op β)) : Prop := Nested 0 ops

/-- What the cell is set to. -/
def values : List (Op β) → List β
  | [] => []
  | .set b :: ops => b :: values ops
  | .push :: ops => values ops
  | .pop :: ops => values ops

/-- What the cell is set to outside every scope. -/
def outside : Nat → List (Op β) → List β
  | _, [] => []
  | 0, .set b :: ops => b :: outside 0 ops
  | opened + 1, .set _ :: ops => outside (opened + 1) ops
  | opened, .push :: ops => outside (opened + 1) ops
  | opened, .pop :: ops => outside (opened - 1) ops

-- ---------------------------------------------------------------------------
-- What scopes leave
-- ---------------------------------------------------------------------------

section Run

variable {saving : Saving β σ}

/-- The part that is saved comes from the last set outside every scope, or is the one that the
outermost of the open scopes has saved; the rest comes from the last set. -/
theorem run_of_nested (ops : List (Op β)) (opened base : List σ) (b : β)
    (h : Nested opened.length ops) : Cell.run saving ⟨b, opened ++ base⟩ ops =
      ⟨saving.restore (((outside opened.length ops).getLast?.map saving.save).getD
        (opened.getLast?.getD (saving.save b))) ((values ops).getLast?.getD b), base⟩ := by
  induction ops generalizing opened b with
  | nil =>
    have hClosed : opened = [] := List.length_eq_zero_iff.mp h
    subst hClosed
    simp [Cell.run, outside, values, saving.restore_save]
  | cons op ops ih =>
    show Cell.run saving (Cell.step saving ⟨b, opened ++ base⟩ op) ops = _
    cases op with
    | set b' =>
      have hRest := ih opened b' h
      show Cell.run saving ⟨b', opened ++ base⟩ ops = _
      rw [hRest]
      cases opened with
      | nil => simp [outside, values, List.getLast?_cons]
      | cons saved opened => simp [outside, values, List.getLast?_cons]
    | push =>
      have hRest := ih (saving.save b :: opened) b h
      show Cell.run saving ⟨b, (saving.save b :: opened) ++ base⟩ ops = _
      rw [hRest]
      simp [outside, values, List.getLast?_cons]
    | pop =>
      cases opened with
      | nil => exact h.elim
      | cons saved opened =>
        have hRest := ih opened (saving.restore saved b) h
        show Cell.run saving ⟨saving.restore saved b, opened ++ base⟩ ops = _
        rw [hRest]
        -- what the pop leaves of the cell beside the saved part is not changed by it
        have hLast : ∀ part, saving.restore part
            ((values ops).getLast?.getD (saving.restore saved b)) =
              saving.restore part ((values ops).getLast?.getD b) := by
          intro part
          cases (values ops).getLast? with
          | none => exact saving.restore_restore part saved b
          | some last => rfl
        rw [hLast]
        simp [outside, values, List.getLast?_cons, saving.save_restore]

theorem run_of_balanced {ops : List (Op β)} (h : Balanced ops) (cell : Cell β σ) :
    Cell.run saving cell ops =
      ⟨saving.restore (((outside 0 ops).getLast?.map saving.save).getD (saving.save cell.bound))
        ((values ops).getLast?.getD cell.bound), cell.stack⟩ :=
  run_of_nested ops [] cell.stack cell.bound h

/-- Where all of the cell is saved, a run that sets it inside of scopes only leaves it. -/
theorem run_all_of_balanced {ops : List (Op β)} (h : Balanced ops) (hInside : outside 0 ops = [])
    (cell : Cell β β) : Cell.run (Saving.all β) cell ops = cell := by
  rw [run_of_balanced h, hInside]
  rfl

end Run

end Ithax.Lib.ScopedCell
