import Mathlib.Data.List.Basic
import Mathlib.Data.Nat.ModEq

/-!
# Ring buffers

A queue of bounded length in a fixed row of cells, with the place of the first item,
the place for the next one and the number of items.

## Results

* `RingBuffer.Holds.push`  — an item goes to the end of the queue.
* `RingBuffer.Holds.pop`   — the first item leaves it.
-/

namespace Ithax.Lib

/-- The cells, where the first item is, and how many there are. -/
structure RingBuffer (α : Type) where
  cells : List α
  head : Nat := 0
  tail : Nat := 0
  size : Nat := 0
  deriving DecidableEq, Repr

namespace RingBuffer

variable {α : Type} {r : RingBuffer α} {items rest : List α} {x : α}

/-- An item goes behind the last. -/
def push (r : RingBuffer α) (x : α) : RingBuffer α :=
  { r with
    cells := r.cells.set r.tail x
    tail := (r.tail + 1) % r.cells.length
    size := r.size + 1 }

/-- The first item. -/
def front (r : RingBuffer α) : Option α := r.cells[r.head]?

/-- The first item is taken. -/
def pop (r : RingBuffer α) : RingBuffer α :=
  { r with head := (r.head + 1) % r.cells.length, size := r.size - 1 }

/-- The ring is the queue `items`: they stand in its cells from the head on, around the
end if need be. -/
structure Holds (r : RingBuffer α) (items : List α) : Prop where
  head : r.head < r.cells.length
  tail : r.tail = (r.head + r.size) % r.cells.length
  size : r.size = items.length
  room : r.size ≤ r.cells.length
  stored : ∀ i < r.size, r.cells[(r.head + i) % r.cells.length]? = items[i]?

/-- A buffer with cells and without items. -/
theorem holds_nil {cells : List α} (h : cells ≠ []) : Holds { cells } [] := by
  have hPos : 0 < cells.length := List.length_pos_iff.mpr h
  exact ⟨hPos, (Nat.zero_mod _).symm, rfl, Nat.zero_le _, fun i hi => absurd hi (Nat.not_lt_zero i)⟩

/-- Two of the places that follow each other around the ring are different. -/
theorem mod_ne_of_lt {n head i j : Nat} (hij : i < j) (hj : j < i + n) :
    (head + i) % n ≠ (head + j) % n := by
  intro hEq
  have hMod : head + i ≡ head + j [MOD n] := hEq
  have hDvd : n ∣ j - i := by
    have hCancel := Nat.ModEq.add_left_cancel' head hMod
    exact (Nat.modEq_iff_dvd' (Nat.le_of_lt hij)).mp hCancel
  have hLe := Nat.le_of_dvd (Nat.sub_pos_of_lt hij) hDvd
  omega

/-- An item goes to the end of the queue. -/
theorem Holds.push (h : r.Holds items) (hRoom : r.size < r.cells.length) (x : α) :
    (r.push x).Holds (items ++ [x]) := by
  have hPos : 0 < r.cells.length := Nat.lt_of_le_of_lt (Nat.zero_le _) hRoom
  have hTail : r.tail < r.cells.length := by
    rw [h.tail]
    exact Nat.mod_lt _ hPos
  refine ⟨?_, ?_, ?_, ?_, fun i hi => ?_⟩
  · rw [RingBuffer.push, List.length_set]
    exact h.head
  · show (r.tail + 1) % r.cells.length = (r.head + (r.size + 1)) % (r.cells.set r.tail x).length
    rw [List.length_set, h.tail, Nat.mod_add_mod, Nat.add_assoc]
  · rw [RingBuffer.push, List.length_append, h.size]
    rfl
  · rw [RingBuffer.push, List.length_set]
    exact hRoom
  · show (r.cells.set r.tail x)[(r.head + i) % (r.cells.set r.tail x).length]? = _
    rw [List.length_set]
    rcases Nat.lt_or_eq_of_le (Nat.le_of_lt_succ hi) with hOld | rfl
    · have hOther : r.tail ≠ (r.head + i) % r.cells.length := by
        rw [h.tail]
        exact (mod_ne_of_lt hOld (by omega)).symm
      rw [List.getElem?_set_ne hOther, h.stored i hOld,
        List.getElem?_append_left (h.size ▸ hOld)]
    · rw [← h.tail, List.getElem?_set_self hTail, h.size, List.getElem?_concat_length]

/-- The first item leaves the queue. -/
theorem Holds.pop (h : r.Holds (x :: rest)) : r.front = some x ∧ r.pop.Holds rest := by
  have hSize : r.size = rest.length + 1 := h.size
  have hPos : 0 < r.cells.length := Nat.lt_of_le_of_lt (Nat.zero_le _) h.head
  have hFirst := h.stored 0 (hSize ▸ Nat.succ_pos _)
  rw [Nat.add_zero, Nat.mod_eq_of_lt h.head] at hFirst
  refine ⟨hFirst, Nat.mod_lt _ hPos, ?_, ?_, ?_, fun i hi => ?_⟩
  · show r.tail = ((r.head + 1) % r.cells.length + (r.size - 1)) % r.cells.length
    rw [h.tail, Nat.mod_add_mod, hSize, Nat.add_sub_cancel, Nat.add_assoc, Nat.add_comm 1]
  · show r.size - 1 = rest.length
    rw [hSize, Nat.add_sub_cancel]
  · exact Nat.le_trans (Nat.sub_le _ _) h.room
  · show r.cells[((r.head + 1) % r.cells.length + i) % r.cells.length]? = _
    have hNext := h.stored (i + 1) (by
      have hLt : i < r.size - 1 := hi
      omega)
    rw [Nat.mod_add_mod, Nat.add_assoc, Nat.add_comm 1, hNext]
    rfl

/-- The size is that of the list. -/
theorem Holds.size_eq_zero_iff (h : r.Holds items) : r.size = 0 ↔ items = [] := by
  rw [h.size, List.length_eq_zero_iff]

end RingBuffer

end Ithax.Lib
