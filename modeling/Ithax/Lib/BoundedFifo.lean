import Mathlib.Data.List.Basic

/-!
# Bounded queues

A queue of at most `capacity` items that can be closed, with the items that have been
taken from it. What was accepted is what was taken followed by what is still there.

## Results

* `BoundedFifo.accepted_put`, `BoundedFifo.accepted_take`  — what is accepted by an operation.
* `BoundedFifo.taken_of_ended`                             — the end of a closed queue.
* `FifoStep.of_closed`                                     — nothing is accepted after that.
-/

namespace Ithax.Lib

/-- The items of the queue, and those that have been taken from it. -/
structure BoundedFifo (α : Type) where
  capacity : Nat
  closed : Bool := false
  taken : List α := []
  items : List α := []
  room : items.length ≤ capacity

/-- What becomes of an item that is offered. -/
inductive PutResult where
  | accepted | full | closed
  deriving DecidableEq, Repr

/-- What a look at the front of the queue finds. -/
inductive TakeResult (α : Type) where
  | item (x : α)
  | empty
  | ended
  deriving DecidableEq, Repr

namespace BoundedFifo

variable {α : Type}

/-- An empty queue. -/
def new (capacity : Nat) : BoundedFifo α := { capacity, room := Nat.zero_le _ }

/-- All that the queue ever let in. -/
def accepted (q : BoundedFifo α) : List α := q.taken ++ q.items

/-- What `put` answers. -/
def putResult (q : BoundedFifo α) : PutResult :=
  if q.closed then .closed else if q.items.length < q.capacity then .accepted else .full

/-- The queue after `x` was offered. -/
def put (q : BoundedFifo α) (x : α) : BoundedFifo α :=
  if h : q.closed = false ∧ q.items.length < q.capacity then
    { q with
      items := q.items ++ [x]
      room := by
        rw [List.length_append]
        exact h.2 }
  else q

/-- What `take` answers. -/
def takeResult (q : BoundedFifo α) : TakeResult α :=
  match q.items with
  | x :: _ => .item x
  | [] => if q.closed then .ended else .empty

/-- The queue after its first item, if there is one, was taken. -/
def take (q : BoundedFifo α) : BoundedFifo α :=
  { q with
    taken := q.taken ++ q.items.take 1
    items := q.items.drop 1
    room := Nat.le_trans (List.drop_sublist 1 q.items).length_le q.room }

/-- No more items; those that are there can be taken. -/
def close (q : BoundedFifo α) : BoundedFifo α := { q with closed := true }

variable {q : BoundedFifo α} {x : α}

/-- Items are taken in the order in which they were accepted. -/
theorem taken_prefix (q : BoundedFifo α) : q.taken <+: q.accepted := List.prefix_append _ _

/-- An open queue with room accepts. -/
theorem putResult_eq_accepted (hOpen : q.closed = false)
    (hRoom : q.items.length < q.capacity) : q.putResult = .accepted := by
  simp [putResult, hOpen, hRoom]

/-- An open queue without room is full. -/
theorem putResult_eq_full (hOpen : q.closed = false)
    (hFull : ¬q.items.length < q.capacity) : q.putResult = .full := by
  simp [putResult, hOpen, hFull]

/-- A closed queue refuses. -/
theorem putResult_eq_closed (hClosed : q.closed = true) : q.putResult = .closed := by
  simp [putResult, hClosed]

/-- Exactly then does a queue accept. -/
theorem putResult_eq_accepted_iff :
    q.putResult = .accepted ↔ q.closed = false ∧ q.items.length < q.capacity := by
  refine ⟨fun h => ?_, fun ⟨hOpen, hRoom⟩ => putResult_eq_accepted hOpen hRoom⟩
  unfold putResult at h
  split at h
  · cases h
  · rename_i hOpen
    split at h
    · rename_i hRoom
      exact ⟨by simpa using hOpen, hRoom⟩
    · cases h

/-- An accepted item comes last. -/
theorem items_put (hOpen : q.closed = false) (hRoom : q.items.length < q.capacity) :
    (q.put x).items = q.items ++ [x] := by
  rw [put, dif_pos ⟨hOpen, hRoom⟩]

/-- An offer that is refused changes nothing. -/
theorem put_refused (h : ¬(q.closed = false ∧ q.items.length < q.capacity)) : q.put x = q := by
  rw [put, dif_neg h]

@[simp] theorem capacity_put : (q.put x).capacity = q.capacity := by
  unfold put
  split <;> rfl

@[simp] theorem closed_put : (q.put x).closed = q.closed := by
  unfold put
  split <;> rfl

@[simp] theorem taken_put : (q.put x).taken = q.taken := by
  unfold put
  split <;> rfl

/-- An accepted item is accepted after all others. -/
theorem accepted_put (hOpen : q.closed = false) (hRoom : q.items.length < q.capacity) :
    (q.put x).accepted = q.accepted ++ [x] := by
  rw [accepted, items_put hOpen hRoom, taken_put, ← List.append_assoc]
  rfl

/-- Taking an item does not change what was accepted. -/
@[simp] theorem accepted_take : q.take.accepted = q.accepted := by
  rw [accepted, accepted, take, List.append_assoc, List.take_append_drop]

/-- A queue has ended when it is closed and everything it accepted has been taken. -/
theorem taken_of_ended (h : q.takeResult = .ended) : q.closed = true ∧ q.taken = q.accepted := by
  unfold takeResult at h
  split at h
  · cases h
  · rename_i hItems
    split at h
    · rename_i hClosed
      rw [accepted, hItems, List.append_nil]
      exact ⟨hClosed, rfl⟩
    · cases h

end BoundedFifo

/-- One operation on a queue. -/
inductive FifoStep {α : Type} (q : BoundedFifo α) : BoundedFifo α → Prop where
  | put (x : α) : FifoStep q (q.put x)
  | take : FifoStep q q.take
  | close : FifoStep q q.close

namespace FifoStep

variable {α : Type} {q q' : BoundedFifo α}

/-- No operation changes the capacity. -/
theorem capacity (h : FifoStep q q') : q'.capacity = q.capacity := by
  cases h with
  | put x => exact BoundedFifo.capacity_put
  | take => rfl
  | close => rfl

/-- A closed queue stays closed and accepts nothing. -/
theorem of_closed (h : FifoStep q q') (hClosed : q.closed = true) :
    q'.closed = true ∧ q'.accepted = q.accepted := by
  cases h with
  | put x =>
    rw [BoundedFifo.put_refused (by simp [hClosed])]
    exact ⟨hClosed, rfl⟩
  | take => exact ⟨hClosed, BoundedFifo.accepted_take⟩
  | close => exact ⟨rfl, rfl⟩

end FifoStep

end Ithax.Lib
