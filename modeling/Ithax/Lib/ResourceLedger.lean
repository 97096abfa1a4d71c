import Mathlib.Data.Set.Insert
import Mathlib.Data.List.Induction

/-!
# Resources that are created and destroyed

A history of what is done with resources: they are created, used and destroyed. A ledger of the
history names the resources that are alive. What was created and is not alive has been destroyed
once, and nothing is touched once it has been destroyed.

## Results

* `Ledger.use`, `Ledger.create`, `Ledger.destroy` — how the ledger goes on.
-/

namespace Ithax.Lib

/-- What is done with a resource. -/
inductive ResourceEvent (η : Type) where
  | creates (h : η)
  | uses (h : η)
  | destroys (h : η)
  deriving DecidableEq, Repr

/-- The event needs the resource to be there. -/
def ResourceEvent.Touches {η : Type} : ResourceEvent η → η → Prop
  | .creates _, _ => False
  | .uses h, h' | .destroys h, h' => h = h'

variable {η : Type} {history : List (ResourceEvent η)} {event : ResourceEvent η} {live : Set η}
  {h : η}

/-- Nothing is touched once it has been destroyed. -/
def TouchedAlive (history : List (ResourceEvent η)) : Prop :=
  ∀ before event after h, history = before ++ event :: after → event.Touches h →
    .destroys h ∉ before

/-- These resources are alive after the history. -/
structure Ledger [DecidableEq η] (history : List (ResourceEvent η)) (live : Set η) : Prop where
  alive : ∀ h ∈ live, .destroys h ∉ history
  ended : ∀ h, .creates h ∈ history → h ∉ live → history.count (.destroys h) = 1
  touched : TouchedAlive history

theorem touchedAlive_append_one (hTouched : TouchedAlive history)
    (hEvent : ∀ h, event.Touches h → .destroys h ∉ history) : TouchedAlive (history ++ [event]) := by
  intro before event' after h hSplit hTouches
  rcases List.eq_nil_or_concat after with rfl | ⟨after, last, rfl⟩
  · obtain ⟨rfl, hLast⟩ := List.append_inj' hSplit rfl
    cases hLast
    exact hEvent h hTouches
  · have hInit : history ++ [event] = (before ++ event' :: after) ++ [last] := by
      rw [hSplit, List.concat_eq_append, List.append_assoc]
      rfl
    obtain ⟨hHistory, -⟩ := List.append_inj' hInit rfl
    exact hTouched before event' after h hHistory hTouches

namespace Ledger

variable [DecidableEq η]

theorem nil : Ledger ([] : List (ResourceEvent η)) ∅ where
  alive := fun _ _ => List.not_mem_nil
  ended := fun _ hCreated => nomatch hCreated
  touched := fun before _ _ _ hSplit => by
    cases before <;> cases hSplit

/-- A resource that is alive is used. -/
theorem use (hLedger : Ledger history live) (hLive : h ∈ live) :
    Ledger (history ++ [.uses h]) live where
  alive := by
    intro other hOther hIn
    rcases List.mem_append.mp hIn with hOld | hNew
    · exact hLedger.alive other hOther hOld
    · cases List.mem_singleton.mp hNew
  ended := by
    intro other hCreated hNot
    rcases List.mem_append.mp hCreated with hOld | hNew
    · rw [List.count_append, hLedger.ended other hOld hNot]
      rfl
    · cases List.mem_singleton.mp hNew
  touched := by
    refine touchedAlive_append_one hLedger.touched fun other hTouches => ?_
    obtain rfl : h = other := hTouches
    exact hLedger.alive h hLive

/-- A resource that has not been destroyed before is created. -/
theorem create (hLedger : Ledger history live) (hNew : .destroys h ∉ history) :
    Ledger (history ++ [.creates h]) (insert h live) where
  alive := by
    intro other hOther hIn
    rcases List.mem_append.mp hIn with hOld | hLast
    · rcases hOther with rfl | hLive
      · exact hNew hOld
      · exact hLedger.alive other hLive hOld
    · cases List.mem_singleton.mp hLast
  ended := by
    intro other hCreated hNot
    rw [Set.mem_insert_iff, not_or] at hNot
    rcases List.mem_append.mp hCreated with hOld | hLast
    · rw [List.count_append, hLedger.ended other hOld hNot.2]
      rfl
    · cases List.mem_singleton.mp hLast
      exact absurd rfl hNot.1
  touched := touchedAlive_append_one hLedger.touched fun _ hNo => hNo.elim

/-- A resource that is alive is destroyed. -/
theorem destroy (hLedger : Ledger history live) (hLive : h ∈ live) :
    Ledger (history ++ [.destroys h]) (live \ {h}) where
  alive := by
    intro other hOther hIn
    rcases List.mem_append.mp hIn with hOld | hLast
    · exact hLedger.alive other hOther.1 hOld
    · cases List.mem_singleton.mp hLast
      exact hOther.2 rfl
  ended := by
    intro other hCreated hNot
    have hOld : .creates other ∈ history := by
      rcases List.mem_append.mp hCreated with hOld | hLast
      · exact hOld
      · cases List.mem_singleton.mp hLast
    rw [List.count_append]
    by_cases hSame : other = h
    · subst hSame
      rw [List.count_eq_zero.mpr (hLedger.alive other hLive), Nat.zero_add]
      exact List.count_singleton_self
    · have hDead : other ∉ live := fun hIn => hNot ⟨hIn, hSame⟩
      have hOther : List.count (.destroys other) [ResourceEvent.destroys h] = 0 :=
        List.count_eq_zero.mpr fun hIn => hSame (ResourceEvent.destroys.inj (List.mem_singleton.mp hIn))
      rw [hLedger.ended other hOld hDead, hOther]
  touched := by
    refine touchedAlive_append_one hLedger.touched fun other hTouches => ?_
    obtain rfl : h = other := hTouches
    exact hLedger.alive h hLive

end Ledger

end Ithax.Lib
