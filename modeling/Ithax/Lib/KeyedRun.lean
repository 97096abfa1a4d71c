import Mathlib.Data.List.Basic
import Mathlib.Logic.Function.Basic

/-!
# Runs over independent cells

A state of cells, and events that each concern one cell. A run over the whole state
gets through exactly when, for every cell, the events of that cell do on their own.
-/

namespace Ithax.Lib

variable {κ β ε : Type}

/-- A run: every event in turn, `none` as soon as one is refused. -/
def runEvents (step : β → ε → Option β) (start : β) (events : List ε) : Option β :=
  events.foldlM step start

section Run

variable {step : β → ε → Option β}

/-- No events. -/
@[simp] theorem runEvents_nil (b : β) : runEvents step b [] = some b := rfl

/-- One event, and the rest. -/
theorem runEvents_cons_eq_some {b final : β} {e : ε} {events : List ε} :
    runEvents step b (e :: events) = some final ↔
      ∃ mid, step b e = some mid ∧ runEvents step mid events = some final := by
  unfold runEvents
  rw [List.foldlM_cons]
  exact Option.bind_eq_some_iff

/-- Events, and then others. -/
theorem runEvents_append_eq_some {b final : β} {first second : List ε} :
    runEvents step b (first ++ second) = some final ↔
      ∃ mid, runEvents step b first = some mid ∧ runEvents step mid second = some final := by
  unfold runEvents
  rw [List.foldlM_append]
  exact Option.bind_eq_some_iff

/-- What a run does to a part of the state, where every event acts on it or leaves it. -/
theorem view_of_runEvents {γ δ : Type} (view : β → γ) (project : ε → Option δ) {act : γ → δ → γ}
    (hStep : ∀ {b e next}, step b e = some next →
      view next = (project e).elim (view b) (act (view b))) :
    ∀ {events : List ε} {b final : β}, runEvents step b events = some final →
      view final = (events.filterMap project).foldl act (view b)
  | [], b, final, hRun => by
    cases hRun
    rfl
  | e :: events, b, final, hRun => by
    obtain ⟨mid, hOne, hRest⟩ := runEvents_cons_eq_some.mp hRun
    have ih := view_of_runEvents view project hStep hRest
    rw [ih, hStep hOne]
    cases hProject : project e with
    | none => rw [List.filterMap_cons_none hProject, Option.elim_none]
    | some op => rw [List.filterMap_cons_some hProject, Option.elim_some, List.foldl_cons]

end Run

variable [DecidableEq κ]

/-- One event on the cell it concerns. -/
def stepAt (key : ε → κ) (step : β → ε → Option β) (state : κ → β) (e : ε) : Option (κ → β) :=
  (step (state (key e)) e).map (Function.update state (key e))

/-- A run over many objects is a run for each of them, over its own events. -/
theorem runEvents_stepAt_eq_some {key : ε → κ} {step : β → ε → Option β} :
    ∀ {events : List ε} {state final : κ → β},
    runEvents (stepAt key step) state events = some final ↔
      ∀ k, runEvents step (state k) (events.filter fun e => key e = k) = some (final k)
  | [], state, final => by
    simp [funext_iff]
  | e :: events, state, final => by
    rw [runEvents_cons_eq_some]
    constructor
    · rintro ⟨mid, hStep, hRest⟩ k
      obtain ⟨b, hOne, rfl⟩ := Option.map_eq_some_iff.mp hStep
      have ih := runEvents_stepAt_eq_some.mp hRest k
      by_cases hk : key e = k
      · subst hk
        rw [Function.update_self] at ih
        rw [List.filter_cons_of_pos (by simp)]
        exact runEvents_cons_eq_some.mpr ⟨b, hOne, ih⟩
      · rw [Function.update_of_ne (Ne.symm hk)] at ih
        rw [List.filter_cons_of_neg (by simpa using hk)]
        exact ih
    · intro hAll
      have hOwn := hAll (key e)
      rw [List.filter_cons_of_pos (by simp)] at hOwn
      obtain ⟨b, hOne, hRest⟩ := runEvents_cons_eq_some.mp hOwn
      refine ⟨Function.update state (key e) b, by rw [stepAt, hOne]; rfl, ?_⟩
      refine runEvents_stepAt_eq_some.mpr fun k => ?_
      by_cases hk : key e = k
      · subst hk
        rw [Function.update_self]
        exact hRest
      · have hOther := hAll k
        rw [List.filter_cons_of_neg (by simpa using hk)] at hOther
        rw [Function.update_of_ne (Ne.symm hk)]
        exact hOther

end Ithax.Lib
