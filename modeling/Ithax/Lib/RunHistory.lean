import Ithax.Lib.KeyedRun
import Mathlib.Data.List.Induction

/-!
# The history of a flag

Some steps of a run set a flag and some clear it. At the end of the run the flag is up exactly
when a step has set it that no step has cleared since.

What is to hold before every step of a run can be checked while the run is made.

## Results

* `invariant_along` — what each step keeps holds all along a run.
* `flag_iff_since`  — a flag at the end of a run.
* `checkAlong_iff`  — a check before every step.
-/

namespace Ithax.Lib

variable {β ε : Type}

/-- No step of the run is one of `q`. -/
def Never (step : β → ε → Option β) (q : β → ε → Prop) (start : β) (events : List ε) : Prop :=
  ∀ before e after b, events = before ++ e :: after → runEvents step start before = some b → ¬q b e

/-- A step of `p`, and none of `q` since. -/
def Since (step : β → ε → Option β) (p q : β → ε → Prop) (start : β) (events : List ε) : Prop :=
  ∃ before e after b mid, events = before ++ e :: after ∧ runEvents step start before = some b ∧
    step b e = some mid ∧ p b e ∧ Never step q mid after

section History

variable {step : β → ε → Option β} {p q : β → ε → Prop} {b mid final : β} {e : ε}
  {events : List ε}

/-- What holds at first and survives each step of the run holds all along it. -/
theorem invariant_along {I : β → Prop} (hFirst : I b)
    (hStep : ∀ before e after mid next, events = before ++ e :: after →
      runEvents step b before = some mid → step mid e = some next → I mid → I next) :
    ∀ before after, events = before ++ after → ∀ final, runEvents step b before = some final →
      I final := by
  intro before
  induction before using List.reverseRecOn with
  | nil =>
    intro after hSplit final hRun
    cases hRun
    exact hFirst
  | append_singleton before e ih =>
    intro after hSplit final hRun
    obtain ⟨mid, hBefore, hLast⟩ := runEvents_append_eq_some.mp hRun
    obtain ⟨next, hOne, hEnd⟩ := runEvents_cons_eq_some.mp hLast
    cases hEnd
    have hHere : events = before ++ e :: after := by
      rw [hSplit, List.append_assoc]
      rfl
    exact hStep before e after mid _ hHere hBefore hOne (ih (e :: after) hHere mid hBefore)

/-- Nothing happens in an empty run. -/
theorem never_nil : Never step q b [] := by
  intro before e after b' hSplit
  cases before <;> cases hSplit

/-- Nothing has been set in an empty run. -/
theorem not_since_nil : ¬Since step p q b [] := by
  rintro ⟨before, e, after, b', mid, hSplit, -⟩
  cases before <;> cases hSplit

/-- The first step of a run that never does `q`, and the others. -/
theorem never_cons_iff (hStep : step b e = some mid) :
    Never step q b (e :: events) ↔ ¬q b e ∧ Never step q mid events := by
  constructor
  · intro hNever
    refine ⟨hNever [] e events b rfl rfl, ?_⟩
    intro before e' after b' hSplit hRun
    refine hNever (e :: before) e' after b' (congrArg (e :: ·) hSplit) ?_
    exact runEvents_cons_eq_some.mpr ⟨mid, hStep, hRun⟩
  · rintro ⟨hFirst, hRest⟩ before e' after b' hSplit hRun
    cases before with
    | nil =>
      cases hSplit
      cases hRun
      exact hFirst
    | cons first before =>
      cases hSplit
      obtain ⟨mid', hStep', hRun⟩ := runEvents_cons_eq_some.mp hRun
      cases hStep.symm.trans hStep'
      exact hRest before e' after b' rfl hRun

/-- The flag was set by the first step, or later. -/
theorem since_cons_iff (hStep : step b e = some mid) :
    Since step p q b (e :: events) ↔
      (p b e ∧ Never step q mid events) ∨ Since step p q mid events := by
  constructor
  · rintro ⟨before, e', after, b', mid', hSplit, hRun, hOne, hSets, hNever⟩
    cases before with
    | nil =>
      cases hSplit
      cases hRun
      cases hStep.symm.trans hOne
      exact .inl ⟨hSets, hNever⟩
    | cons first before =>
      cases hSplit
      obtain ⟨next, hStep', hRun⟩ := runEvents_cons_eq_some.mp hRun
      cases hStep.symm.trans hStep'
      exact .inr ⟨before, e', after, b', mid', rfl, hRun, hOne, hSets, hNever⟩
  · rintro (⟨hSets, hNever⟩ | ⟨before, e', after, b', mid', hSplit, hRun, hOne, hSets, hNever⟩)
    · exact ⟨[], e, events, b, mid, rfl, rfl, hStep, hSets, hNever⟩
    · refine ⟨e :: before, e', after, b', mid', congrArg (e :: ·) hSplit, ?_, hOne, hSets, hNever⟩
      exact runEvents_cons_eq_some.mpr ⟨mid, hStep, hRun⟩

/-- A flag that `p` sets and `q` clears is up after a run exactly when it was set and not
cleared since, or was up all the time. -/
theorem flag_iff_since {flag : β → Prop}
    (hFlag : ∀ {b e next}, step b e = some next → (flag next ↔ p b e ∨ flag b ∧ ¬q b e))
    (hRun : runEvents step b events = some final) :
    flag final ↔ Since step p q b events ∨ flag b ∧ Never step q b events := by
  induction events generalizing b with
  | nil =>
    cases hRun
    exact ⟨fun hUp => .inr ⟨hUp, never_nil⟩, fun h => h.elim (fun hNo => (not_since_nil hNo).elim)
      fun hUp => hUp.1⟩
  | cons e events ih =>
    obtain ⟨mid, hStep, hRest⟩ := runEvents_cons_eq_some.mp hRun
    rw [ih hRest, hFlag hStep, since_cons_iff hStep, never_cons_iff hStep]
    tauto

end History

-- ---------------------------------------------------------------------------
-- Checking a run
-- ---------------------------------------------------------------------------

/-- Makes a run, and checks every event against the state that it comes to. -/
def checkAlong (step : β → ε → Option β) (check : β → ε → Bool) : β → List ε → Bool
  | _, [] => true
  | b, e :: events => check b e && (step b e).all fun next => checkAlong step check next events

/-- The check is for every state of the run and the event that comes next. -/
theorem checkAlong_iff {step : β → ε → Option β} {check : β → ε → Bool} {events : List ε} {b : β} :
    checkAlong step check b events = true ↔
      ∀ before e after mid, events = before ++ e :: after → runEvents step b before = some mid →
        check mid e = true := by
  induction events generalizing b with
  | nil =>
    refine iff_of_true rfl fun before e after mid hSplit => ?_
    cases before <;> cases hSplit
  | cons first events ih =>
    rw [checkAlong, Bool.and_eq_true, Option.all_eq_true]
    constructor
    · rintro ⟨hFirst, hRest⟩ before e after mid hSplit hRun
      cases before with
      | nil =>
        cases hSplit
        cases hRun
        exact hFirst
      | cons first' before =>
        cases hSplit
        obtain ⟨next, hStep, hRun⟩ := runEvents_cons_eq_some.mp hRun
        exact ih.mp (hRest next hStep) before e after mid rfl hRun
    · intro hAll
      refine ⟨hAll [] first events b rfl rfl, fun next hStep => ih.mpr ?_⟩
      intro before e after mid hSplit hRun
      refine hAll (first :: before) e after mid (congrArg (first :: ·) hSplit) ?_
      exact runEvents_cons_eq_some.mpr ⟨next, hStep, hRun⟩

end Ithax.Lib
