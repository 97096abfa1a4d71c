import Ithax.Lib.FairTurns
import Ithax.Runtime.Lifecycle
import Mathlib.Data.Nat.Pairing

/-!
# Calls that come back

`Drain` waits for the jobs, and then for the calls of `Wait` that have taken a task. Once it is
past its first section nobody can take another, so under a scheduler that comes back to every
call it returns, whatever else is called in the meantime.

## Results

* `Controlled.onward`   — a call that goes on has fewer sections left.
* `winds_closing`       — the calls of a supervisor that is closing come to rest.
* `calls_return_of_run` — every call that has begun comes back.
-/

namespace Ithax.Runtime

open Ithax.Lib

namespace Call

/-- The call has come back. -/
def returned : Call → Bool
  | waitDone _ | reportDone | drainDone => true
  | _ => false

/-- The call is one of `Drain`. -/
def isDrain : Call → Bool
  | drainEntered | drainDone => true
  | call => call.pastEntry

/-- The sections that are left, at most. -/
def sections : Call → Nat
  | waiting _ => 4
  | waitFailed _ => 3
  | waitRecorded _ => 2
  | releasing _ => 1
  | reportRecorded _ => 1
  | drainEntered => 3 * MAX_PENDING_RUNTIME_TASKS + 7
  | drainConsuming tasks => 3 * tasks.length + 6
  | drainFailed _ tasks => 3 * tasks.length + 8
  | drainRecorded tasks => 3 * tasks.length + 7
  | drainJobs => 5
  | drainJobsWaiting => 4
  | drainJobsFailed _ => 3
  | drainJobsRecorded => 2
  | drainFinishing => 1
  | waitDone _ | reportDone | drainDone | drainThrew _ => 0

/-- A `Drain` that has returned. -/
theorem eq_drainDone {call : Call} (hReturned : call.returned = true)
    (hDrain : call.isDrain = true) : call = .drainDone := by
  cases call with
  | drainDone => rfl
  | waitDone | reportDone => cases hDrain
  | _ => cases hReturned

/-- The call has gone on by a section. -/
structure Onward (call next : Call) : Prop where
  less : next.sections < call.sections
  isDrain : next.isDrain = call.isDrain
  consumers : next.consumers ≤ call.consumers
  whole : ∀ e, next ≠ .drainThrew e

end Call

/-- The call that goes on. -/
def Action.call : Action → Option Nat
  | advance i _ => some i
  | _ => none

namespace System

variable {s s' : System} {i : Nat} {call : Call} {result : Option Nat}

-- ---------------------------------------------------------------------------
-- One section
-- ---------------------------------------------------------------------------

/-- A record changes one call only. -/
theorem calls_record {failure : RuntimeFailure} {next : Call} {threw : Exn → System}
    (hOpen : s.supervisor.state ≠ .stopped) :
    (s.record i failure next threw).calls = s.calls.set i next := by
  unfold record
  rw [Supervisor.recordFailure_of_open hOpen]

/-- So does a task that is run. -/
theorem calls_consume (s : System) (i : Nat) (task : PendingTask) (result : Option Nat)
    (next : Call) (failed : Exn → Call) :
    (s.consume i task result next failed).calls = s.calls.set i next ∨
      ∃ e, (s.consume i task result next failed).calls = s.calls.set i (failed e) := by
  unfold consume
  rcases task.handle.wait result with - | e
  · exact Or.inl rfl
  · exact Or.inr ⟨e, rfl⟩

/-- A call goes on by one section. -/
theorem Controlled.onward (h : s.Controlled) (hCall : s.calls[i]? = some call)
    (hStep : s.advance i result call = some s') :
    ∃ next, s'.calls = s.calls.set i next ∧ call.Onward next := by
  cases call with
  | waiting task =>
    obtain rfl := Option.some.inj hStep
    rcases s.calls_consume i task result (.releasing none) .waitFailed with hCalls | ⟨e, hCalls⟩
    · exact ⟨_, hCalls, by simp [Call.sections], rfl, Nat.le_refl 1, by simp⟩
    · exact ⟨_, hCalls, by simp [Call.sections], rfl, Nat.le_refl 1, by simp⟩
  | waitFailed e =>
    obtain rfl := Option.some.inj hStep
    refine ⟨_, calls_record (h.not_stopped_of_consumer hCall rfl), ?_, rfl, Nat.le_refl 1, by simp⟩
    simp [Call.sections]
  | waitRecorded e =>
    obtain rfl := Option.some.inj hStep
    exact ⟨_, rfl, by simp [Call.sections], rfl, Nat.le_refl 1, by simp⟩
  | releasing thrown =>
    obtain ⟨v, hRelease, -, -⟩ := h.control.release hCall thrown
    rw [System.advance, hRelease] at hStep
    obtain rfl := Option.some.inj hStep
    exact ⟨_, rfl, by simp [Call.sections], rfl, Nat.zero_le 1, by simp⟩
  | waitDone | reportDone | drainDone | drainThrew => cases hStep
  | reportRecorded failure =>
    obtain rfl := Option.some.inj hStep
    exact ⟨_, rfl, by simp [Call.sections], rfl, Nat.le_refl 0, by simp⟩
  | drainEntered =>
    rw [System.advance] at hStep
    cases hDrain : s.supervisor.beginDrain with
    | none =>
      rw [hDrain] at hStep
      obtain rfl := Option.some.inj hStep
      exact ⟨_, rfl, by simp [Call.sections], rfl, Nat.le_refl 0, by simp⟩
    | some begun =>
      rw [hDrain] at hStep
      obtain rfl := Option.some.inj hStep
      obtain ⟨-, hTasks, -⟩ := Supervisor.beginDrain_eq_some hDrain
      refine ⟨_, rfl, ?_, rfl, Nat.le_refl 0, by simp⟩
      -- there are no more pending tasks than there may be
      have hBounded := h.control.sound.bounded
      rw [← hTasks] at hBounded
      simp only [Call.sections]
      omega
  | drainConsuming tasks =>
    cases tasks with
    | nil =>
      obtain rfl := Option.some.inj hStep
      exact ⟨_, rfl, by simp [Call.sections], rfl, Nat.le_refl 0, by simp⟩
    | cons task tasks =>
      obtain rfl := Option.some.inj hStep
      rcases s.calls_consume i task result (.drainConsuming tasks) (.drainFailed · tasks) with
        hCalls | ⟨e, hCalls⟩
      · refine ⟨_, hCalls, ?_, rfl, Nat.le_refl 0, by simp⟩
        simp only [Call.sections, List.length_cons]
        omega
      · refine ⟨_, hCalls, ?_, rfl, Nat.le_refl 0, by simp⟩
        simp only [Call.sections, List.length_cons]
        omega
  | drainFailed e tasks =>
    obtain rfl := Option.some.inj hStep
    exact ⟨_, calls_record (h.not_stopped_of_pastEntry hCall rfl), by simp [Call.sections], rfl,
      Nat.le_refl 0, by simp⟩
  | drainRecorded tasks =>
    obtain rfl := Option.some.inj hStep
    exact ⟨_, rfl, by simp [Call.sections], rfl, Nat.le_refl 0, by simp⟩
  | drainJobs =>
    rw [System.advance] at hStep
    cases hDrain : s.supervisor.jobs.beginDrain with
    | none =>
      rw [hDrain] at hStep
      obtain rfl := Option.some.inj hStep
      exact ⟨_, rfl, by simp [Call.sections], rfl, Nat.le_refl 0, by simp⟩
    | some jobs =>
      rw [hDrain] at hStep
      obtain rfl := Option.some.inj hStep
      exact ⟨_, rfl, by simp [Call.sections], rfl, Nat.le_refl 0, by simp⟩
  | drainJobsWaiting =>
    cases result with
    | none =>
      obtain rfl := Option.some.inj hStep
      exact ⟨_, rfl, by simp [Call.sections], rfl, Nat.le_refl 0, by simp⟩
    | some cause =>
      obtain rfl := Option.some.inj hStep
      exact ⟨_, rfl, by simp [Call.sections], rfl, Nat.le_refl 0, by simp⟩
  | drainJobsFailed e =>
    obtain rfl := Option.some.inj hStep
    exact ⟨_, calls_record (h.not_stopped_of_pastEntry hCall rfl), by simp [Call.sections], rfl,
      Nat.le_refl 0, by simp⟩
  | drainJobsRecorded =>
    obtain rfl := Option.some.inj hStep
    exact ⟨_, rfl, by simp [Call.sections], rfl, Nat.le_refl 0, by simp⟩
  | drainFinishing =>
    rw [System.advance] at hStep
    split at hStep
    · obtain rfl := Option.some.inj hStep
      exact ⟨_, rfl, by simp [Call.sections], rfl, Nat.le_refl 0, by simp⟩
    · cases hStep

/-- Only the end of `Drain` has to wait for others. -/
theorem blocked_of_advance (hWhole : ∀ e, call ≠ .drainThrew e)
    (hStep : s.advance i result call = none) : call.returned = true ∨
      call = .drainFinishing ∧ s.supervisor.activeConsumers ≠ 0 := by
  cases call with
  | waitDone | reportDone | drainDone => exact Or.inl rfl
  | drainThrew e => exact absurd rfl (hWhole e)
  | drainFinishing =>
    refine Or.inr ⟨rfl, fun hIdle => ?_⟩
    rw [System.advance, if_pos hIdle] at hStep
    cases hStep
  | releasing thrown =>
    rw [System.advance] at hStep
    split at hStep <;> cases hStep
  | drainEntered =>
    rw [System.advance] at hStep
    split at hStep <;> cases hStep
  | drainConsuming tasks => cases tasks <;> cases hStep
  | drainJobs =>
    rw [System.advance] at hStep
    split at hStep <;> cases hStep
  | drainJobsWaiting => cases result <;> cases hStep
  | waiting | waitFailed | waitRecorded | reportRecorded | drainFailed | drainRecorded
  | drainJobsFailed | drainJobsRecorded => cases hStep

-- ---------------------------------------------------------------------------
-- Turns
-- ---------------------------------------------------------------------------

/-- No call of `Drain` has thrown. -/
structure Unbroken (s : System) : Prop where
  controlled : s.Controlled
  whole : ∀ e, .drainThrew e ∉ s.calls

/-- A turn in which nobody gets on leaves everything as it is. -/
def turn (s : System) (a : Action) : System := (s.step a).getD s

/-- What a turn does to the calls. -/
inductive Turned (s : System) (a : Action) : System → Prop where
  | began {s' : System} (hOther : a.call = none) (new : List Call)
      (hCalls : s'.calls = s.calls ++ new)
      (hConsumers : s.supervisor.state.closing = true → total Call.consumers new = 0)
      (hWhole : ∀ e, .drainThrew e ∉ new) : Turned s a s'
  | waited {s' : System} {i : Nat} (hCall : a.call = some i) (hSame : s' = s)
      (hBlocked : ∀ call, s.calls[i]? = some call → call.returned = true ∨
        call = .drainFinishing ∧ s.supervisor.activeConsumers ≠ 0) : Turned s a s'
  | wentOn {s' : System} {i : Nat} {call next : Call} (hCall : a.call = some i)
      (hAt : s.calls[i]? = some call) (hCalls : s'.calls = s.calls.set i next)
      (hOnward : call.Onward next) : Turned s a s'

/-- A turn that begins no call. -/
theorem began_same {a : Action} (hOther : a.call = none) (hCalls : s'.calls = s.calls) :
    Turned s a s' :=
  .began hOther [] (hCalls.trans (List.append_nil _).symm) (fun _ => rfl) nofun

/-- What a turn does to the calls. -/
theorem Unbroken.turned (h : s.Unbroken) (a : Action) : Turned s a (s.turn a) := by
  unfold turn
  cases hStep : s.step a with
  | none =>
    cases a with
    | advance i result =>
      refine .waited rfl rfl fun call hCall => ?_
      have hNone : s.advance i result call = none := by
        have hBoth := hStep
        rw [System.step, hCall] at hBoth
        exact hBoth
      exact blocked_of_advance (fun e hThrew => h.whole e (hThrew ▸ List.mem_of_getElem? hCall))
        hNone
    | start | submit | submitReusable | wait | reportFailure | requestStop | drain =>
      exact began_same rfl rfl
  | some s' =>
    show Turned s a s'
    cases a with
    | advance i result =>
      obtain ⟨call, hCall, hNext⟩ := Option.bind_eq_some_iff.mp hStep
      obtain ⟨next, hCalls, hOnward⟩ := h.controlled.onward hCall hNext
      exact .wentOn rfl hCall hCalls hOnward
    | start =>
      rw [System.step] at hStep
      split at hStep <;> obtain rfl := Option.some.inj hStep <;> exact began_same rfl rfl
    | submit takes | submitReusable takes =>
      obtain rfl := Option.some.inj hStep
      refine began_same rfl ?_
      unfold submitTask
      split <;> rfl
    | wait id =>
      rw [System.step] at hStep
      cases hTake : s.supervisor.takePending id with
      | error e =>
        rw [hTake] at hStep
        obtain rfl := Option.some.inj hStep
        exact began_same rfl rfl
      | ok taken =>
        rw [hTake] at hStep
        obtain rfl := Option.some.inj hStep
        refine .began rfl [.waiting taken.2] rfl (fun hClosing => ?_) (by simp)
        -- a supervisor that is closing has no pending tasks
        have hMem := (Supervisor.takePending_eq_ok hTake).1
        rw [h.controlled.control.sound.closed hClosing] at hMem
        exact absurd hMem List.not_mem_nil
    | reportFailure source error =>
      cases error with
      | none =>
        obtain rfl := Option.some.inj hStep
        exact began_same rfl rfl
      | some e =>
        rw [System.step] at hStep
        split at hStep <;> obtain rfl := Option.some.inj hStep
        · exact .began rfl [.reportRecorded { source, error := e }] rfl (fun _ => rfl) (by simp)
        · exact began_same rfl rfl
    | requestStop =>
      obtain rfl := Option.some.inj hStep
      exact began_same rfl rfl
    | drain =>
      obtain ⟨-, hNext⟩ := Option.ite_none_left_eq_some.mp hStep
      obtain rfl := Option.some.inj hNext
      exact .began rfl [.drainEntered] rfl (fun _ => rfl) (by simp)

/-- A turn breaks nothing, and a supervisor that closes goes on closing. -/
theorem Unbroken.turn (h : s.Unbroken) (a : Action) : (s.turn a).Unbroken ∧
    (s.supervisor.state.closing = true → (s.turn a).supervisor.state.closing = true) := by
  have hControlled : (s.turn a).Controlled ∧
      s.supervisor.state.Forward (s.turn a).supervisor.state := by
    unfold System.turn
    cases hStep : s.step a with
    | none => exact ⟨h.controlled, .refl _⟩
    | some s' => exact h.controlled.step hStep
  refine ⟨⟨hControlled.1, ?_⟩, fun hClosing => ?_⟩
  · intro e hMem
    cases h.turned a with
    | began _ new hCalls _ hWhole =>
      rw [hCalls] at hMem
      exact (List.mem_append.mp hMem).elim (h.whole e) (hWhole e)
    | waited _ hSame => exact h.whole e (hSame ▸ hMem)
    | wentOn _ _ hCalls hOnward =>
      rw [hCalls] at hMem
      rcases List.mem_or_eq_of_mem_set hMem with hOld | hNew
      · exact h.whole e hOld
      · exact hOnward.whole e hNew.symm
  · rcases hControlled.2 with hSame | hLess
    · exact hSame ▸ hClosing
    · revert hLess hClosing
      cases s.supervisor.state <;> cases (s.turn a).supervisor.state <;>
        simp [LifecycleState.rank, LifecycleState.closing]

/-- No run breaks anything. -/
theorem unbroken_of_run {actions : List Action} (hRun : run actions = some s) : s.Unbroken := by
  refine runEvents_invariant (fun {s a s'} h hStep => ?_) ⟨controlled_init, nofun⟩ hRun
  have hNext := (h.turn a).1
  unfold System.turn at hNext
  rw [hStep] at hNext
  exact hNext

-- ---------------------------------------------------------------------------
-- One call
-- ---------------------------------------------------------------------------

/-- The call has come back, or it is `Drain` in its last section. -/
def Stands (s : System) (i : Nat) : Prop :=
  ∃ call, s.calls[i]? = some call ∧ (call.returned = true ∨ call = .drainFinishing)

/-- The sections that one call has left. -/
def sectionsOf (s : System) (i : Nat) : Nat := (s.calls[i]?.map Call.sections).getD 0

/-- New calls are appended. -/
theorem getElem?_began {i : Nat} {new : List Call} (hCalls : s'.calls = s.calls ++ new)
    (hi : i < s.calls.length) : s'.calls[i]? = s.calls[i]? := by
  rw [hCalls, List.getElem?_append_left hi]

/-- A call goes on whenever it has its turn, or it stands. -/
theorem winds_call (i : Nat) : Winds turn Action.call
    (fun s => s.Unbroken ∧ i < s.calls.length) (fun s => s.sectionsOf i)
    fun s t => t = some i → s.Stands i where
  keeps s a h := by
    refine ⟨(h.1.turn a).1, ?_⟩
    cases h.1.turned a with
    | began _ new hCalls =>
      rw [hCalls, List.length_append]
      exact Nat.lt_add_right _ h.2
    | waited _ hSame =>
      rw [hSame]
      exact h.2
    | wentOn _ _ hCalls =>
      rw [hCalls, List.length_set]
      exact h.2
  turn s a h := by
    obtain ⟨hUnbroken, hi⟩ := h
    -- a turn that does not touch the call
    have hSpared : (s.turn a).calls[i]? = s.calls[i]? → (a.call = some i → s.Stands i) →
        (s.turn a).sectionsOf i < s.sectionsOf i ∨ (a.call = some i → s.Stands i) ∧
          (s.turn a).sectionsOf i = s.sectionsOf i ∧
          ∀ t, (t = some i → s.Stands i) → t = some i → (s.turn a).Stands i := by
      intro hSame hWaits
      refine Or.inr ⟨hWaits, by unfold sectionsOf; rw [hSame], fun t hStands ht => ?_⟩
      obtain ⟨call, hCall, hDone⟩ := hStands ht
      exact ⟨call, hSame.trans hCall, hDone⟩
    cases hUnbroken.turned a with
    | began hOther new hCalls =>
      refine hSpared (getElem?_began hCalls hi) fun hSame => ?_
      cases hOther.symm.trans hSame
    | waited hCall hSame hBlocked =>
      refine hSpared (by rw [hSame]) fun hThis => ?_
      obtain rfl := Option.some.inj (hCall.symm.trans hThis)
      have hAt := List.getElem?_eq_getElem hi
      exact ⟨_, hAt, (hBlocked _ hAt).imp_right And.left⟩
    | @wentOn j call next hCall hAt hCalls hOnward =>
      by_cases hThis : j = i
      · subst hThis
        refine Or.inl ?_
        unfold sectionsOf
        rw [hCalls, List.getElem?_set_self hi, hAt]
        exact hOnward.less
      · refine hSpared (by rw [hCalls, List.getElem?_set_ne hThis]) fun hSame => ?_
        exact absurd (Option.some.inj (hCall.symm.trans hSame)) hThis

-- ---------------------------------------------------------------------------
-- A supervisor that is closing
-- ---------------------------------------------------------------------------

/-- The supervisor is closing, and only the first `n` calls have tasks. -/
structure Closing (n : Nat) (s : System) : Prop where
  unbroken : s.Unbroken
  length : n ≤ s.calls.length
  closing : s.supervisor.state.closing = true
  consumers : total Call.consumers (s.calls.drop n) = 0

/-- The call has come back, or it is `Drain` and waits for the calls of `Wait`. -/
def Blocked (s : System) (i : Nat) : Prop :=
  ∃ call, s.calls[i]? = some call ∧ (call.returned = true ∨
    call = .drainFinishing ∧ s.supervisor.activeConsumers ≠ 0)

/-- The consumers that count are those before the `Drain`. -/
theorem Closing.activeConsumers {n : Nat} (h : Closing n s) :
    s.supervisor.activeConsumers = total Call.consumers (s.calls.take n) := by
  have hSplit : total Call.consumers s.calls =
      total Call.consumers (s.calls.take n) + total Call.consumers (s.calls.drop n) := by
    unfold total
    rw [← List.sum_append, ← List.map_append, List.take_append_drop]
  rw [h.unbroken.controlled.control.consumers, hSplit, h.consumers, Nat.add_zero]

/-- A turn of a closing runtime. -/
theorem Closing.turn {n : Nat} (h : Closing n s) (a : Action) : Closing n (s.turn a) := by
  obtain ⟨hUnbroken, hClosing⟩ := h.unbroken.turn a
  cases h.unbroken.turned a with
  | began _ new hCalls hConsumers =>
    refine ⟨hUnbroken, ?_, hClosing h.closing, ?_⟩
    · rw [hCalls, List.length_append]
      exact Nat.le_add_right_of_le h.length
    · rw [hCalls, List.drop_append_of_le_length h.length]
      unfold total
      rw [List.map_append, List.sum_append]
      exact Nat.add_eq_zero_iff.mpr ⟨h.consumers, hConsumers h.closing⟩
  | waited _ hSame =>
    rw [hSame]
    exact h
  | @wentOn j call next _ hAt hCalls hOnward =>
    refine ⟨hUnbroken, by rw [hCalls, List.length_set]; exact h.length, hClosing h.closing, ?_⟩
    rw [hCalls]
    by_cases hEarly : j < n
    · rw [List.drop_set_of_lt hEarly]
      exact h.consumers
    · have hLate : (s.calls.drop n)[j - n]? = some call := by
        rw [List.getElem?_drop, show n + (j - n) = j by omega]
        exact hAt
      have hTotal := total_set Call.consumers next hLate
      have hNone := total_eq_zero h.consumers (List.mem_of_getElem? hLate)
      have hLess := hOnward.consumers
      have hConsumers := h.consumers
      rw [List.drop_set, if_neg hEarly]
      omega

/-- The calls of a supervisor that is closing come to rest. -/
theorem winds_closing (n : Nat) : Winds turn Action.call (Closing n)
    (fun s => total Call.sections (s.calls.take n))
    fun s t => ∀ i < n, t = some i → s.Blocked i where
  keeps _ a h := h.turn a
  turn s a h := by
    have hNext := h.turn a
    -- a turn that does not touch the calls
    have hSpared : (s.turn a).calls.take n = s.calls.take n →
        (∀ i < n, a.call = some i → s.Blocked i) →
        total Call.sections ((s.turn a).calls.take n) < total Call.sections (s.calls.take n) ∨
          (∀ i < n, a.call = some i → s.Blocked i) ∧
          total Call.sections ((s.turn a).calls.take n) = total Call.sections (s.calls.take n) ∧
          ∀ t, (∀ i < n, t = some i → s.Blocked i) → ∀ i < n, t = some i →
            (s.turn a).Blocked i := by
      intro hSame hBlocked
      refine Or.inr ⟨hBlocked, by rw [hSame], fun t hWaits i hi ht => ?_⟩
      obtain ⟨call, hCall, hRest⟩ := hWaits i hi ht
      refine ⟨call, ?_, ?_⟩
      · rw [← List.getElem?_take_of_lt hi, hSame, List.getElem?_take_of_lt hi]
        exact hCall
      · rw [hNext.activeConsumers, hSame, ← h.activeConsumers]
        exact hRest
    cases h.unbroken.turned a with
    | began hOther new hCalls =>
      refine hSpared ?_ fun i _ hSame => ?_
      · rw [hCalls, List.take_append_of_le_length h.length]
      · cases hOther.symm.trans hSame
    | waited hCall hSame hBlocked =>
      refine hSpared (by rw [hSame]) fun i hi hThis => ?_
      obtain rfl := Option.some.inj (hCall.symm.trans hThis)
      have hAt := List.getElem?_eq_getElem (Nat.lt_of_lt_of_le hi h.length)
      exact ⟨_, hAt, hBlocked _ hAt⟩
    | @wentOn j call next hCall hAt hCalls hOnward =>
      by_cases hEarly : j < n
      · refine Or.inl ?_
        have hTake : (s.calls.take n)[j]? = some call := by
          rw [List.getElem?_take_of_lt hEarly]
          exact hAt
        have hTotal := total_set Call.sections next hTake
        have hLess := hOnward.less
        rw [hCalls, List.take_set]
        omega
      · refine hSpared ?_ fun i hi hSame => ?_
        · rw [hCalls, List.take_set, List.set_eq_of_length_le]
          rw [List.length_take]
          omega
        · obtain rfl := Option.some.inj (hCall.symm.trans hSame)
          exact absurd hi hEarly

/-- When all the calls wait, none of them has a task, so none of them waits for another. -/
theorem Closing.returned {n : Nat} (h : Closing n s) (hBlocked : ∀ i < n, s.Blocked i) {i : Nat}
    (hi : i < n) : ∃ call, s.calls[i]? = some call ∧ call.returned = true := by
  have hIdle : s.supervisor.activeConsumers = 0 := by
    rw [h.activeConsumers]
    refine List.sum_eq_zero fun consumers hMem => ?_
    obtain ⟨call, hCall, rfl⟩ := List.mem_map.mp hMem
    obtain ⟨j, hAt⟩ := List.mem_iff_getElem?.mp hCall
    have hj : j < n := by
      have hLength := (List.getElem?_eq_some_iff.mp hAt).1
      rw [List.length_take] at hLength
      omega
    obtain ⟨other, hOther, hRest⟩ := hBlocked j hj
    rw [List.getElem?_take_of_lt hj, hOther] at hAt
    obtain rfl := Option.some.inj hAt
    rcases hRest with hReturned | ⟨rfl, -⟩
    · cases other <;> first | rfl | cases hReturned
    · rfl
  obtain ⟨call, hCall, hReturned | ⟨-, hBusy⟩⟩ := hBlocked i hi
  · exact ⟨call, hCall, hReturned⟩
  · exact absurd hIdle hBusy

-- ---------------------------------------------------------------------------
-- Runs
-- ---------------------------------------------------------------------------

/-- The call that has come back stays so. -/
theorem Unbroken.returned_turn (h : s.Unbroken) (a : Action) {i : Nat} {call : Call}
    (hCall : s.calls[i]? = some call) (hReturned : call.returned = true) :
    (s.turn a).calls[i]? = some call := by
  cases h.turned a with
  | began _ new hCalls =>
    rw [getElem?_began hCalls (List.getElem?_eq_some_iff.mp hCall).1]
    exact hCall
  | waited _ hSame =>
    rw [hSame]
    exact hCall
  | @wentOn j other next _ hAt hCalls hOnward =>
    by_cases hThis : j = i
    · subst hThis
      obtain rfl := Option.some.inj (hAt.symm.trans hCall)
      have hLess := hOnward.less
      cases other <;> first | exact absurd hLess (Nat.not_lt_zero _) | cases hReturned
    · rw [hCalls, List.getElem?_set_ne hThis]
      exact hCall

/-- Nothing breaks under a schedule. -/
theorem unbroken_scheduled (h : s.Unbroken) (schedule : Nat → Action) :
    ∀ n, (scheduled turn schedule s n).Unbroken
  | 0 => h
  | n + 1 => ((unbroken_scheduled h schedule n).turn (schedule n)).1

/-- A kind of call stays what it is. -/
theorem Unbroken.isDrain_turn (h : s.Unbroken) (a : Action) {i : Nat} {call : Call}
    (hCall : s.calls[i]? = some call) :
    ∃ next, (s.turn a).calls[i]? = some next ∧ next.isDrain = call.isDrain := by
  have hi := (List.getElem?_eq_some_iff.mp hCall).1
  cases h.turned a with
  | began _ new hCalls => exact ⟨call, (getElem?_began hCalls hi).trans hCall, rfl⟩
  | waited _ hSame => exact ⟨call, by rw [hSame]; exact hCall, rfl⟩
  | @wentOn j other next _ hAt hCalls hOnward =>
    by_cases hThis : j = i
    · subst hThis
      obtain rfl := Option.some.inj (hAt.symm.trans hCall)
      exact ⟨next, by rw [hCalls, List.getElem?_set_self hi], hOnward.isDrain⟩
    · exact ⟨call, by rw [hCalls, List.getElem?_set_ne hThis]; exact hCall, rfl⟩

/-- A `Drain` stays one under a schedule. -/
theorem isDrain_scheduled (h : s.Unbroken) (schedule : Nat → Action) {i : Nat} {call : Call}
    (hCall : s.calls[i]? = some call) : ∀ n, ∃ next,
      (scheduled turn schedule s n).calls[i]? = some next ∧ next.isDrain = call.isDrain
  | 0 => ⟨call, hCall, rfl⟩
  | n + 1 => by
    obtain ⟨mid, hMid, hSame⟩ := isDrain_scheduled h schedule hCall n
    obtain ⟨next, hNext, hKept⟩ :=
      (unbroken_scheduled h schedule n).isDrain_turn (schedule n) hMid
    exact ⟨next, hNext, hKept.trans hSame⟩

/-- Under a scheduler that comes back to each of them, the calls of a supervisor that is
closing come back. -/
theorem Closing.exists_returned {n : Nat} (h : Closing n s) {schedule : Nat → Action}
    (hFair : ∀ i, Recurs Action.call schedule (some i)) {i : Nat} (hi : i < n) :
    ∃ m call, (scheduled System.turn schedule s m).calls[i]? = some call ∧
      call.returned = true := by
  obtain ⟨m, hm⟩ := (winds_closing n).rest_of_recurs h ((Finset.range n).image some)
    fun t hMem => by
      obtain ⟨j, -, rfl⟩ := Finset.mem_image.mp hMem
      exact hFair j
  have hThen : Closing n (scheduled System.turn schedule s m) :=
    (winds_closing n).keeps_scheduled h m
  have hBlocked : ∀ j < n, (scheduled System.turn schedule s m).Blocked j := fun j hj =>
    hm m (Nat.le_refl m) (some j)
      (Finset.mem_image_of_mem some (Finset.mem_range.mpr hj)) j hj rfl
  exact ⟨m, hThen.returned hBlocked hi⟩

/-- Under a fair schedule every call returns. -/
theorem exists_returned (h : s.Unbroken) {schedule : Nat → Action}
    (hFair : ∀ i, Recurs Action.call schedule (some i)) {i : Nat} (hi : i < s.calls.length) :
    ∃ n call, (scheduled turn schedule s n).calls[i]? = some call ∧ call.returned = true := by
  obtain ⟨n, hn⟩ := (winds_call i).waits_of_recurs ⟨h, hi⟩ (hFair i)
  obtain ⟨call, hCall, hReturned | rfl⟩ := hn n (Nat.le_refl n) rfl
  · exact ⟨n, call, hCall, hReturned⟩
  -- `Drain` is in its last section, so nobody can take a task any more
  have hMid := unbroken_scheduled h schedule n
  have hClosing : Closing (scheduled turn schedule s n).calls.length
      (scheduled turn schedule s n) := by
    refine ⟨hMid, Nat.le_refl _, ?_, by rw [List.drop_length]; rfl⟩
    exact hMid.controlled.control.closing_of_pastEntry (List.mem_of_getElem? hCall) rfl
  obtain ⟨m, last, hLast, hReturned⟩ := hClosing.exists_returned (fun j => (hFair j).later n)
    (List.getElem?_eq_some_iff.mp hCall).1
  exact ⟨n + m, last, by rw [scheduled_add]; exact hLast, hReturned⟩

end System

/-- From every state of every run, every call that has begun comes back, under any scheduler
that keeps coming back to every call and with jobs that end in any way, whatever else is
called in the meantime; and when it is `Drain`, the supervisor is stopped or failed. -/
theorem calls_return_of_run {actions : List Action} {s : System} (hRun : run actions = some s)
    {schedule : Nat → Action} (hFair : ∀ i, Recurs Action.call schedule (some i)) {i : Nat}
    {call : Call} (hCall : s.calls[i]? = some call) :
    ∃ n, ∀ m, n ≤ m → ∃ last,
      (scheduled System.turn schedule s m).calls[i]? = some last ∧ last.returned = true ∧
      (call.isDrain = true → last = .drainDone ∧
        (scheduled System.turn schedule s m).supervisor.state.terminal = true) := by
  have hStart := System.unbroken_of_run hRun
  obtain ⟨n, last, hLast, hReturned⟩ :=
    System.exists_returned hStart hFair (List.getElem?_eq_some_iff.mp hCall).1
  have hStays : ∀ m, n ≤ m → (scheduled System.turn schedule s m).calls[i]? = some last := by
    intro m hm
    induction m, hm using Nat.le_induction with
    | base => exact hLast
    | succ m hm ih =>
      exact (System.unbroken_scheduled hStart schedule m).returned_turn (schedule m) ih hReturned
  refine ⟨n, fun m hm => ⟨last, hStays m hm, hReturned, fun hDrain => ?_⟩⟩
  obtain ⟨same, hSame, hKind⟩ := System.isDrain_scheduled hStart schedule hCall m
  obtain rfl := Option.some.inj (hSame.symm.trans (hStays m hm))
  have hDone : same = .drainDone := by
    rw [hDrain] at hKind
    exact Call.eq_drainDone hReturned hKind
  refine ⟨hDone, ?_⟩
  exact (System.unbroken_scheduled hStart schedule m).controlled.control.done
    (hDone ▸ List.mem_of_getElem? (hStays m hm))

/-- A scheduler that comes back to every call. -/
def everyCall (n : Nat) : Action := .advance (Nat.unpair n).1 none

/-- The schedule comes back to every call. -/
theorem recurs_everyCall (i : Nat) : Recurs Action.call everyCall (some i) := by
  intro n
  refine ⟨Nat.pair i n, Nat.right_le_pair i n, ?_⟩
  unfold everyCall
  rw [Nat.unpair_pair]
  rfl

/-- One task waited for, and a `Drain` that returns. -/
theorem calls_return_of_run_everyCall : ∃ s n,
    run [.start, .submit true, .submitReusable true, .wait 2, .drain] = some s ∧
    s.calls[1]? = some .drainEntered ∧
    (scheduled System.turn everyCall s n).calls[1]? = some .drainDone := by
  obtain ⟨s, hRun, hCall⟩ : ∃ s,
      run [.start, .submit true, .submitReusable true, .wait 2, .drain] = some s ∧
      s.calls[1]? = some .drainEntered := ⟨_, rfl, rfl⟩
  obtain ⟨n, hn⟩ := calls_return_of_run hRun recurs_everyCall hCall
  obtain ⟨last, hLast, -, hDrain⟩ := hn n (Nat.le_refl n)
  exact ⟨s, n, hRun, hCall, (hDrain rfl).1 ▸ hLast⟩

end Ithax.Runtime
