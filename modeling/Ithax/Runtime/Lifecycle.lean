import Ithax.Runtime.Supervisor

/-!
# The lifecycle of the supervisor

What holds in every state that any threads can reach: the lifecycle only moves on,
the jobs are running while the supervisor is, and a failure that was recorded decides
how it ends.

## Results

* `System.Controlled.step`  — the invariant, section by section.
* `controlled_of_run`       — the invariant along every run.
-/

namespace Ithax.Runtime

open Ithax.Lib

namespace LifecycleState

/-- Before any stop. -/
def early : LifecycleState → Bool
  | starting | running => true
  | _ => false

/-- No submission gets in any more. -/
def closing : LifecycleState → Bool
  | draining | stopped | failed => true
  | _ => false

/-- The lifecycle has come to its end. -/
def terminal : LifecycleState → Bool
  | stopped | failed => true
  | _ => false

/-- How far along the lifecycle is. -/
def rank : LifecycleState → Nat
  | starting => 0
  | running => 1
  | stopRequested => 2
  | draining => 3
  | stopped | failed => 4

/-- The order of the lifecycle. -/
def Forward (a b : LifecycleState) : Prop := a = b ∨ a.rank < b.rank

/-- A state that stays. -/
theorem Forward.refl (a : LifecycleState) : Forward a a := Or.inl rfl

/-- One move after another. -/
theorem Forward.trans {a b c : LifecycleState} (hab : Forward a b) (hbc : Forward b c) :
    Forward a c := by
  rcases hab with rfl | hab
  · exact hbc
  · rcases hbc with rfl | hbc
    · exact Or.inr hab
    · exact Or.inr (Nat.lt_trans hab hbc)

end LifecycleState

namespace Call

/-- The call has taken a task and not released it. -/
def consumers : Call → Nat
  | waiting _ | waitFailed _ | waitRecorded _ | releasing _ => 1
  | _ => 0

/-- The call is past the first section of `Drain`. -/
def pastEntry : Call → Bool
  | drainConsuming _ | drainFailed _ _ | drainRecorded _ | drainJobs | drainJobsWaiting
  | drainJobsFailed _ | drainJobsRecorded | drainFinishing => true
  | _ => false

/-- The call holds the mutex of `Drain`. -/
def drains : Call → Nat
  | drainEntered => 1
  | call => if call.pastEntry then 1 else 0

/-- A call that goes on without taking or giving back anything. -/
structure Alike (next call : Call) : Prop where
  consumers : next.consumers = call.consumers
  pastEntry : next.pastEntry = call.pastEntry
  drains : next.drains = call.drains
  notDone : next ≠ drainDone

end Call

/-- The supervisor after the failures `recorded`. -/
structure Supervisor.Sound (v : Supervisor) (recorded : List RuntimeFailure) : Prop where
  jobs : v.state.early = true → v.jobs.state = .running
  failure : v.failure = recorded.head?
  early : v.state.early = true → recorded = []
  stopped : v.state = .stopped → recorded = []
  failed : v.state = .failed → recorded ≠ []
  closed : v.state.closing = true → v.pendingTasks = []
  idle : v.state.terminal = true → v.activeConsumers = 0
  bounded : v.pendingTasks.length ≤ MAX_PENDING_RUNTIME_TASKS

/-- The supervisor, the mutex of `Drain` and the calls fit together. -/
structure Control (v : Supervisor) (drainLocked : Bool) (calls : List Call)
    (recorded : List RuntimeFailure) : Prop where
  sound : v.Sound recorded
  consumers : v.activeConsumers = total Call.consumers calls
  locked : total Call.drains calls = drainLocked.toNat
  draining : ∀ call ∈ calls, call.pastEntry = true → v.state = .draining ∨ v.state = .failed
  done : .drainDone ∈ calls → v.state.terminal = true

-- ---------------------------------------------------------------------------
-- Sections
-- ---------------------------------------------------------------------------

section Sections

variable {v v' : Supervisor} {recorded : List RuntimeFailure}

/-- `Start` is accepted in the first state only. -/
theorem Supervisor.start_eq_ok (h : v.start = .ok v') :
    v.state = .starting ∧ v' = { v with state := .running } := by
  unfold Supervisor.start at h
  split at h
  · exact nomatch h
  · split at h
    · exact nomatch h
    · rename_i hState _
      exact ⟨not_not.mp hState, (Except.ok.inj h).symm⟩

/-- `SubmitTask` is accepted while running, with room and an id left. -/
theorem Supervisor.submit_eq_ok {takes : Bool} {task : PendingTask}
    (h : v.submit takes = .ok (v', task)) :
    v.state = .running ∧ v.pendingTasks.length < MAX_PENDING_RUNTIME_TASKS ∧
      v.nextTaskId ≠ MAX_TASK_ID ∧
      task = { id := v.nextTaskId, handle := { job := v.jobs.runs, valid := true } } ∧
      v' = { v with
        jobs := { v.jobs with runs := v.jobs.runs + 1 }
        nextTaskId := v.nextTaskId + 1
        pendingTasks := v.pendingTasks ++ [task] } := by
  unfold Supervisor.submit JobRuntime.submit at h
  by_cases hState : v.state = .running
  · by_cases hFull : MAX_PENDING_RUNTIME_TASKS ≤ v.pendingTasks.length
    · simp [hState, hFull, bind, Except.bind, throw, throwThe, MonadExceptOf.throw] at h
    by_cases hLast : v.nextTaskId = MAX_TASK_ID
    · simp [hState, hFull, hLast, bind, Except.bind, throw, throwThe, MonadExceptOf.throw] at h
    by_cases hJobs : v.jobs.state = .running
    · rcases takes with - | -
      · simp [hState, hFull, hLast, hJobs, bind, Except.bind] at h
      · simp [hState, hFull, hLast, hJobs, bind, Except.bind, pure, Except.pure] at h
        obtain ⟨rfl, rfl⟩ := h
        exact ⟨hState, Nat.lt_of_not_le hFull, hLast, rfl, by simp [hState, hJobs]⟩
    · simp [hState, hFull, hLast, hJobs, bind, Except.bind] at h
  · simp [hState, bind, Except.bind, throw, throwThe, MonadExceptOf.throw] at h

/-- `TakePending` takes the task with the id. -/
theorem Supervisor.takePending_eq_ok {id : TaskId} {task : PendingTask}
    (h : v.takePending id = .ok (v', task)) :
    task ∈ v.pendingTasks ∧ task.id = id ∧ v' = { v with
      pendingTasks := v.pendingTasks.erase task
      activeConsumers := v.activeConsumers + 1 } := by
  unfold Supervisor.takePending at h
  split at h
  · exact nomatch h
  · split at h
    · exact nomatch h
    · rename_i found hFind
      obtain ⟨rfl, rfl⟩ := Prod.mk.inj (Except.ok.inj h)
      exact ⟨List.mem_of_find?_eq_some hFind, by simpa using List.find?_some hFind, rfl⟩

/-- A failure is recorded before the end. The first one is kept. -/
theorem Supervisor.recordFailure_eq_ok {source : FailureSource} {error : Option Exn}
    (h : v.recordFailure source error = .ok v') : ∃ e, error = some e ∧ v.state ≠ .stopped ∧
      v' = { v with
        failure := v.failure.or (some { source, error := e })
        state := if v.state = .starting ∨ v.state = .running then .stopRequested else v.state } := by
  unfold Supervisor.recordFailure at h
  split at h
  · exact nomatch h
  · rename_i e
    split at h
    · exact nomatch h
    · rename_i hState
      exact ⟨e, rfl, hState, (Except.ok.inj h).symm⟩

/-- Before the end it is always recorded. -/
theorem Supervisor.recordFailure_of_open {source : FailureSource} {e : Exn}
    (h : v.state ≠ .stopped) : v.recordFailure source (some e) = .ok { v with
      failure := v.failure.or (some { source, error := e })
      state := if v.state = .starting ∨ v.state = .running then .stopRequested else v.state } := by
  rw [Supervisor.recordFailure, if_neg h]

/-- The state after a stop was requested. -/
theorem stopped_state_cases (state : LifecycleState) :
    (state.early = true ∧
      (if state = .starting ∨ state = .running then .stopRequested else state) =
        LifecycleState.stopRequested) ∨
    (state.early = false ∧
      (if state = .starting ∨ state = .running then .stopRequested else state) = state) := by
  cases state <;> decide

/-- A stop request, with or without a failure recorded along with it. -/
theorem Supervisor.Sound.stopping (h : v.Sound recorded) {recorded' : List RuntimeFailure}
    (hFailure : v'.failure = recorded'.head?)
    (hRecorded : recorded' = recorded ∨ recorded' ≠ [] ∧ v.state ≠ .stopped)
    (hState : v'.state = if v.state = .starting ∨ v.state = .running then .stopRequested
      else v.state)
    (hPending : v'.pendingTasks = v.pendingTasks)
    (hConsumers : v'.activeConsumers = v.activeConsumers) : v'.Sound recorded' := by
  rcases stopped_state_cases v.state with ⟨-, hNext⟩ | ⟨hLate, hNext⟩
  · rw [hNext] at hState
    have hBounded := h.bounded
    rw [← hPending] at hBounded
    constructor <;> simp_all [LifecycleState.early, LifecycleState.closing,
      LifecycleState.terminal]
  · rw [hNext] at hState
    refine ⟨fun hEarly => ?_, hFailure, fun hEarly => ?_, fun hStopped => ?_, fun hFailed => ?_,
      fun hClosing => ?_, fun hTerminal => ?_, hPending ▸ h.bounded⟩
    · rw [hState, hLate] at hEarly
      exact (Bool.false_ne_true hEarly).elim
    · rw [hState, hLate] at hEarly
      exact (Bool.false_ne_true hEarly).elim
    · rw [hState] at hStopped
      rcases hRecorded with rfl | ⟨-, hOpen⟩
      · exact h.stopped hStopped
      · exact absurd hStopped hOpen
    · rw [hState] at hFailed
      rcases hRecorded with rfl | ⟨hSome, -⟩
      · exact h.failed hFailed
      · exact hSome
    · rw [hPending]
      exact h.closed (hState ▸ hClosing)
    · rw [hConsumers]
      exact h.idle (hState ▸ hTerminal)

/-- A stop request changes the state only. -/
theorem Supervisor.requestStop_frame (v : Supervisor) :
    v.requestStop.failure = v.failure ∧
    v.requestStop.state = (if v.state = .starting ∨ v.state = .running then .stopRequested
      else v.state) ∧
    v.requestStop.pendingTasks = v.pendingTasks ∧ v.requestStop.nextTaskId = v.nextTaskId ∧
    v.requestStop.activeConsumers = v.activeConsumers := by
  unfold Supervisor.requestStop
  dsimp only
  rcases stopped_state_cases v.state with ⟨-, hNext⟩ | ⟨-, hNext⟩
  · rw [hNext, if_neg (by decide)]
    exact ⟨rfl, rfl, rfl, rfl, rfl⟩
  · rw [hNext]
    by_cases hStopped : v.state = .stopped
    · rw [if_pos hStopped]
      exact ⟨rfl, rfl, rfl, rfl, rfl⟩
    · rw [if_neg hStopped]
      exact ⟨rfl, rfl, rfl, rfl, rfl⟩

/-- A stop request. -/
theorem Supervisor.Sound.requestStop (h : v.Sound recorded) : v.requestStop.Sound recorded := by
  obtain ⟨hFailure, hState, hPending, -, hConsumers⟩ := v.requestStop_frame
  exact h.stopping (hFailure.trans h.failure) (Or.inl rfl) hState hPending hConsumers

/-- A failure is recorded. -/
theorem Supervisor.Sound.recordFailure (h : v.Sound recorded) {source : FailureSource}
    {error : Option Exn} (hRecord : v.recordFailure source error = .ok v') :
    ∃ e, error = some e ∧ v'.Sound (recorded ++ [{ source, error := e }]) := by
  obtain ⟨e, hError, hOpen, rfl⟩ := Supervisor.recordFailure_eq_ok hRecord
  refine ⟨e, hError, h.stopping ?_ (Or.inr ⟨by simp, hOpen⟩) rfl rfl rfl⟩
  show v.failure.or _ = _
  rw [h.failure, List.head?_append]
  rfl

/-- The start. -/
theorem Supervisor.Sound.start (h : v.Sound recorded) (hStart : v.start = .ok v') :
    v'.Sound recorded := by
  obtain ⟨hState, rfl⟩ := Supervisor.start_eq_ok hStart
  have hEarly : v.state.early = true := by
    rw [hState]
    rfl
  exact ⟨fun _ => h.jobs hEarly, h.failure, fun _ => h.early hEarly, fun hNo => (nomatch hNo),
    fun hNo => (nomatch hNo), fun hNo => (nomatch hNo), fun hNo => (nomatch hNo), h.bounded⟩

/-- A task is submitted. -/
theorem Supervisor.Sound.submit (h : v.Sound recorded) {takes : Bool} {task : PendingTask}
    (hSubmit : v.submit takes = .ok (v', task)) : v'.Sound recorded := by
  obtain ⟨hState, hRoom, -, -, rfl⟩ := Supervisor.submit_eq_ok hSubmit
  have hOpen : v.state.closing ≠ true := by
    rw [hState]
    decide
  refine ⟨h.jobs, h.failure, h.early, h.stopped, h.failed, fun hNo => absurd hNo hOpen,
    fun hNo => ?_, ?_⟩
  · exact h.idle hNo
  · show (v.pendingTasks ++ [task]).length ≤ _
    rw [List.length_append]
    exact hRoom

/-- A task is taken by a consumer. -/
theorem Supervisor.Sound.takePending (h : v.Sound recorded) {id : TaskId} {task : PendingTask}
    (hTake : v.takePending id = .ok (v', task)) : v'.Sound recorded := by
  obtain ⟨hMem, -, rfl⟩ := Supervisor.takePending_eq_ok hTake
  -- a task is pending, so the supervisor is not closing
  have hOpen : v.state.closing ≠ true := fun hClosing => by
    rw [h.closed hClosing] at hMem
    exact List.not_mem_nil hMem
  have hLive : v.state.terminal ≠ true := fun hTerminal => hOpen (by
    cases hState : v.state <;> simp_all [LifecycleState.terminal, LifecycleState.closing])
  refine ⟨h.jobs, h.failure, h.early, h.stopped, h.failed, fun hNo => absurd hNo hOpen,
    fun hNo => absurd hNo hLive, ?_⟩
  exact Nat.le_trans (List.length_erase_le) h.bounded

/-- A consumer is done. -/
theorem Supervisor.Sound.release (h : v.Sound recorded)
    (hRelease : v.releaseConsumer = .ok v') : v'.Sound recorded := by
  unfold Supervisor.releaseConsumer at hRelease
  split at hRelease
  · exact nomatch hRelease
  · obtain rfl := Except.ok.inj hRelease
    refine ⟨h.jobs, h.failure, h.early, h.stopped, h.failed, h.closed, fun hTerminal => ?_,
      h.bounded⟩
    show v.activeConsumers - 1 = 0
    rw [h.idle hTerminal]

/-- The first section of `Drain` takes all pending tasks. -/
theorem Supervisor.beginDrain_eq_some {tasks : List PendingTask}
    (h : v.beginDrain = some (v', tasks)) : v.state ≠ .stopped ∧ tasks = v.pendingTasks ∧
      v'.pendingTasks = [] ∧ v'.failure = v.failure ∧ v'.activeConsumers = v.activeConsumers ∧
      v'.nextTaskId = v.nextTaskId ∧ (v'.state = .draining ∧ v.state ≠ .failed ∨
        v'.state = .failed ∧ v.state = .failed) := by
  unfold Supervisor.beginDrain at h
  split at h
  · exact nomatch h
  · rename_i hOpen
    obtain ⟨rfl, rfl⟩ := Prod.mk.inj (Option.some.inj h)
    refine ⟨hOpen, rfl, rfl, rfl, rfl, rfl, ?_⟩
    cases hState : v.state <;> simp_all

/-- The drain begins. -/
theorem Supervisor.Sound.beginDrain (h : v.Sound recorded) {tasks : List PendingTask}
    (hDrain : v.beginDrain = some (v', tasks)) : v'.Sound recorded := by
  obtain ⟨-, -, hPending, hFailure, hConsumers, -, hState⟩ := Supervisor.beginDrain_eq_some hDrain
  have hEmpty : v'.pendingTasks.length ≤ MAX_PENDING_RUNTIME_TASKS := by
    rw [hPending]
    exact Nat.zero_le _
  rcases hState with ⟨hNext, -⟩ | ⟨hNext, hWas⟩
  · refine ⟨?_, hFailure.trans h.failure, ?_, ?_, ?_, fun _ => hPending, ?_, hEmpty⟩ <;>
      rw [hNext] <;> exact fun hNo => (nomatch hNo)
  · refine ⟨?_, hFailure.trans h.failure, ?_, ?_, fun _ => h.failed hWas, fun _ => hPending,
      fun _ => ?_, hEmpty⟩
    · rw [hNext]
      exact fun hNo => (nomatch hNo)
    · rw [hNext]
      exact fun hNo => (nomatch hNo)
    · rw [hNext]
      exact fun hNo => (nomatch hNo)
    · rw [hConsumers]
      exact h.idle (by rw [hWas]; rfl)

/-- The jobs of a supervisor that is draining are its own business. -/
theorem Supervisor.Sound.withJobs (h : v.Sound recorded) (hLate : v.state.early = false)
    (jobs : JobRuntime) : ({ v with jobs } : Supervisor).Sound recorded :=
  ⟨fun hEarly => (Bool.false_ne_true (hLate.symm.trans hEarly)).elim, h.failure, h.early,
    h.stopped, h.failed, h.closed, h.idle, h.bounded⟩

/-- How the drain ends: by whether a failure was recorded. -/
theorem Supervisor.finishDrain_state (h : v.Sound recorded) :
    v.finishDrain.state = if recorded = [] then .stopped else .failed := by
  unfold Supervisor.finishDrain
  rw [h.failure]
  rcases recorded with - | ⟨first, rest⟩ <;> rfl

/-- The drain ends, when no consumer is left. -/
theorem Supervisor.Sound.finishDrain (h : v.Sound recorded) (hClosing : v.state.closing = true)
    (hIdle : v.activeConsumers = 0) : v.finishDrain.Sound recorded := by
  have hState := Supervisor.finishDrain_state h
  by_cases hNone : recorded = []
  · rw [if_pos hNone] at hState
    refine ⟨?_, h.failure, fun _ => hNone, fun _ => hNone, ?_, fun _ => h.closed hClosing,
      fun _ => hIdle, h.bounded⟩ <;> rw [hState] <;> exact fun hNo => (nomatch hNo)
  · rw [if_neg hNone] at hState
    refine ⟨?_, h.failure, ?_, ?_, fun _ => hNone, fun _ => h.closed hClosing,
      fun _ => hIdle, h.bounded⟩ <;> rw [hState] <;> exact fun hNo => (nomatch hNo)

end Sections

-- ---------------------------------------------------------------------------
-- Calls
-- ---------------------------------------------------------------------------

namespace Control

variable {v v' : Supervisor} {locked : Bool} {calls : List Call} {i : Nat} {call next : Call}
  {recorded recorded' : List RuntimeFailure}

/-- A call past the entry of `Drain` has closed the supervisor. -/
theorem closing_of_pastEntry (h : Control v locked calls recorded) (hMem : call ∈ calls)
    (hPast : call.pastEntry = true) : v.state.closing = true := by
  rcases h.draining call hMem hPast with hState | hState <;> rw [hState] <;> rfl

/-- The drain has not ended while a consumer is there. -/
theorem open_of_consumer (h : Control v locked calls recorded) (hMem : call ∈ calls)
    (hConsumer : call.consumers = 1) : v.state.terminal = false := by
  by_contra hTerminal
  have hIdle := h.sound.idle (Bool.not_eq_false _ ▸ hTerminal)
  have hNone := total_eq_zero (h.consumers.symm.trans hIdle) hMem
  omega

/-- A call goes on, with the supervisor changed by a stop or not at all. -/
theorem move (h : Control v locked calls recorded) (hCall : calls[i]? = some call)
    (hSound : v'.Sound recorded') (hSame : v'.activeConsumers = v.activeConsumers)
    (hState : v.state.closing = true → v'.state = v.state) (hAlike : next.Alike call) :
    Control v' locked (calls.set i next) recorded' := by
  obtain ⟨hConsumers, hPast, hDrains, hDone⟩ := hAlike
  have hMem := List.mem_of_getElem? hCall
  have hDraining : ∀ other ∈ calls, other.pastEntry = true →
      v'.state = .draining ∨ v'.state = .failed := by
    intro other hOther hIn
    rw [hState (h.closing_of_pastEntry hOther hIn)]
    exact h.draining other hOther hIn
  refine ⟨hSound, ?_, ?_, forall_mem_set (fun hIn => ?_) hDraining, fun hIn => ?_⟩
  · have hTotal := total_set Call.consumers next hCall
    have hWas := h.consumers
    omega
  · have hTotal := total_set Call.drains next hCall
    have hWas := h.locked
    omega
  · exact hDraining call hMem (hPast ▸ hIn)
  · rcases List.mem_or_eq_of_mem_set hIn with hOld | hNew
    · have hTerminal := h.done hOld
      have hClosing : v.state.closing = true := by
        cases hWas : v.state <;> simp_all [LifecycleState.terminal, LifecycleState.closing]
      rw [hState hClosing]
      exact hTerminal
    · exact absurd hNew.symm hDone

/-- A call begins. -/
theorem push (h : Control v locked calls recorded) (hSound : v'.Sound recorded')
    (hSame : v'.activeConsumers = v.activeConsumers + call.consumers)
    (hState : v.state.closing = true → v'.state = v.state) (hPast : call.drains = 0)
    (hDone : call ≠ .drainDone) : Control v' locked (calls ++ [call]) recorded' := by
  have hNotPast : call.pastEntry = false := by
    rcases call <;> simp_all [Call.drains, Call.pastEntry]
  refine ⟨hSound, ?_, ?_, forall_mem_append_one (fun hIn => ?_) fun other hOther hIn => ?_,
    fun hIn => ?_⟩
  · rw [total_append_one, hSame, h.consumers]
  · rw [total_append_one, hPast, Nat.add_zero, h.locked]
  · exact (Bool.false_ne_true (hNotPast.symm.trans hIn)).elim
  · rw [hState (h.closing_of_pastEntry hOther hIn)]
    exact h.draining other hOther hIn
  · rcases List.mem_append.mp hIn with hOld | hNew
    · have hTerminal := h.done hOld
      have hClosing : v.state.closing = true := by
        cases hWas : v.state <;> simp_all [LifecycleState.terminal, LifecycleState.closing]
      rw [hState hClosing]
      exact hTerminal
    · exact absurd (List.mem_singleton.mp hNew).symm hDone

/-- `Wait` releases its consumer. -/
theorem release (h : Control v locked calls recorded) {thrown : Option Exn}
    (hCall : calls[i]? = some (.releasing thrown)) (thrown' : Option Exn) :
    ∃ v', v.releaseConsumer = .ok v' ∧ v'.state = v.state ∧
      Control v' locked (calls.set i (.waitDone thrown')) recorded := by
  have hTotal := total_set Call.consumers (.waitDone thrown') hCall
  have hWas := h.consumers
  have hSome : v.activeConsumers ≠ 0 := by
    have hOne := le_total (f := Call.consumers) (List.mem_of_getElem? hCall)
    simp only [Call.consumers] at hOne
    omega
  have hRelease : v.releaseConsumer =
      .ok { v with activeConsumers := v.activeConsumers - 1 } := by
    rw [Supervisor.releaseConsumer, if_neg hSome]
  refine ⟨_, hRelease, rfl, h.sound.release hRelease, ?_, ?_,
    forall_mem_set (fun hIn => nomatch hIn) h.draining, fun hIn => ?_⟩
  · show v.activeConsumers - 1 = _
    simp only [Call.consumers] at hTotal
    omega
  · have hDrains := total_set Call.drains (.waitDone thrown') hCall
    have hLocked := h.locked
    simp only [Call.drains, Call.pastEntry] at hDrains
    exact hDrains.trans hLocked
  · rcases List.mem_or_eq_of_mem_set hIn with hOld | hNew
    · exact h.done hOld
    · exact nomatch hNew

/-- Only one call holds the mutex of `Drain`. -/
theorem total_drains_set (h : Control v locked calls recorded) (hCall : calls[i]? = some call)
    (hDrains : call.drains = 1) (next : Call) :
    total Call.drains (calls.set i next) = next.drains := by
  have hTotal := total_set Call.drains next hCall
  have hLocked := h.locked
  have hOne := le_total (f := Call.drains) (List.mem_of_getElem? hCall)
  have hMost : locked.toNat ≤ 1 := Bool.toNat_le locked
  omega

/-- A call inside `Drain` holds its mutex. -/
theorem locked_of_drains (h : Control v locked calls recorded) (hMem : call ∈ calls)
    (hDrains : call.drains = 1) : locked = true := by
  have hLocked := h.locked
  have hOne := le_total (f := Call.drains) hMem
  rcases locked with - | -
  · simp only [Bool.toNat_false] at hLocked
    omega
  · rfl

/-- `Drain` gets through its first section. -/
theorem enter (h : Control v locked calls recorded) (hCall : calls[i]? = some .drainEntered)
    {tasks : List PendingTask} (hDrain : v.beginDrain = some (v', tasks)) :
    Control v' locked (calls.set i (.drainConsuming tasks)) recorded := by
  obtain ⟨hOpen, -, -, -, hConsumers, -, hState⟩ := Supervisor.beginDrain_eq_some hDrain
  have hDraining : v'.state = .draining ∨ v'.state = .failed := hState.imp And.left And.left
  refine ⟨h.sound.beginDrain hDrain, ?_, ?_, fun _ _ _ => hDraining, fun hIn => ?_⟩
  · have hTotal := total_set Call.consumers (.drainConsuming tasks) hCall
    rw [hConsumers, h.consumers]
    exact hTotal.symm
  · rw [h.total_drains_set hCall rfl, h.locked_of_drains (List.mem_of_getElem? hCall) rfl]
    rfl
  · rcases List.mem_or_eq_of_mem_set hIn with hOld | hNew
    · -- only a failed supervisor is drained again
      have hTerminal := h.done hOld
      rcases hState with ⟨-, hNotFailed⟩ | ⟨hNext, -⟩
      · cases hWas : v.state <;> simp_all [LifecycleState.terminal]
      · rw [hNext]
        rfl
    · exact nomatch hNew

/-- `Drain` returns. -/
theorem finish (h : Control v locked calls recorded) (hCall : calls[i]? = some call)
    (hDrains : call.drains = 1) (hConsumer : call.consumers = 0) (hSound : v'.Sound recorded)
    (hSame : v'.activeConsumers = v.activeConsumers) (hTerminal : v'.state.terminal = true) :
    Control v' false (calls.set i .drainDone) recorded := by
  have hNone := h.total_drains_set hCall hDrains .drainDone
  refine ⟨hSound, ?_, hNone, fun other hOther hIn => ?_, fun _ => hTerminal⟩
  · have hTotal := total_set Call.consumers .drainDone hCall
    rw [hConsumer] at hTotal
    rw [hSame, h.consumers]
    exact hTotal.symm
  · have hZero := total_eq_zero hNone hOther
    rcases other <;> simp_all [Call.drains, Call.pastEntry]

end Control

-- ---------------------------------------------------------------------------
-- Steps
-- ---------------------------------------------------------------------------

/-- What a step does to the system. A call that throws in its first section, or that has
nothing to report, leaves it as it is. -/
inductive System.Moves (s : System) : System → Prop where
  | refused : Moves s s
  | start {v : Supervisor} (hStart : s.supervisor.start = .ok v) :
      Moves s { s with supervisor := v }
  | submit {takes : Bool} {v : Supervisor} {task : PendingTask}
      (hSubmit : s.supervisor.submit takes = .ok (v, task)) :
      Moves s { s with supervisor := v, accepted := s.accepted ++ [task] }
  | wait {id : TaskId} {v : Supervisor} {task : PendingTask}
      (hTake : s.supervisor.takePending id = .ok (v, task)) :
      Moves s { s with supervisor := v, calls := s.calls ++ [.waiting task] }
  | report {source : FailureSource} {e : Exn} {v : Supervisor}
      (hRecord : s.supervisor.recordFailure source (some e) = .ok v) :
      Moves s { s with
        supervisor := v
        calls := s.calls ++ [.reportRecorded { source, error := e }]
        recorded := s.recorded ++ [{ source, error := e }] }
  | requestStop : Moves s { s with supervisor := s.supervisor.requestStop }
  | drain (hFree : s.drainLocked = false) :
      Moves s { s with calls := s.calls ++ [.drainEntered], drainLocked := true }
  | advance {i : Nat} {result : Option Nat} {call : Call} {s' : System}
      (hCall : s.calls[i]? = some call) (hNext : s.advance i result call = some s') : Moves s s'

/-- A submission takes its call on. -/
theorem System.moves_submitTask (s : System) (takes : Bool) : s.Moves (s.submitTask takes) := by
  unfold System.submitTask
  rcases hSubmit : s.supervisor.submit takes with e | ⟨v, task⟩
  · exact .refused
  · exact .submit hSubmit

/-- **Every section** changes one call, or begins one. -/
theorem System.moves_of_step {s s' : System} {a : Action} (hStep : s.step a = some s') :
    s.Moves s' := by
  cases a with
  | start =>
    rw [System.step] at hStep
    rcases hStart : s.supervisor.start with e | v <;> rw [hStart] at hStep <;>
      obtain rfl := Option.some.inj hStep
    · exact .refused
    · exact .start hStart
  | submit takes | submitReusable takes =>
    obtain rfl := Option.some.inj hStep
    exact s.moves_submitTask takes
  | wait id =>
    rw [System.step] at hStep
    rcases hTake : s.supervisor.takePending id with e | ⟨v, task⟩ <;> rw [hTake] at hStep <;>
      obtain rfl := Option.some.inj hStep
    · exact .refused
    · exact .wait hTake
  | reportFailure source error =>
    rcases error with - | e
    · obtain rfl := Option.some.inj hStep
      exact .refused
    rw [System.step] at hStep
    rcases hRecord : s.supervisor.recordFailure source (some e) with e' | v <;>
      rw [hRecord] at hStep <;> obtain rfl := Option.some.inj hStep
    · exact .refused
    · exact .report hRecord
  | requestStop =>
    obtain rfl := Option.some.inj hStep
    exact .requestStop
  | drain =>
    obtain ⟨hFree, hNext⟩ := Option.ite_none_left_eq_some.mp hStep
    obtain rfl := Option.some.inj hNext
    exact .drain (Bool.eq_false_of_not_eq_true hFree)
  | advance i result =>
    obtain ⟨call, hCall, hNext⟩ := Option.bind_eq_some_iff.mp hStep
    exact .advance hCall hNext

/-- The invariant of the whole system. -/
structure System.Controlled (s : System) : Prop where
  control : Control s.supervisor s.drainLocked s.calls s.recorded
  noErrors : s.internalErrors = []

open LifecycleState (Forward)

/-- A stop request moves the lifecycle on, or not at all. -/
theorem forward_stop (state : LifecycleState) :
    Forward state (if state = .starting ∨ state = .running then .stopRequested else state) := by
  cases state <;> simp [Forward, LifecycleState.rank]

/-- A supervisor that has closed is past it. -/
theorem stop_of_closing {state : LifecycleState} (h : state.closing = true) :
    (if state = .starting ∨ state = .running then .stopRequested else state) = state := by
  cases state <;> simp_all [LifecycleState.closing]

section Step

variable {s s' : System} {i : Nat} {call next : Call}

/-- A section that only requests the stop. -/
theorem System.Controlled.stop (h : s.Controlled) (hCall : s.calls[i]? = some call)
    (hAlike : next.Alike call) :
    (s.stop i next).Controlled ∧
      Forward s.supervisor.state (s.stop i next).supervisor.state := by
  obtain ⟨-, hState, -, -, hSame⟩ := s.supervisor.requestStop_frame
  refine ⟨⟨h.control.move hCall h.control.sound.requestStop hSame (fun hClosing => ?_) hAlike,
    h.noErrors⟩, ?_⟩
  · exact hState.trans (stop_of_closing hClosing)
  · show Forward _ s.supervisor.requestStop.state
    rw [hState]
    exact forward_stop _

/-- A section that records a failure. -/
theorem System.Controlled.record (h : s.Controlled) (hCall : s.calls[i]? = some call)
    (hOpen : s.supervisor.state ≠ .stopped) (hAlike : next.Alike call) (failure : RuntimeFailure)
    (threw : Exn → System) :
    (s.record i failure next threw).Controlled ∧
      Forward s.supervisor.state (s.record i failure next threw).supervisor.state := by
  have hRecord := @Supervisor.recordFailure_of_open s.supervisor failure.source failure.error hOpen
  obtain ⟨e, hError, hSound⟩ := h.control.sound.recordFailure hRecord
  obtain rfl := Option.some.inj hError
  unfold System.record
  rw [hRecord]
  exact ⟨⟨h.control.move hCall hSound rfl stop_of_closing hAlike, h.noErrors⟩, forward_stop _⟩

/-- A section that consumes a task. -/
theorem System.Controlled.consume (h : s.Controlled) (hCall : s.calls[i]? = some call)
    {failed : Exn → Call} (hAlike : next.Alike call) (hFailed : ∀ e, (failed e).Alike call)
    (task : PendingTask) (result : Option Nat) :
    (s.consume i task result next failed).Controlled ∧
      Forward s.supervisor.state (s.consume i task result next failed).supervisor.state := by
  have hSound := h.control.sound
  unfold System.consume
  rcases task.handle.wait result with - | e
  · exact ⟨⟨h.control.move hCall hSound rfl (fun _ => rfl) hAlike, h.noErrors⟩, Forward.refl _⟩
  · exact ⟨⟨h.control.move hCall hSound rfl (fun _ => rfl) (hFailed e), h.noErrors⟩,
      Forward.refl _⟩

/-- The supervisor has not stopped while a consumer is there. -/
theorem System.Controlled.not_stopped_of_consumer (h : s.Controlled)
    (hCall : s.calls[i]? = some call) (hConsumer : call.consumers = 1) :
    s.supervisor.state ≠ .stopped := by
  intro hStopped
  have hOpen := h.control.open_of_consumer (List.mem_of_getElem? hCall) hConsumer
  rw [hStopped] at hOpen
  exact nomatch hOpen

/-- A call past the entry of `Drain` sees the drain or a failure. -/
theorem System.Controlled.draining_or_failed (h : s.Controlled) (hCall : s.calls[i]? = some call)
    (hPast : call.pastEntry = true) :
    s.supervisor.state = .draining ∨ s.supervisor.state = .failed :=
  h.control.draining call (List.mem_of_getElem? hCall) hPast

/-- So the supervisor has not stopped. -/
theorem System.Controlled.not_stopped_of_pastEntry (h : s.Controlled)
    (hCall : s.calls[i]? = some call) (hPast : call.pastEntry = true) :
    s.supervisor.state ≠ .stopped := by
  rcases h.draining_or_failed hCall hPast with hState | hState <;> rw [hState] <;> decide

/-- Changing the jobs while `Drain` is at work. -/
theorem System.Controlled.withJobs (h : s.Controlled) (hCall : s.calls[i]? = some call)
    (hPast : call.pastEntry = true) (hAlike : next.Alike call) (jobs : JobRuntime) :
    ({ s with
      supervisor := { s.supervisor with jobs }, calls := s.calls.set i next } : System).Controlled := by
  have hLate : s.supervisor.state.early = false := by
    rcases h.draining_or_failed hCall hPast with hState | hState <;> rw [hState] <;> rfl
  exact ⟨h.control.move hCall (h.control.sound.withJobs hLate jobs) rfl (fun _ => rfl) hAlike,
    h.noErrors⟩

/-- A call goes on by one section. -/
theorem System.Controlled.advance (h : s.Controlled) (hCall : s.calls[i]? = some call)
    {result : Option Nat} (hStep : s.advance i result call = some s') :
    s'.Controlled ∧ Forward s.supervisor.state s'.supervisor.state := by
  cases call with
  | waiting task =>
    obtain rfl := Option.some.inj hStep
    exact h.consume hCall (by exact ⟨rfl, rfl, rfl, nofun⟩)
      (fun _ => by exact ⟨rfl, rfl, rfl, nofun⟩) task result
  | waitFailed e =>
    obtain rfl := Option.some.inj hStep
    exact h.record hCall (h.not_stopped_of_consumer hCall rfl) (by exact ⟨rfl, rfl, rfl, nofun⟩) _ _
  | waitRecorded e =>
    obtain rfl := Option.some.inj hStep
    exact h.stop hCall (by exact ⟨rfl, rfl, rfl, nofun⟩)
  | releasing thrown =>
    obtain ⟨v, hRelease, hState, hControl⟩ := h.control.release hCall thrown
    rw [System.advance, hRelease] at hStep
    obtain rfl := Option.some.inj hStep
    exact ⟨⟨hControl, h.noErrors⟩, Or.inl hState.symm⟩
  | waitDone thrown => exact nomatch hStep
  | reportRecorded failure =>
    obtain rfl := Option.some.inj hStep
    have hAlike : Call.reportDone.Alike (.reportRecorded failure) := ⟨rfl, rfl, rfl, nofun⟩
    obtain ⟨hNext, hForward⟩ := h.stop hCall hAlike
    exact ⟨⟨hNext.control, hNext.noErrors⟩, hForward⟩
  | reportDone => exact nomatch hStep
  | drainEntered =>
    rw [System.advance] at hStep
    rcases hDrain : s.supervisor.beginDrain with - | ⟨v, tasks⟩
    · rw [hDrain] at hStep
      obtain rfl := Option.some.inj hStep
      have hStopped : s.supervisor.state = .stopped := by
        unfold Supervisor.beginDrain at hDrain
        split at hDrain
        · assumption
        · exact nomatch hDrain
      refine ⟨⟨h.control.finish hCall rfl rfl h.control.sound rfl ?_, h.noErrors⟩, Forward.refl _⟩
      rw [hStopped]
      rfl
    · rw [hDrain] at hStep
      obtain rfl := Option.some.inj hStep
      obtain ⟨hOpen, -, -, -, -, -, hState⟩ := Supervisor.beginDrain_eq_some hDrain
      refine ⟨⟨h.control.enter hCall hDrain, h.noErrors⟩, ?_⟩
      show Forward s.supervisor.state v.state
      rcases hState with ⟨hNext, hNotFailed⟩ | ⟨hNext, hWas⟩
      · cases hWas : s.supervisor.state <;> simp_all [Forward, LifecycleState.rank]
      · exact Or.inl (hWas.trans hNext.symm)
  | drainConsuming tasks =>
    rcases tasks with - | ⟨task, tasks⟩
    · obtain rfl := Option.some.inj hStep
      have hEmpty := h.control.sound.closed
        (h.control.closing_of_pastEntry (List.mem_of_getElem? hCall) rfl)
      have hSame : ({ s.supervisor with pendingTasks := [] } : Supervisor) = s.supervisor := by
        rw [← hEmpty]
      rw [hSame]
      exact ⟨⟨h.control.move hCall h.control.sound rfl (fun _ => rfl) (by exact ⟨rfl, rfl, rfl, nofun⟩),
        h.noErrors⟩, Forward.refl _⟩
    · obtain rfl := Option.some.inj hStep
      exact h.consume hCall (by exact ⟨rfl, rfl, rfl, nofun⟩)
        (fun _ => by exact ⟨rfl, rfl, rfl, nofun⟩) task result
  | drainFailed e tasks =>
    obtain rfl := Option.some.inj hStep
    exact h.record hCall (h.not_stopped_of_pastEntry hCall rfl) (by exact ⟨rfl, rfl, rfl, nofun⟩) _ _
  | drainRecorded tasks =>
    obtain rfl := Option.some.inj hStep
    exact h.stop hCall (by exact ⟨rfl, rfl, rfl, nofun⟩)
  | drainJobs =>
    rw [System.advance] at hStep
    rcases hDrain : s.supervisor.jobs.beginDrain with - | jobs
    · rw [hDrain] at hStep
      obtain rfl := Option.some.inj hStep
      exact ⟨⟨h.control.move hCall h.control.sound rfl (fun _ => rfl) (by exact ⟨rfl, rfl, rfl, nofun⟩),
        h.noErrors⟩, Forward.refl _⟩
    · rw [hDrain] at hStep
      obtain rfl := Option.some.inj hStep
      exact ⟨h.withJobs hCall rfl (by exact ⟨rfl, rfl, rfl, nofun⟩) jobs, Forward.refl _⟩
  | drainJobsWaiting =>
    rcases result with - | cause
    · obtain rfl := Option.some.inj hStep
      exact ⟨h.withJobs hCall rfl (by exact ⟨rfl, rfl, rfl, nofun⟩) _, Forward.refl _⟩
    · obtain rfl := Option.some.inj hStep
      exact ⟨⟨h.control.move hCall h.control.sound rfl (fun _ => rfl) (by exact ⟨rfl, rfl, rfl, nofun⟩),
        h.noErrors⟩, Forward.refl _⟩
  | drainJobsFailed e =>
    obtain rfl := Option.some.inj hStep
    exact h.record hCall (h.not_stopped_of_pastEntry hCall rfl) (by exact ⟨rfl, rfl, rfl, nofun⟩) _ _
  | drainJobsRecorded =>
    obtain rfl := Option.some.inj hStep
    exact h.stop hCall (by exact ⟨rfl, rfl, rfl, nofun⟩)
  | drainFinishing =>
    rw [System.advance] at hStep
    split at hStep
    · rename_i hIdle
      obtain rfl := Option.some.inj hStep
      have hClosing := h.control.closing_of_pastEntry (List.mem_of_getElem? hCall) rfl
      have hNext := Supervisor.finishDrain_state h.control.sound
      have hTerminal : s.supervisor.finishDrain.state.terminal = true := by
        rw [hNext]
        split <;> rfl
      refine ⟨⟨h.control.finish hCall rfl rfl (h.control.sound.finishDrain hClosing hIdle) rfl
        hTerminal, h.noErrors⟩, ?_⟩
      show Forward s.supervisor.state s.supervisor.finishDrain.state
      rw [hNext]
      rcases h.draining_or_failed hCall rfl with hState | hState
      · rw [hState]
        split <;> exact Or.inr (by decide)
      · rw [hState, if_neg (h.control.sound.failed hState)]
        exact Forward.refl _
    · exact nomatch hStep
  | drainDone => exact nomatch hStep
  | drainThrew e => exact nomatch hStep

/-- Every step keeps the invariant and moves the lifecycle on. -/
theorem System.Controlled.step (h : s.Controlled) {a : Action} (hStep : s.step a = some s') :
    s'.Controlled ∧ Forward s.supervisor.state s'.supervisor.state := by
  cases System.moves_of_step hStep with
  | refused => exact ⟨h, Forward.refl _⟩
  | @start v hStart =>
    obtain ⟨hState, rfl⟩ := Supervisor.start_eq_ok hStart
    have hOpen : ∀ call ∈ s.calls, call.pastEntry = true → False := by
      intro call hMem hPast
      have hDraining := h.control.draining call hMem hPast
      rw [hState] at hDraining
      exact hDraining.elim nofun nofun
    refine ⟨⟨⟨h.control.sound.start hStart, h.control.consumers, h.control.locked,
      fun call hMem hPast => (hOpen call hMem hPast).elim, fun hDone => ?_⟩, h.noErrors⟩, ?_⟩
    · have hTerminal := h.control.done hDone
      rw [hState] at hTerminal
      exact nomatch hTerminal
    · show Forward s.supervisor.state .running
      rw [hState]
      exact Or.inr (by decide)
  | @submit takes v task hSubmit =>
    obtain ⟨-, -, -, -, hNext⟩ := Supervisor.submit_eq_ok hSubmit
    have hState : v.state = s.supervisor.state := by rw [hNext]
    have hSame : v.activeConsumers = s.supervisor.activeConsumers := by rw [hNext]
    refine ⟨⟨⟨h.control.sound.submit hSubmit, ?_, h.control.locked, ?_, ?_⟩, h.noErrors⟩,
      Or.inl hState.symm⟩
    · exact hSame.trans h.control.consumers
    · show ∀ call ∈ s.calls, call.pastEntry = true → v.state = .draining ∨ v.state = .failed
      rw [hState]
      exact h.control.draining
    · show .drainDone ∈ s.calls → v.state.terminal = true
      rw [hState]
      exact h.control.done
  | wait hTake =>
    have hSound := h.control.sound.takePending hTake
    obtain ⟨-, -, rfl⟩ := Supervisor.takePending_eq_ok hTake
    exact ⟨⟨h.control.push hSound rfl (fun _ => rfl) rfl nofun, h.noErrors⟩, Forward.refl _⟩
  | report hRecord =>
    obtain ⟨e', hError, hSound⟩ := h.control.sound.recordFailure hRecord
    obtain rfl := Option.some.inj hError
    obtain ⟨e', -, -, rfl⟩ := Supervisor.recordFailure_eq_ok hRecord
    exact ⟨⟨h.control.push hSound rfl stop_of_closing rfl nofun, h.noErrors⟩, forward_stop _⟩
  | requestStop =>
    obtain ⟨-, hState, -, -, hSame⟩ := s.supervisor.requestStop_frame
    have hKept : s.supervisor.state.closing = true →
        s.supervisor.requestStop.state = s.supervisor.state :=
      fun hClosing => hState.trans (stop_of_closing hClosing)
    refine ⟨⟨⟨h.control.sound.requestStop, hSame.trans h.control.consumers, h.control.locked,
      fun call hMem hPast => ?_, fun hDone => ?_⟩, h.noErrors⟩, ?_⟩
    · show s.supervisor.requestStop.state = .draining ∨ s.supervisor.requestStop.state = .failed
      rw [hKept (h.control.closing_of_pastEntry hMem hPast)]
      exact h.control.draining call hMem hPast
    · have hTerminal := h.control.done hDone
      have hClosing : s.supervisor.state.closing = true := by
        cases hWas : s.supervisor.state <;>
          simp_all [LifecycleState.terminal, LifecycleState.closing]
      show s.supervisor.requestStop.state.terminal = true
      rw [hKept hClosing]
      exact hTerminal
    · show Forward _ s.supervisor.requestStop.state
      rw [hState]
      exact forward_stop _
  | drain hFree =>
    refine ⟨⟨⟨h.control.sound, ?_, ?_, forall_mem_append_one (fun hNo => nomatch hNo)
      h.control.draining, fun hDone => ?_⟩, h.noErrors⟩, Forward.refl _⟩
    · rw [total_append_one]
      exact h.control.consumers
    · have hLocked := h.control.locked
      rw [total_append_one, hLocked, hFree]
      rfl
    · rcases List.mem_append.mp hDone with hOld | hNew
      · exact h.control.done hOld
      · exact nomatch List.mem_singleton.mp hNew
  | advance hCall hNext => exact h.advance hCall hNext

end Step

/-- A new supervisor. -/
theorem controlled_init : System.Controlled {} :=
  ⟨⟨⟨fun _ => rfl, rfl, fun _ => rfl, fun hNo => (nomatch hNo), fun hNo => (nomatch hNo),
    fun hNo => (nomatch hNo), fun _ => rfl, Nat.zero_le _⟩, rfl, rfl,
    fun _ hNo => absurd hNo List.not_mem_nil, fun hNo => absurd hNo List.not_mem_nil⟩, rfl⟩

/-- The invariant along every run. -/
theorem controlled_of_run {actions : List Action} {s : System} (hRun : run actions = some s) :
    s.Controlled :=
  runEvents_invariant (fun h hStep => (System.Controlled.step h hStep).1) controlled_init hRun

end Ithax.Runtime
