import Ithax.Lib.Interleaving
import Mathlib.Data.Multiset.Basic

/-!
# The runtime supervisor

`runtime/runtime_supervisor.cpp` over `jobs/job_runtime.cpp`. Every section of code
under `m_submission_mutex` or the job runtime's mutex is one function below; the
calls that let go of the mutex in between are the states of `Call`, and `step` lets
any thread begin a call or any call go on by one section.

The outcome of a job, of the executor and of the wait for all jobs is whatever the
step says.
-/

namespace Ithax.Runtime

open Ithax.Lib

/-- How many tasks may be pending. -/
def MAX_PENDING_RUNTIME_TASKS : Nat := 4096

/-- The number of a task. -/
abbrev TaskId := Nat

/-- `std::numeric_limits<TaskId>::max()`. -/
def MAX_TASK_ID : TaskId := 2 ^ 64 - 1

/-- An exception in flight. -/
inductive Exn where
  | runtimeSupervisorError (what : String)
  | jobRuntimeError (what : String)
  | jobExecutionError (cause : Nat)
  | other (cause : Nat)
  deriving DecidableEq, Repr

-- ---------------------------------------------------------------------------
-- Job runtime
-- ---------------------------------------------------------------------------

/-- The states of `JobRuntime`. -/
inductive RuntimeState where
  | running | stopRequested | draining | stopped
  deriving DecidableEq, Repr

/-- A handle on the result of a job; `valid` until it is consumed. -/
structure TaskHandle where
  job : Nat
  valid : Bool
  deriving DecidableEq, Repr

/-- `TaskHandle::Wait` on a job that ends with `result`. -/
def TaskHandle.wait (handle : TaskHandle) (result : Option Nat) : Option Exn :=
  if handle.valid then result.map .jobExecutionError
  else some (.jobRuntimeError "job handle has no unconsumed result")

/-- `JobRuntime`. -/
structure JobRuntime where
  state : RuntimeState := .running
  /-- The runs the executor has taken. -/
  runs : Nat := 0
  deriving DecidableEq, Repr

namespace JobRuntime

/-- `Submit` and `SubmitReusable`, with an executor that takes the job or throws. -/
def submit (j : JobRuntime) (takes : Bool) : Except Exn (JobRuntime × TaskHandle) :=
  if j.state ≠ .running then
    .error (.jobRuntimeError "job submission rejected after stop request")
  else if takes then .ok ({ j with runs := j.runs + 1 }, { job := j.runs, valid := true })
  else .error (.jobRuntimeError "job submission failed")

/-- `JobRuntime::RequestStop`. -/
def requestStop (j : JobRuntime) : JobRuntime :=
  if j.state = .running then { j with state := .stopRequested } else j

/-- `Drain` up to the wait for all jobs, unless there is nothing to drain. -/
def beginDrain (j : JobRuntime) : Option JobRuntime :=
  if j.state = .stopped then none else some { j with state := .draining }

/-- The last section of `JobRuntime::Drain`. -/
def finishDrain (j : JobRuntime) : JobRuntime := { j with state := .stopped }

end JobRuntime

-- ---------------------------------------------------------------------------
-- Supervisor
-- ---------------------------------------------------------------------------

/-- The states of the supervisor. -/
inductive LifecycleState where
  | starting | running | stopRequested | draining | stopped | failed
  deriving DecidableEq, Repr

/-- Where a failure comes from. -/
inductive FailureSource where
  | job | owner | frameChannel
  deriving DecidableEq, Repr

/-- A failure: its source and its exception. -/
structure RuntimeFailure where
  source : FailureSource
  error : Exn
  deriving DecidableEq, Repr

/-- A task with its handle. -/
structure PendingTask where
  id : TaskId
  handle : TaskHandle
  deriving DecidableEq, Repr

/-- `RuntimeSupervisor`. -/
structure Supervisor where
  jobs : JobRuntime := {}
  state : LifecycleState := .starting
  failure : Option RuntimeFailure := none
  pendingTasks : List PendingTask := []
  nextTaskId : TaskId := 1
  activeConsumers : Nat := 0
  deriving DecidableEq, Repr

namespace Supervisor

/-- `Start`. -/
def start (v : Supervisor) : Except Exn Supervisor :=
  if v.state ≠ .starting then
    .error (.runtimeSupervisorError "runtime supervisor was already started")
  else if v.failure.isSome then
    .error (.runtimeSupervisorError "runtime supervisor cannot start after a failure")
  else .ok { v with state := .running }

/-- `Submit` and `SubmitReusable`. -/
def submit (v : Supervisor) (takes : Bool) : Except Exn (Supervisor × PendingTask) := do
  if v.state ≠ .running then
    throw (.runtimeSupervisorError "runtime submission rejected outside the running state")
  if MAX_PENDING_RUNTIME_TASKS ≤ v.pendingTasks.length then
    throw (.runtimeSupervisorError "runtime pending-task bound was exceeded")
  if v.nextTaskId = MAX_TASK_ID then
    throw (.runtimeSupervisorError "runtime task identifier exhausted")
  let (jobs, handle) ← v.jobs.submit takes
  let task : PendingTask := { id := v.nextTaskId, handle }
  return ({ v with
    jobs
    nextTaskId := v.nextTaskId + 1
    pendingTasks := v.pendingTasks ++ [task] }, task)

/-- `Wait` up to the wait on the handle. -/
def takePending (v : Supervisor) (id : TaskId) : Except Exn (Supervisor × PendingTask) :=
  if id = 0 then .error (.runtimeSupervisorError "runtime task identifier is invalid")
  else
    match v.pendingTasks.find? fun task => task.id = id with
    | none => .error (.runtimeSupervisorError "runtime task identifier was not pending")
    | some task =>
      .ok ({ v with
        pendingTasks := v.pendingTasks.erase task
        activeConsumers := v.activeConsumers + 1 }, task)

/-- `RecordFailure`: the first failure is kept. -/
def recordFailure (v : Supervisor) (source : FailureSource) (error : Option Exn) :
    Except Exn Supervisor :=
  match error with
  | none => .error (.runtimeSupervisorError "runtime failure has no exception")
  | some error =>
    if v.state = .stopped then
      .error (.runtimeSupervisorError "runtime failure was reported after shutdown")
    else .ok { v with
      failure := v.failure.or (some { source, error })
      state := if v.state = .starting ∨ v.state = .running then .stopRequested else v.state }

/-- `RequestStop`. -/
def requestStop (v : Supervisor) : Supervisor :=
  let v := { v with
    state := if v.state = .starting ∨ v.state = .running then .stopRequested else v.state }
  if v.state = .stopped then v else { v with jobs := v.jobs.requestStop }

/-- `ReleaseConsumer`. -/
def releaseConsumer (v : Supervisor) : Except Exn Supervisor :=
  if v.activeConsumers = 0 then
    .error (.runtimeSupervisorError "runtime consumer count underflowed")
  else .ok { v with activeConsumers := v.activeConsumers - 1 }

/-- The first section of `Drain`: the tasks to wait for, unless all is over. -/
def beginDrain (v : Supervisor) : Option (Supervisor × List PendingTask) :=
  if v.state = .stopped then none
  else
    let state := if v.state = .starting ∨ v.state = .running ∨ v.state = .stopRequested
      then .draining else v.state
    some ({ v with state, jobs := v.jobs.requestStop, pendingTasks := [] }, v.pendingTasks)

/-- The last section of `Drain`. -/
def finishDrain (v : Supervisor) : Supervisor :=
  { v with state := if v.failure.isSome then .failed else .stopped }

end Supervisor

-- ---------------------------------------------------------------------------
-- Calls
-- ---------------------------------------------------------------------------

/-- Where a call that is not a single section stands. -/
inductive Call where
  /-- `Wait` has taken the task. -/
  | waiting (task : PendingTask)
  /-- The wait on the handle threw. -/
  | waitFailed (error : Exn)
  | waitRecorded (error : Exn)
  /-- `Wait` is about to release its consumer, and to throw. -/
  | releasing (thrown : Option Exn)
  | waitDone (thrown : Option Exn)
  | reportRecorded (failure : RuntimeFailure)
  | reportDone
  /-- `Drain` holds its mutex. -/
  | drainEntered
  | drainConsuming (tasks : List PendingTask)
  | drainFailed (error : Exn) (tasks : List PendingTask)
  | drainRecorded (tasks : List PendingTask)
  | drainJobs
  | drainJobsWaiting
  | drainJobsFailed (error : Exn)
  | drainJobsRecorded
  | drainFinishing
  | drainDone
  | drainThrew (error : Exn)
  deriving DecidableEq, Repr

/-- What the threads do next. The result of a job is that of the wait that goes on. -/
inductive Action where
  | start
  | submit (takes : Bool)
  | submitReusable (takes : Bool)
  | wait (id : TaskId)
  | reportFailure (source : FailureSource) (error : Option Exn)
  | requestStop
  | drain
  | advance (call : Nat) (result : Option Nat)
  deriving DecidableEq, Repr

/-- The supervisor with the calls on it, and what has happened so far. -/
structure System where
  supervisor : Supervisor := {}
  drainLocked : Bool := false
  calls : List Call := []
  accepted : List PendingTask := []
  consumed : List PendingTask := []
  /-- Job failures that `Wait` or `Drain` caught, and reports that returned. -/
  seen : List RuntimeFailure := []
  /-- The failures that `RecordFailure` took. -/
  recorded : List RuntimeFailure := []
  /-- What the supervisor itself threw inside `Wait` or `Drain`. -/
  internalErrors : List Exn := []

namespace System

/-- `RecordFailure` inside a call, which goes on or fails. -/
def record (s : System) (i : Nat) (failure : RuntimeFailure) (next : Call) (threw : Exn → System) :
    System :=
  match s.supervisor.recordFailure failure.source (some failure.error) with
  | .ok v =>
    { s with supervisor := v, calls := s.calls.set i next, recorded := s.recorded ++ [failure] }
  | .error e => { threw e with internalErrors := s.internalErrors ++ [e] }

/-- An exception leaves `Drain`, which gives its mutex back. -/
def abandonDrain (s : System) (i : Nat) (e : Exn) : System :=
  { s with calls := s.calls.set i (.drainThrew e), drainLocked := false }

/-- `RequestStop` inside a call. -/
def stop (s : System) (i : Nat) (next : Call) : System :=
  { s with supervisor := s.supervisor.requestStop, calls := s.calls.set i next }

/-- The wait on a handle inside a call. -/
def consume (s : System) (i : Nat) (task : PendingTask) (result : Option Nat) (next : Call)
    (failed : Exn → Call) : System :=
  let s := { s with consumed := s.consumed ++ [task] }
  match task.handle.wait result with
  | none => { s with calls := s.calls.set i next }
  | some e =>
    { s with calls := s.calls.set i (failed e), seen := s.seen ++ [{ source := .job, error := e }] }

/-- A call goes on by one section. -/
def advance (s : System) (i : Nat) (result : Option Nat) : Call → Option System
  | .waiting task => some (s.consume i task result (.releasing none) .waitFailed)
  | .waitFailed e =>
    some (s.record i { source := .job, error := e } (.waitRecorded e) fun e' =>
      { s with calls := s.calls.set i (.releasing (some e')) })
  | .waitRecorded e => some (s.stop i (.releasing (some e)))
  | .releasing thrown =>
    match s.supervisor.releaseConsumer with
    | .ok v => some { s with supervisor := v, calls := s.calls.set i (.waitDone thrown) }
    | .error e => some { s with
        calls := s.calls.set i (.waitDone (some e)), internalErrors := s.internalErrors ++ [e] }
  | .waitDone _ => none
  | .reportRecorded failure =>
    some { s.stop i .reportDone with seen := s.seen ++ [failure] }
  | .reportDone => none
  | .drainEntered =>
    match s.supervisor.beginDrain with
    | none => some { s with calls := s.calls.set i .drainDone, drainLocked := false }
    | some (v, tasks) =>
      some { s with supervisor := v, calls := s.calls.set i (.drainConsuming tasks) }
  | .drainConsuming (task :: tasks) =>
    some (s.consume i task result (.drainConsuming tasks) (.drainFailed · tasks))
  | .drainConsuming [] =>
    some { s with
      supervisor := { s.supervisor with pendingTasks := [] }, calls := s.calls.set i .drainJobs }
  | .drainFailed e tasks =>
    some (s.record i { source := .job, error := e } (.drainRecorded tasks) (s.abandonDrain i))
  | .drainRecorded tasks => some (s.stop i (.drainConsuming tasks))
  | .drainJobs =>
    match s.supervisor.jobs.beginDrain with
    | none => some { s with calls := s.calls.set i .drainFinishing }
    | some jobs => some { s with
        supervisor := { s.supervisor with jobs }, calls := s.calls.set i .drainJobsWaiting }
  | .drainJobsWaiting =>
    match result with
    | none => some { s with
        supervisor := { s.supervisor with jobs := s.supervisor.jobs.finishDrain }
        calls := s.calls.set i .drainFinishing }
    | some cause => some { s with
        calls := s.calls.set i (.drainJobsFailed (.other cause))
        seen := s.seen ++ [{ source := .job, error := .other cause }] }
  | .drainJobsFailed e =>
    some (s.record i { source := .job, error := e } .drainJobsRecorded (s.abandonDrain i))
  | .drainJobsRecorded => some (s.stop i .drainFinishing)
  | .drainFinishing =>
    if s.supervisor.activeConsumers = 0 then
      some { s with
        supervisor := s.supervisor.finishDrain
        calls := s.calls.set i .drainDone
        drainLocked := false }
    else none
  | .drainDone => none
  | .drainThrew _ => none

/-- A submission, whether the supervisor takes it or throws. -/
def submitTask (s : System) (takes : Bool) : System :=
  match s.supervisor.submit takes with
  | .ok (v, task) => { s with supervisor := v, accepted := s.accepted ++ [task] }
  | .error _ => s

/-- One step of one thread; `none` while it has to wait. A call that throws in its
first section leaves nothing behind. -/
def step (s : System) : Action → Option System
  | .start =>
    match s.supervisor.start with
    | .ok v => some { s with supervisor := v }
    | .error _ => some s
  | .submit takes => some (s.submitTask takes)
  | .submitReusable takes => some (s.submitTask takes)
  | .wait id =>
    match s.supervisor.takePending id with
    | .ok (v, task) => some { s with supervisor := v, calls := s.calls ++ [.waiting task] }
    | .error _ => some s
  | .reportFailure _ none => some s
  | .reportFailure source (some e) =>
    match s.supervisor.recordFailure source (some e) with
    | .ok v => some { s with
        supervisor := v
        calls := s.calls ++ [.reportRecorded { source, error := e }]
        recorded := s.recorded ++ [{ source, error := e }] }
    | .error _ => some s
  | .requestStop => some { s with supervisor := s.supervisor.requestStop }
  | .drain =>
    if s.drainLocked then none
    else some { s with calls := s.calls ++ [.drainEntered], drainLocked := true }
  | .advance i result => s.calls[i]?.bind (s.advance i result)

end System

/-- A run of the threads from a fresh supervisor. -/
def run (actions : List Action) : Option System := runEvents System.step {} actions

end Ithax.Runtime
