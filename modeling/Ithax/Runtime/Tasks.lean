import Ithax.Runtime.Lifecycle
import Mathlib.Algebra.Order.Group.Multiset
import Mathlib.Tactic.Abel

/-!
# Tasks

No task is lost: one that was accepted is pending, or in the hands of one `Wait` or
`Drain`, or its handle has been waited for once.

## Results

* `Kept.step`     — where the accepted tasks are, step by step.
* `tasks_of_run`  — where the accepted tasks are, and who holds them, along every run.
-/

namespace Ithax.Runtime

open Ithax.Lib

namespace Call

/-- The tasks that the call has taken and not waited for. -/
def tasks : Call → List PendingTask
  | waiting task => [task]
  | drainConsuming tasks | drainFailed _ tasks | drainRecorded tasks => tasks
  | _ => []

/-- The tasks that a call has in its hands. -/
def taken (call : Call) : Multiset PendingTask := call.tasks

end Call

/-- Every task that was accepted is pending, in the hands of a call or consumed. -/
structure Kept (v : Supervisor) (calls : List Call) (accepted consumed : List PendingTask) :
    Prop where
  conserved : (accepted : Multiset PendingTask) =
    v.pendingTasks + total Call.taken calls + consumed
  increasing : accepted.Pairwise fun a b => a.id < b.id
  issued : ∀ task ∈ accepted, 0 < task.id ∧ task.id < v.nextTaskId ∧ task.handle.valid = true
  nextId : 0 < v.nextTaskId ∧ v.nextTaskId ≤ MAX_TASK_ID
  drained : v.state.terminal = true → ∀ call ∈ calls, call.tasks = []

namespace Kept

variable {v v' : Supervisor} {calls : List Call} {accepted consumed : List PendingTask}
  {i : Nat} {call next : Call}

/-- A call goes on and waits for the tasks `used`. -/
theorem move (h : Kept v calls accepted consumed) (hCall : calls[i]? = some call)
    {used : List PendingTask} (hTasks : call.tasks = used ++ next.tasks)
    (hPending : v'.pendingTasks = v.pendingTasks) (hNext : v'.nextTaskId = v.nextTaskId)
    (hTerminal : v'.state.terminal = true → v.state.terminal = true) :
    Kept v' (calls.set i next) accepted (consumed ++ used) := by
  refine ⟨?_, h.increasing, hNext ▸ h.issued, hNext ▸ h.nextId, fun hOver => ?_⟩
  · have hTotal := total_set Call.taken next hCall
    have hTaken : call.taken = used + next.taken := by
      rw [Call.taken, hTasks, ← Multiset.coe_add]
      rfl
    rw [hTaken, ← add_assoc] at hTotal
    have hTotal := add_right_cancel hTotal
    rw [h.conserved, hPending, ← hTotal, ← Multiset.coe_add]
    abel
  · have hEmpty := h.drained (hTerminal hOver)
    refine forall_mem_set ?_ hEmpty
    have hNone := hEmpty call (List.mem_of_getElem? hCall)
    rw [hTasks] at hNone
    exact (List.append_eq_nil_iff.mp hNone).2

/-- A call goes on and keeps the tasks it has. -/
theorem quiet (h : Kept v calls accepted consumed) (hCall : calls[i]? = some call)
    (hTasks : call.tasks = next.tasks) (hPending : v'.pendingTasks = v.pendingTasks)
    (hNext : v'.nextTaskId = v.nextTaskId)
    (hTerminal : v'.state.terminal = true → v.state.terminal = true) :
    Kept v' (calls.set i next) accepted consumed := by
  have hNone : call.tasks = [] ++ next.tasks := hTasks
  have hMoved := h.move hCall hNone hPending hNext hTerminal
  rwa [List.append_nil] at hMoved

/-- A call begins that has taken nothing. -/
theorem push (h : Kept v calls accepted consumed) (hTasks : call.tasks = []) :
    Kept v (calls ++ [call]) accepted consumed := by
  refine ⟨?_, h.increasing, h.issued, h.nextId, fun hOver =>
    forall_mem_append_one hTasks (h.drained hOver)⟩
  rw [total_append_one, Call.taken, hTasks, Multiset.coe_nil, add_zero]
  exact h.conserved

/-- The supervisor alone changes. -/
theorem withSupervisor (h : Kept v calls accepted consumed)
    (hPending : v'.pendingTasks = v.pendingTasks) (hNext : v'.nextTaskId = v.nextTaskId)
    (hTerminal : v'.state.terminal = true → v.state.terminal = true) :
    Kept v' calls accepted consumed :=
  ⟨hPending ▸ h.conserved, h.increasing, hNext ▸ h.issued, hNext ▸ h.nextId,
    fun hOver => h.drained (hTerminal hOver)⟩

/-- `Submit` accepts a task, which is pending from then on. -/
theorem submit (h : Kept v calls accepted consumed) {takes : Bool} {task : PendingTask}
    (hSubmit : v.submit takes = .ok (v', task)) : Kept v' calls (accepted ++ [task]) consumed := by
  obtain ⟨-, -, hLast, rfl, rfl⟩ := Supervisor.submit_eq_ok hSubmit
  refine ⟨?_, ?_, forall_mem_append_one ?_ fun other hOther => ?_, ⟨?_, ?_⟩, h.drained⟩
  · rw [← Multiset.coe_add, h.conserved, ← Multiset.coe_add]
    abel
  · refine List.pairwise_append.mpr ⟨h.increasing, List.pairwise_singleton _ _, ?_⟩
    intro old hOld new hNew
    rw [List.mem_singleton.mp hNew]
    exact (h.issued old hOld).2.1
  · exact ⟨h.nextId.1, Nat.lt_succ_self _, rfl⟩
  · obtain ⟨hPos, hLt, hValid⟩ := h.issued other hOther
    exact ⟨hPos, Nat.lt_succ_of_lt hLt, hValid⟩
  · exact Nat.succ_pos _
  · exact Nat.lt_of_le_of_ne h.nextId.2 hLast

/-- `Wait` takes a task out of the pending ones. -/
theorem take (h : Kept v calls accepted consumed) {id : TaskId} {task : PendingTask}
    (hTake : v.takePending id = .ok (v', task)) (hOpen : v.state.terminal = false) :
    Kept v' (calls ++ [.waiting task]) accepted consumed := by
  obtain ⟨hMem, -, rfl⟩ := Supervisor.takePending_eq_ok hTake
  refine ⟨?_, h.increasing, h.issued, h.nextId, fun hOver => ?_⟩
  · have hErase : (v.pendingTasks : Multiset PendingTask) =
        {task} + (v.pendingTasks.erase task : List PendingTask) := by
      rw [Multiset.singleton_add, Multiset.cons_coe]
      exact Multiset.coe_eq_coe.mpr (List.perm_cons_erase hMem)
    rw [h.conserved, hErase, total_append_one]
    show _ = _ + (_ + ({task} : Multiset PendingTask)) + _
    abel
  · exact nomatch hOpen.symm.trans hOver

/-- `Drain` takes all pending tasks. -/
theorem enter (h : Kept v calls accepted consumed) (hCall : calls[i]? = some .drainEntered)
    {recorded : List RuntimeFailure} (hSound : v.Sound recorded) {tasks : List PendingTask}
    (hDrain : v.beginDrain = some (v', tasks)) :
    Kept v' (calls.set i (.drainConsuming tasks)) accepted consumed := by
  obtain ⟨-, rfl, hPending, -, -, hNext, hState⟩ := Supervisor.beginDrain_eq_some hDrain
  refine ⟨?_, h.increasing, hNext ▸ h.issued, hNext ▸ h.nextId, fun hOver => ?_⟩
  · have hTotal := total_set Call.taken (.drainConsuming v.pendingTasks) hCall
    rw [show Call.taken .drainEntered = 0 from rfl, add_zero] at hTotal
    rw [hPending, hTotal, h.conserved]
    show _ = 0 + (_ + (v.pendingTasks : Multiset PendingTask)) + _
    abel
  · -- a supervisor that is over has failed before, and has nothing pending
    rcases hState with ⟨hNow, -⟩ | ⟨-, hWas⟩
    · rw [hNow] at hOver
      exact nomatch hOver
    · refine forall_mem_set ?_ (h.drained (by rw [hWas]; rfl))
      exact hSound.closed (by rw [hWas]; rfl)

end Kept

-- ---------------------------------------------------------------------------
-- Steps
-- ---------------------------------------------------------------------------

/-- A stop does not end a life. -/
theorem terminal_of_stop {state : LifecycleState}
    (h : (if state = .starting ∨ state = .running then LifecycleState.stopRequested
      else state).terminal = true) : state.terminal = true := by
  cases state <;> simp_all [LifecycleState.terminal]

/-- The tasks of a system are where they should be. -/
abbrev System.Kept (s : System) : Prop :=
  Runtime.Kept s.supervisor s.calls s.accepted s.consumed

section Step

variable {s s' : System} {i : Nat} {call next : Call}

/-- A task is run: it is out of the hands of its call. -/
theorem System.Kept.consume (h : s.Kept) (hCall : s.calls[i]? = some call) {task : PendingTask}
    {failed : Exn → Call} (hNext : call.tasks = [task] ++ next.tasks)
    (hFailed : ∀ e, call.tasks = [task] ++ (failed e).tasks) (result : Option Nat) :
    (s.consume i task result next failed).Kept := by
  unfold System.consume
  rcases task.handle.wait result with - | e
  · exact Kept.move h hCall hNext rfl rfl id
  · exact Kept.move h hCall (hFailed e) rfl rfl id

/-- A stop leaves the tasks where they are. -/
theorem System.Kept.stop (h : s.Kept) (hCall : s.calls[i]? = some call)
    (hTasks : call.tasks = next.tasks) : (s.stop i next).Kept := by
  obtain ⟨-, hState, hPending, hNext, -⟩ := s.supervisor.requestStop_frame
  exact Kept.quiet h hCall hTasks hPending hNext fun hOver => terminal_of_stop (hState ▸ hOver)

/-- So does the record of a failure. -/
theorem System.Kept.record (h : s.Kept) (hCall : s.calls[i]? = some call)
    (hOpen : s.supervisor.state ≠ .stopped) (hTasks : call.tasks = next.tasks)
    (failure : RuntimeFailure) (threw : Exn → System) : (s.record i failure next threw).Kept := by
  unfold System.record
  rw [Supervisor.recordFailure_of_open hOpen]
  exact Kept.quiet h hCall hTasks rfl rfl terminal_of_stop

/-- `Drain` returns: no `Wait` is outstanding and no other `Drain` is under way, so
nobody holds a task. -/
theorem System.Kept.finish (h : s.Kept) (hControlled : s.Controlled)
    (hCall : s.calls[i]? = some call) (hDrains : call.drains = 1) (hTasks : call.tasks = [])
    (hIdle : s.supervisor.activeConsumers = 0) {v : Supervisor}
    (hPending : v.pendingTasks = s.supervisor.pendingTasks)
    (hNext : v.nextTaskId = s.supervisor.nextTaskId) :
    Runtime.Kept v (s.calls.set i .drainDone) s.accepted s.consumed := by
  have hSame : Runtime.Kept { v with state := .starting } (s.calls.set i .drainDone) s.accepted
      s.consumed := Kept.quiet h hCall hTasks hPending hNext nofun
  refine ⟨hSame.conserved, hSame.increasing, hSame.issued, hSame.nextId, fun _ other hOther => ?_⟩
  have hNoDrain := total_eq_zero (hControlled.control.total_drains_set hCall hDrains .drainDone)
    hOther
  have hNoWait : other.consumers = 0 := by
    rcases List.mem_or_eq_of_mem_set hOther with hOld | rfl
    · exact total_eq_zero (hControlled.control.consumers.symm.trans hIdle) hOld
    · rfl
  rcases other <;> simp_all [Call.tasks, Call.consumers, Call.drains, Call.pastEntry]

/-- A call goes on by one section. -/
theorem System.Kept.advance (h : s.Kept) (hControlled : s.Controlled)
    (hCall : s.calls[i]? = some call) {result : Option Nat}
    (hStep : s.advance i result call = some s') : s'.Kept := by
  cases call with
  | waiting task =>
    obtain rfl := Option.some.inj hStep
    exact h.consume hCall rfl (fun _ => rfl) result
  | waitFailed e =>
    obtain rfl := Option.some.inj hStep
    exact h.record hCall (hControlled.not_stopped_of_consumer hCall rfl) (by exact rfl) _ _
  | waitRecorded e =>
    obtain rfl := Option.some.inj hStep
    exact h.stop hCall rfl
  | releasing thrown =>
    rw [System.advance] at hStep
    unfold Supervisor.releaseConsumer at hStep
    split at hStep <;> rename_i hRelease
    · split at hRelease
      · cases hRelease
      · obtain rfl := Except.ok.inj hRelease
        obtain rfl := Option.some.inj hStep
        exact Kept.quiet h hCall rfl rfl rfl id
    · obtain rfl := Option.some.inj hStep
      exact Kept.quiet h hCall rfl rfl rfl id
  | waitDone thrown => cases hStep
  | reportRecorded failure =>
    obtain rfl := Option.some.inj hStep
    have hStopped : (s.stop i .reportDone).Kept := h.stop hCall rfl
    exact hStopped
  | reportDone => cases hStep
  | drainEntered =>
    rw [System.advance] at hStep
    rcases hDrain : s.supervisor.beginDrain with - | ⟨v, tasks⟩
    · rw [hDrain] at hStep
      obtain rfl := Option.some.inj hStep
      exact Kept.quiet h hCall rfl rfl rfl id
    · rw [hDrain] at hStep
      obtain rfl := Option.some.inj hStep
      exact Kept.enter h hCall hControlled.control.sound hDrain
  | drainConsuming tasks =>
    rcases tasks with - | ⟨task, tasks⟩
    · obtain rfl := Option.some.inj hStep
      have hEmpty := hControlled.control.sound.closed
        (hControlled.control.closing_of_pastEntry (List.mem_of_getElem? hCall) rfl)
      exact Kept.quiet h hCall rfl hEmpty.symm rfl id
    · obtain rfl := Option.some.inj hStep
      exact h.consume hCall rfl (fun _ => rfl) result
  | drainFailed e tasks =>
    obtain rfl := Option.some.inj hStep
    exact h.record hCall (hControlled.not_stopped_of_pastEntry hCall rfl) (by exact rfl) _ _
  | drainRecorded tasks =>
    obtain rfl := Option.some.inj hStep
    exact h.stop hCall rfl
  | drainJobs =>
    rw [System.advance] at hStep
    rcases hDrain : s.supervisor.jobs.beginDrain with - | jobs <;> rw [hDrain] at hStep <;>
      obtain rfl := Option.some.inj hStep <;> exact Kept.quiet h hCall rfl rfl rfl id
  | drainJobsWaiting =>
    rcases result with - | cause <;> obtain rfl := Option.some.inj hStep <;>
      exact Kept.quiet h hCall rfl rfl rfl id
  | drainJobsFailed e =>
    obtain rfl := Option.some.inj hStep
    exact h.record hCall (hControlled.not_stopped_of_pastEntry hCall rfl) (by exact rfl) _ _
  | drainJobsRecorded =>
    obtain rfl := Option.some.inj hStep
    exact h.stop hCall rfl
  | drainFinishing =>
    rw [System.advance] at hStep
    split at hStep
    · rename_i hIdle
      obtain rfl := Option.some.inj hStep
      exact h.finish hControlled hCall rfl rfl hIdle rfl rfl
    · cases hStep
  | drainDone => cases hStep
  | drainThrew e => cases hStep

/-- A step of the runtime. -/
theorem System.Kept.step (h : s.Kept) (hControlled : s.Controlled) {a : Action}
    (hStep : s.step a = some s') : s'.Kept := by
  cases System.moves_of_step hStep with
  | refused => exact h
  | start hStart =>
    obtain ⟨-, rfl⟩ := Supervisor.start_eq_ok hStart
    exact Kept.withSupervisor h rfl rfl nofun
  | submit hSubmit => exact Kept.submit h hSubmit
  | wait hTake =>
    refine Kept.take h hTake ?_
    -- something is pending, so the supervisor is not over
    obtain ⟨hMem, -, -⟩ := Supervisor.takePending_eq_ok hTake
    by_contra hOver
    have hClosing : s.supervisor.state.closing = true := by
      cases hState : s.supervisor.state <;>
        simp_all [LifecycleState.terminal, LifecycleState.closing]
    rw [hControlled.control.sound.closed hClosing] at hMem
    exact List.not_mem_nil hMem
  | report hRecord =>
    obtain ⟨-, -, -, rfl⟩ := Supervisor.recordFailure_eq_ok hRecord
    exact Kept.push (Kept.withSupervisor h rfl rfl terminal_of_stop) rfl
  | requestStop =>
    obtain ⟨-, hState, hPending, hNext, -⟩ := s.supervisor.requestStop_frame
    exact Kept.withSupervisor h hPending hNext fun hOver => terminal_of_stop (hState ▸ hOver)
  | drain hFree => exact Kept.push h rfl
  | advance hCall hNext => exact h.advance hControlled hCall hNext

end Step

/-- No task is lost or run twice in any run. -/
theorem kept_of_run {actions : List Action} {s : System} (hRun : run actions = some s) :
    s.Kept := by
  have hStart : System.Controlled {} ∧ System.Kept {} :=
    ⟨controlled_init, rfl, List.Pairwise.nil, nofun, by decide, nofun⟩
  have hBoth : s.Controlled ∧ s.Kept :=
    runEvents_invariant (I := fun s => s.Controlled ∧ s.Kept)
      (fun h hStep => ⟨(h.1.step hStep).1, h.2.step h.1 hStep⟩) hStart hRun
  exact hBoth.2

/-- The accepted tasks along every run: their ids are fresh and increase, each is
pending, taken or consumed, and consumed at most once, by the time a `Drain` returns
exactly once; the list that `Drain` clears is empty; and the consumers are the `Wait`s
that have taken a task, of which none is left when the supervisor is over. -/
theorem tasks_of_run {actions : List Action} {s : System} (hRun : run actions = some s) :
    s.accepted.Pairwise (fun a b => a.id < b.id) ∧
    (∀ task ∈ s.accepted, 0 < task.id ∧ task.id < s.supervisor.nextTaskId) ∧
    s.supervisor.nextTaskId ≤ MAX_TASK_ID ∧
    s.supervisor.pendingTasks.length ≤ MAX_PENDING_RUNTIME_TASKS ∧
    (s.accepted : Multiset PendingTask) =
      s.supervisor.pendingTasks + total Call.taken s.calls + s.consumed ∧
    s.consumed.Nodup ∧ (∀ task ∈ s.consumed, task.handle.valid = true) ∧
    (.drainDone ∈ s.calls → s.consumed.Perm s.accepted) ∧
    (.drainConsuming [] ∈ s.calls → s.supervisor.pendingTasks = []) ∧
    s.supervisor.activeConsumers = total Call.consumers s.calls ∧
    (s.supervisor.state.terminal = true → ∀ call ∈ s.calls, call.consumers = 0) ∧
    s.internalErrors = [] := by
  have h := controlled_of_run hRun
  have hKept := kept_of_run hRun
  have hNodup : s.accepted.Nodup := hKept.increasing.imp fun hLt hEq => by
    rw [hEq] at hLt
    exact Nat.lt_irrefl _ hLt
  have hConsumed : (s.consumed : Multiset PendingTask) ≤ s.accepted := by
    rw [hKept.conserved]
    exact Multiset.le_add_left _ _
  refine ⟨hKept.increasing, fun task hTask => ⟨(hKept.issued task hTask).1,
    (hKept.issued task hTask).2.1⟩, hKept.nextId.2, h.control.sound.bounded, hKept.conserved,
    ?_, fun task hTask => ?_, fun hDone => ?_, fun hClearing => ?_, h.control.consumers,
    fun hOver call hCall => ?_, h.noErrors⟩
  · exact Multiset.coe_nodup.mp (Multiset.nodup_of_le hConsumed (Multiset.coe_nodup.mpr hNodup))
  · have hMem : task ∈ s.accepted := Multiset.mem_of_le hConsumed (Multiset.mem_coe.mpr hTask)
    exact (hKept.issued task hMem).2.2
  · have hOver := h.control.done hDone
    have hClosing : s.supervisor.state.closing = true := by
      cases hState : s.supervisor.state <;>
        simp_all [LifecycleState.terminal, LifecycleState.closing]
    have hNone : total Call.taken s.calls = 0 := by
      refine List.sum_eq_zero fun taken hTaken => ?_
      obtain ⟨call, hCall, rfl⟩ := List.mem_map.mp hTaken
      rw [Call.taken, hKept.drained hOver call hCall, Multiset.coe_nil]
    have hAll := hKept.conserved
    rw [h.control.sound.closed hClosing, hNone, Multiset.coe_nil, zero_add, zero_add] at hAll
    exact (Multiset.coe_eq_coe.mp hAll).symm
  · exact h.control.sound.closed (h.control.closing_of_pastEntry hClearing rfl)
  · have hIdle := h.control.sound.idle hOver
    exact total_eq_zero (h.control.consumers.symm.trans hIdle) hCall

/-- One task is waited for twice, two are drained, one comes too late. -/
def drainedActions : List Action :=
  [.start, .submit true, .submitReusable true, .submit true, .wait 2, .wait 2, .drain,
    .advance 1 none, .submit true, .advance 1 none, .advance 1 none, .advance 1 none,
    .advance 1 none, .advance 1 none, .advance 0 none, .advance 0 none, .advance 1 none]

/-- Three tasks, one of them waited for and the others drained. -/
theorem tasks_of_run_drainedActions : ∃ s, run drainedActions = some s ∧
    s.consumed.map PendingTask.id = [1, 3, 2] ∧ s.consumed.Perm s.accepted := by
  obtain ⟨s, hRun, hIds, hDone⟩ : ∃ s, run drainedActions = some s ∧
      s.consumed.map PendingTask.id = [1, 3, 2] ∧ .drainDone ∈ s.calls :=
    ⟨_, rfl, rfl, by decide⟩
  obtain ⟨-, -, -, -, -, -, -, hDrained, -⟩ := tasks_of_run hRun
  exact ⟨s, hRun, hIds, hDrained hDone⟩

end Ithax.Runtime
