import Ithax.Runtime.Lifecycle

/-!
# Failures

No failure is lost: a job failure that `Wait` or `Drain` catches and a report that
returns are recorded, and nothing else is.

## Results

* `Logged.step`       — the failures seen and the failures recorded, step by step.
* `lifecycle_of_run`  — the lifecycle and the failures along every run.
-/

namespace Ithax.Runtime

open Ithax.Lib

namespace Call

/-- A job failure that was caught and is about to be recorded. -/
def unrecorded : Call → Option RuntimeFailure
  | waitFailed e | drainFailed e _ | drainJobsFailed e => some { source := .job, error := e }
  | _ => none

/-- A failure that was recorded by a report that is about to return. -/
def unreturned : Call → Option RuntimeFailure
  | reportRecorded failure => some failure
  | _ => none

end Call

/-- The failures that threads have seen and the failures that the supervisor has recorded are the
same, up to those that a call is about to record or to return. -/
structure Logged (seen recorded : List RuntimeFailure) (calls : List Call) : Prop where
  ofSeen : ∀ f ∈ seen, f ∈ recorded ∨ ∃ call ∈ calls, call.unrecorded = some f
  ofRecorded : ∀ f ∈ recorded, f ∈ seen ∨ ∃ call ∈ calls, call.unreturned = some f
  caught : ∀ call ∈ calls, ∀ f, call.unrecorded = some f → f ∈ seen
  reported : ∀ call ∈ calls, ∀ f, call.unreturned = some f → f ∈ recorded

namespace Logged

variable {seen recorded : List RuntimeFailure} {calls : List Call} {i : Nat} {call next : Call}

/-- A call goes on: what it had caught is recorded, what it had recorded is returned. -/
theorem move (h : Logged seen recorded calls) (hCall : calls[i]? = some call)
    {seen' recorded' : List RuntimeFailure} (hSeen : seen ⊆ seen') (hRecorded : recorded ⊆ recorded')
    (hNewSeen : ∀ f ∈ seen', f ∈ seen ∨ f ∈ recorded' ∨ next.unrecorded = some f)
    (hNewRecorded : ∀ f ∈ recorded', f ∈ recorded ∨ f ∈ seen')
    (hCaught : ∀ f, next.unrecorded = some f → f ∈ seen')
    (hDone : ∀ f, call.unrecorded = some f → f ∈ recorded')
    (hReturned : ∀ f, call.unreturned = some f → f ∈ seen') (hNext : next.unreturned = none) :
    Logged seen' recorded' (calls.set i next) := by
  have hIn : next ∈ calls.set i next := by
    obtain ⟨hLt, -⟩ := List.getElem?_eq_some_iff.mp hCall
    exact List.mem_set hLt _
  refine ⟨fun f hf => ?_, fun f hf => ?_, forall_mem_set hCaught fun other hOther f hf => ?_,
    forall_mem_set (fun f hf => ?_) fun other hOther f hf => ?_⟩
  · rcases hNewSeen f hf with hOld | hThere | hNew
    · rcases h.ofSeen f hOld with hThere | ⟨other, hOther, hOpen⟩
      · exact Or.inl (hRecorded hThere)
      · rcases mem_set_or_eq hCall hOther with hStays | rfl
        · exact Or.inr ⟨other, hStays, hOpen⟩
        · exact Or.inl (hDone f hOpen)
    · exact Or.inl hThere
    · exact Or.inr ⟨next, hIn, hNew⟩
  · rcases hNewRecorded f hf with hOld | hThere
    · rcases h.ofRecorded f hOld with hThere | ⟨other, hOther, hOpen⟩
      · exact Or.inl (hSeen hThere)
      · rcases mem_set_or_eq hCall hOther with hStays | rfl
        · exact Or.inr ⟨other, hStays, hOpen⟩
        · exact Or.inl (hReturned f hOpen)
    · exact Or.inl hThere
  · exact hSeen (h.caught other hOther f hf)
  · exact nomatch hNext.symm.trans hf
  · exact hRecorded (h.reported other hOther f hf)

/-- A call that has caught nothing and recorded nothing goes on like that. -/
theorem quiet (h : Logged seen recorded calls) (hCall : calls[i]? = some call)
    (hUnrecorded : call.unrecorded = none) (hUnreturned : call.unreturned = none)
    (hNext : next.unrecorded = none) (hNext' : next.unreturned = none) :
    Logged seen recorded (calls.set i next) :=
  h.move hCall (List.Subset.refl _) (List.Subset.refl _) (fun _ => Or.inl) (fun _ => Or.inl)
    (fun _ hf => nomatch hNext.symm.trans hf) (fun _ hf => nomatch hUnrecorded.symm.trans hf)
    (fun _ hf => nomatch hUnreturned.symm.trans hf) hNext'

/-- A call catches a failure, which is seen from now on. -/
theorem catches (h : Logged seen recorded calls) (hCall : calls[i]? = some call)
    (hUnrecorded : call.unrecorded = none) (hUnreturned : call.unreturned = none)
    {f : RuntimeFailure} (hNext : next.unrecorded = some f) (hNext' : next.unreturned = none) :
    Logged (seen ++ [f]) recorded (calls.set i next) := by
  refine h.move hCall (List.subset_append_left _ _) (List.Subset.refl _) (fun f' hf => ?_)
    (fun _ => Or.inl) (fun f' hf => ?_) (fun _ hf => nomatch hUnrecorded.symm.trans hf)
    (fun _ hf => nomatch hUnreturned.symm.trans hf) hNext'
  · rcases List.mem_append.mp hf with hOld | hNew
    · exact Or.inl hOld
    · exact Or.inr (Or.inr (List.mem_singleton.mp hNew ▸ hNext))
  · rw [Option.some.inj (hf.symm.trans hNext)]
    exact List.mem_append_right _ List.mem_cons_self

/-- A call records what it has caught. -/
theorem records (h : Logged seen recorded calls) (hCall : calls[i]? = some call)
    {f : RuntimeFailure} (hUnrecorded : call.unrecorded = some f)
    (hUnreturned : call.unreturned = none) (hNext : next.unrecorded = none)
    (hNext' : next.unreturned = none) : Logged seen (recorded ++ [f]) (calls.set i next) := by
  refine h.move hCall (List.Subset.refl _) (List.subset_append_left _ _) (fun _ => Or.inl)
    (fun f' hf => ?_) (fun _ hf => nomatch hNext.symm.trans hf) (fun f' hf => ?_)
    (fun _ hf => nomatch hUnreturned.symm.trans hf) hNext'
  · rcases List.mem_append.mp hf with hOld | hNew
    · exact Or.inl hOld
    · rw [List.mem_singleton.mp hNew]
      exact Or.inr (h.caught call (List.mem_of_getElem? hCall) f hUnrecorded)
  · rw [Option.some.inj (hf.symm.trans hUnrecorded)]
    exact List.mem_append_right _ List.mem_cons_self

/-- `ReportFailure` returns the failure that it has recorded. -/
theorem returns (h : Logged seen recorded calls) {f : RuntimeFailure}
    (hCall : calls[i]? = some (.reportRecorded f)) :
    Logged (seen ++ [f]) recorded (calls.set i .reportDone) := by
  refine h.move hCall (List.subset_append_left _ _) (List.Subset.refl _) (fun f' hf => ?_)
    (fun _ => Or.inl) (fun _ hf => nomatch hf) (fun _ hf => nomatch hf) (fun f' hf => ?_) rfl
  · rcases List.mem_append.mp hf with hOld | hNew
    · exact Or.inl hOld
    · rw [List.mem_singleton.mp hNew]
      exact Or.inr (Or.inl (h.reported _ (List.mem_of_getElem? hCall) f rfl))
  · rw [← Option.some.inj hf]
    exact List.mem_append_right _ List.mem_cons_self

/-- A call begins that has caught nothing. -/
theorem push (h : Logged seen recorded calls) (hUnrecorded : call.unrecorded = none)
    (hUnreturned : call.unreturned = none) : Logged seen recorded (calls ++ [call]) := by
  refine ⟨fun f hf => (h.ofSeen f hf).imp_right ?_, fun f hf => (h.ofRecorded f hf).imp_right ?_,
    forall_mem_append_one ?_ h.caught, forall_mem_append_one ?_ h.reported⟩
  · rintro ⟨other, hOther, hCaught⟩
    exact ⟨other, List.mem_append_left _ hOther, hCaught⟩
  · rintro ⟨other, hOther, hReport⟩
    exact ⟨other, List.mem_append_left _ hOther, hReport⟩
  · intro f hf
    exact nomatch hUnrecorded.symm.trans hf
  · intro f hf
    exact nomatch hUnreturned.symm.trans hf

/-- A report begins and is recorded. -/
theorem reports (h : Logged seen recorded calls) (f : RuntimeFailure) :
    Logged seen (recorded ++ [f]) (calls ++ [.reportRecorded f]) := by
  refine ⟨fun f' hf => ?_, fun f' hf => ?_, forall_mem_append_one nofun h.caught,
    forall_mem_append_one ?_ fun other hOther f' hf => ?_⟩
  · rcases h.ofSeen f' hf with hThere | ⟨other, hOther, hCaught⟩
    · exact Or.inl (List.mem_append_left _ hThere)
    · exact Or.inr ⟨other, List.mem_append_left _ hOther, hCaught⟩
  · rcases List.mem_append.mp hf with hOld | hNew
    · rcases h.ofRecorded f' hOld with hThere | ⟨other, hOther, hReport⟩
      · exact Or.inl hThere
      · exact Or.inr ⟨other, List.mem_append_left _ hOther, hReport⟩
    · rw [List.mem_singleton.mp hNew]
      exact Or.inr ⟨_, List.mem_append_right _ List.mem_cons_self, rfl⟩
  · intro f' hf
    rw [← Option.some.inj hf]
    exact List.mem_append_right _ List.mem_cons_self
  · exact List.mem_append_left _ (h.reported other hOther f' hf)

end Logged

/-- The log of a system fits its calls. -/
abbrev System.Logged (s : System) : Prop := Runtime.Logged s.seen s.recorded s.calls

section Step

variable {s s' : System} {i : Nat} {call next : Call}

/-- A task is taken and run, and its exception is caught. -/
theorem System.Logged.consume (h : s.Logged) (hCall : s.calls[i]? = some call)
    (hUnrecorded : call.unrecorded = none) (hUnreturned : call.unreturned = none)
    {failed : Exn → Call} (hNext : next.unrecorded = none) (hNext' : next.unreturned = none)
    (hFailed : ∀ e, (failed e).unrecorded = some { source := .job, error := e } ∧
      (failed e).unreturned = none) (task : PendingTask) (result : Option Nat) :
    (s.consume i task result next failed).Logged := by
  unfold System.consume
  rcases task.handle.wait result with - | e
  · exact Logged.quiet h hCall hUnrecorded hUnreturned hNext hNext'
  · exact Logged.catches h hCall hUnrecorded hUnreturned (hFailed e).1 (hFailed e).2

/-- `RecordFailure` while the supervisor is not stopped. -/
theorem System.Logged.record (h : s.Logged) (hCall : s.calls[i]? = some call)
    (hOpen : s.supervisor.state ≠ .stopped) {failure : RuntimeFailure}
    (hUnrecorded : call.unrecorded = some failure) (hUnreturned : call.unreturned = none)
    (hNext : next.unrecorded = none) (hNext' : next.unreturned = none) (threw : Exn → System) :
    (s.record i failure next threw).Logged := by
  unfold System.record
  rw [Supervisor.recordFailure_of_open hOpen]
  exact Logged.records h hCall hUnrecorded hUnreturned hNext hNext'

/-- A section of a call. -/
theorem System.Logged.advance (h : s.Logged) (hControlled : s.Controlled)
    (hCall : s.calls[i]? = some call) {result : Option Nat}
    (hStep : s.advance i result call = some s') : s'.Logged := by
  cases call with
  | waiting task =>
    obtain rfl := Option.some.inj hStep
    exact h.consume hCall rfl rfl rfl rfl (fun _ => ⟨rfl, rfl⟩) task result
  | waitFailed e =>
    obtain rfl := Option.some.inj hStep
    -- a call that still has to report keeps the supervisor from stopping
    have hOpen := hControlled.not_stopped_of_consumer hCall rfl
    exact h.record hCall hOpen rfl rfl rfl rfl _
  | waitRecorded e =>
    obtain rfl := Option.some.inj hStep
    exact Logged.quiet h hCall rfl rfl rfl rfl
  | releasing thrown =>
    obtain ⟨v, hRelease, -, -⟩ := hControlled.control.release hCall thrown
    rw [System.advance, hRelease] at hStep
    obtain rfl := Option.some.inj hStep
    exact Logged.quiet h hCall rfl rfl rfl rfl
  | waitDone thrown => cases hStep
  | reportRecorded failure =>
    obtain rfl := Option.some.inj hStep
    exact Logged.returns h hCall
  | reportDone => cases hStep
  | drainEntered =>
    rw [System.advance] at hStep
    rcases hDrain : s.supervisor.beginDrain with - | ⟨v, tasks⟩ <;> rw [hDrain] at hStep <;>
      obtain rfl := Option.some.inj hStep
    · exact Logged.quiet h hCall rfl rfl rfl rfl
    · exact Logged.quiet h hCall rfl rfl rfl rfl
  | drainConsuming tasks =>
    rcases tasks with - | ⟨task, tasks⟩
    · obtain rfl := Option.some.inj hStep
      exact Logged.quiet h hCall rfl rfl rfl rfl
    · obtain rfl := Option.some.inj hStep
      exact h.consume hCall rfl rfl rfl rfl (fun _ => ⟨rfl, rfl⟩) task result
  | drainFailed e tasks =>
    obtain rfl := Option.some.inj hStep
    have hOpen := hControlled.not_stopped_of_pastEntry hCall rfl
    exact h.record hCall hOpen rfl rfl rfl rfl _
  | drainRecorded tasks =>
    obtain rfl := Option.some.inj hStep
    exact Logged.quiet h hCall rfl rfl rfl rfl
  | drainJobs =>
    rw [System.advance] at hStep
    rcases hDrain : s.supervisor.jobs.beginDrain with - | jobs <;> rw [hDrain] at hStep <;>
      obtain rfl := Option.some.inj hStep
    · exact Logged.quiet h hCall rfl rfl rfl rfl
    · exact Logged.quiet h hCall rfl rfl rfl rfl
  | drainJobsWaiting =>
    rcases result with - | cause <;> obtain rfl := Option.some.inj hStep
    · exact Logged.quiet h hCall rfl rfl rfl rfl
    · exact Logged.catches h hCall rfl rfl rfl rfl
  | drainJobsFailed e =>
    obtain rfl := Option.some.inj hStep
    have hOpen := hControlled.not_stopped_of_pastEntry hCall rfl
    exact h.record hCall hOpen rfl rfl rfl rfl _
  | drainJobsRecorded =>
    obtain rfl := Option.some.inj hStep
    exact Logged.quiet h hCall rfl rfl rfl rfl
  | drainFinishing =>
    rw [System.advance] at hStep
    split at hStep
    · obtain rfl := Option.some.inj hStep
      exact Logged.quiet h hCall rfl rfl rfl rfl
    · cases hStep
  | drainDone => cases hStep
  | drainThrew e => cases hStep

/-- A step of the runtime. -/
theorem System.Logged.step (h : s.Logged) (hControlled : s.Controlled) {a : Action}
    (hStep : s.step a = some s') : s'.Logged := by
  cases System.moves_of_step hStep with
  | refused => exact h
  | start hStart => exact h
  | submit hSubmit => exact h
  | wait hTake => exact Logged.push h rfl rfl
  | report hRecord => exact Logged.reports h _
  | requestStop => exact h
  | drain hFree => exact Logged.push h rfl rfl
  | advance hCall hNext => exact h.advance hControlled hCall hNext

end Step

/-- In every run what was seen is recorded and what was recorded is seen, up to open calls. -/
theorem logged_of_run {actions : List Action} {s : System} (hRun : run actions = some s) :
    s.Logged := by
  have hStart : System.Controlled {} ∧ System.Logged {} :=
    ⟨controlled_init, nofun, nofun, nofun, nofun⟩
  have hBoth : s.Controlled ∧ s.Logged :=
    runEvents_invariant (I := fun s => s.Controlled ∧ s.Logged)
      (fun h hStep => ⟨(h.1.step hStep).1, h.2.step h.1 hStep⟩) hStart hRun
  exact hBoth.2

/-- After a `Drain` the state tells whether a failure was recorded. -/
theorem System.Controlled.failed_iff {s : System} (h : s.Controlled) (hDone : .drainDone ∈ s.calls) :
    (s.supervisor.state = .failed ↔ s.recorded ≠ []) ∧
      (s.supervisor.state = .stopped ↔ s.recorded = []) := by
  have hTerminal := h.control.done hDone
  have hSound := h.control.sound
  rcases hState : s.supervisor.state with - | - | - | - | - | -
  · exact nomatch hState ▸ hTerminal
  · exact nomatch hState ▸ hTerminal
  · exact nomatch hState ▸ hTerminal
  · exact nomatch hState ▸ hTerminal
  · have hNone := hSound.stopped hState
    exact ⟨iff_of_false nofun (not_not_intro hNone), iff_of_true rfl hNone⟩
  · have hSome := hSound.failed hState
    exact ⟨iff_of_true rfl hSome, iff_of_false nofun hSome⟩

/-- After a `Drain` every failure that was seen has made the supervisor fail. -/
theorem failed_of_seen {s : System} (h : s.Controlled) (hLogged : s.Logged)
    (hDone : .drainDone ∈ s.calls) (hSeen : s.seen ≠ []) : s.supervisor.state = .failed := by
  have hTerminal := h.control.done hDone
  obtain ⟨f, hf⟩ := List.exists_mem_of_ne_nil _ hSeen
  rcases hLogged.ofSeen f hf with hRecorded | ⟨call, hCall, hOpen⟩
  · exact (h.failed_iff hDone).1.mpr (List.ne_nil_of_mem hRecorded)
  · -- the call that caught it is a `Drain` of a supervisor that has failed already
    by_cases hPast : call.pastEntry = true
    · rcases h.control.draining call hCall hPast with hState | hState
      · rw [hState] at hTerminal
        cases hTerminal
      · exact hState
    · have hConsumer : call.consumers = 1 := by
        rcases call <;> simp_all [Call.unrecorded, Call.pastEntry, Call.consumers]
      have hLive := h.control.open_of_consumer hCall hConsumer
      cases hLive.symm.trans hTerminal

/-- The lifecycle along every run: it only moves on, the jobs run while the supervisor
does, once a `Drain` has returned the state is failed exactly when a failure was
recorded, of which the first is kept, and no internal check of `Wait` or `Drain` fails. -/
theorem lifecycle_of_run {actions : List Action} {s : System} (hRun : run actions = some s) :
    (∀ more s', runEvents System.step s more = some s' →
      s.supervisor.state.Forward s'.supervisor.state) ∧
    (s.supervisor.state = .running → s.supervisor.jobs.state = .running) ∧
    s.supervisor.failure = s.recorded.head? ∧
    (.drainDone ∈ s.calls →
      (s.supervisor.state = .failed ↔ s.recorded ≠ []) ∧
      (s.supervisor.state = .stopped ↔ s.recorded = []) ∧
      (s.seen ≠ [] → s.supervisor.state = .failed)) ∧
    (∀ f ∈ s.recorded, f ∈ s.seen ∨ .reportRecorded f ∈ s.calls) ∧
    s.internalErrors = [] := by
  have h := controlled_of_run hRun
  have hLogged := logged_of_run hRun
  refine ⟨fun more s' hMore => ?_, fun hRunning => ?_, h.control.sound.failure, fun hDone => ?_,
    fun f hf => ?_, h.noErrors⟩
  · exact runEvents_relation (R := fun a b => a.supervisor.state.Forward b.supervisor.state)
      (I := System.Controlled) (fun _ => LifecycleState.Forward.refl _)
      LifecycleState.Forward.trans (fun {_ _ _} hI hStep => hI.step hStep) h hMore
  · refine h.control.sound.jobs ?_
    rw [hRunning]
    rfl
  · obtain ⟨hFailed, hStopped⟩ := h.failed_iff hDone
    exact ⟨hFailed, hStopped, failed_of_seen h hLogged hDone⟩
  · rcases hLogged.ofRecorded f hf with hSeen | ⟨call, hCall, hOpen⟩
    · exact Or.inl hSeen
    · rcases call <;> simp_all [Call.unreturned]

/-- A job fails while it is waited for, and the supervisor is drained. -/
def failingActions : List Action :=
  [.start, .submit true, .wait 1, .advance 0 (some 7), .advance 0 none, .drain, .advance 1 none,
    .advance 1 none, .advance 1 none, .advance 1 none, .advance 0 none, .advance 0 none,
    .advance 1 none]

/-- A job throws, and `Drain` leaves the supervisor failed. -/
theorem lifecycle_of_run_failingActions : ∃ s, run failingActions = some s ∧
    .drainDone ∈ s.calls ∧ s.supervisor.state = .failed ∧
    s.supervisor.failure = some { source := .job, error := .jobExecutionError 7 } := by
  obtain ⟨s, hRun, hDone, hRecorded⟩ : ∃ s, run failingActions = some s ∧
      .drainDone ∈ s.calls ∧ s.recorded = [{ source := .job, error := .jobExecutionError 7 }] :=
    ⟨_, rfl, by decide, rfl⟩
  obtain ⟨-, -, hFailure, hDrained, -⟩ := lifecycle_of_run hRun
  refine ⟨s, hRun, hDone, (hDrained hDone).1.mpr ?_, ?_⟩
  · rw [hRecorded]
    exact List.cons_ne_nil _ _
  · rw [hFailure, hRecorded]
    rfl

end Ithax.Runtime
