import Ithax.Lib.Exceptional
import Ithax.Lib.Headroom
import Ithax.Marshal.StringTable

/-!
# The thread budget

`thread_budget.cpp`, and how `JobRuntime` and `RuntimeSupervisor` are constructed on one
budget. What the platform answers to a measurement, and whether the executor and the
supervisor's `reserve` throw, is part of the call.

The budget measures and compares; nothing in it knows of the runtimes that are live.

* `prepareWorkerCount_hoare` — what one admission is checked against;
* `workers_beside_iff`       — what all live runtimes hold together.
-/

namespace Ithax.Runtime

open Ithax.Lib Ithax.Marshal

-- ---------------------------------------------------------------------------
-- Budget
-- ---------------------------------------------------------------------------

/-- How many snapshots are kept. -/
def MAX_SNAPSHOT_COUNT : Nat := 4096
/-- How long a label may be. -/
def MAX_LABEL_LENGTH : Nat := 64
/-- How many workers a pool of jobs may have. -/
def MAX_JOB_WORKERS : UInt32 := 64

/-- An exception of a construction. -/
inductive AdmissionExn where
  | threadBudgetError (what : String)
  | jobRuntimeError (what : String)
  | other (cause : Nat)
deriving DecidableEq, Repr

/-- What a snapshot is a reservation for. -/
inductive ReservationKind where
  | hard | soft | unknown
deriving DecidableEq, Repr

/-- The policy, which is only read. -/
structure ThreadBudgetPolicy where
  hardReservations : UInt32 := 1
  softReservations : UInt32 := 0
  headroom : UInt32 := 1
deriving DecidableEq, Repr

/-- What is measured of the process. -/
structure PlatformSnapshot where
  processThreads : UInt32
  processCpuSetCount : UInt32
  cpuSetIds : List UInt32
  processAffinityMask : UInt64
  cpuSetSource : String
deriving DecidableEq, Repr

/-- A measurement with its labels. -/
structure ThreadBudgetSnapshot where
  phase : Bytes
  owner : Bytes
  subsystem : Bytes
  configuredThreads : UInt32
  observedThreads : UInt32
  peakObservedThreads : UInt32
  processCpuSetCount : UInt32
  cpuSetIds : List UInt32
  processAffinityMask : UInt64
  cpuSetSource : String
  timestampUtc : String
  reservation : ReservationKind
deriving DecidableEq, Repr

/-- The budget: its policy, and the snapshots so far. -/
structure ThreadBudget where
  policy : ThreadBudgetPolicy
  processCpuSetCount : UInt32 := 0
  peakObservedThreads : UInt32 := 0
  snapshots : List ThreadBudgetSnapshot := []
deriving DecidableEq, Repr

/-- What `CapturePlatformSnapshot` and `TimestampUtc` return, or the texts they throw. -/
structure Measurement where
  platform : Except String PlatformSnapshot
  timestamp : Except String String

/-- A method of the budget, or a construction on it. -/
abbrev BudgetM := EStateM AdmissionExn ThreadBudget

/-- `ValidateLabel`. -/
def validateLabel (label : Bytes) : BudgetM Unit := do
  throwIf (label = [] ∨ label.length > MAX_LABEL_LENGTH)
    (.threadBudgetError "thread budget label is outside its bound")
  throwIf (∃ character ∈ label, character < 0x20 ∨ character > 0x7E)
    (.threadBudgetError "thread budget label contains a control byte")

/-- `Capture`: a snapshot is appended, or it throws. -/
def capture (phase owner subsystem : Bytes) (configuredThreads : UInt32)
    (reservation : ReservationKind) (measured : Measurement) : BudgetM ThreadBudgetSnapshot := do
  let budget ← get
  throwIf (budget.snapshots.length ≥ MAX_SNAPSHOT_COUNT)
    (.threadBudgetError "thread budget snapshot limit was exceeded")
  validateLabel phase
  validateLabel owner
  validateLabel subsystem
  let platform ← fromExcept .threadBudgetError measured.platform
  throwIf (platform.processThreads = 0 ∨ platform.processCpuSetCount = 0)
    (.threadBudgetError "platform returned an empty thread budget")
  let timestampUtc ← fromExcept .threadBudgetError measured.timestamp
  let snapshot : ThreadBudgetSnapshot :=
    { phase, owner, subsystem, configuredThreads, timestampUtc, reservation
      observedThreads := platform.processThreads
      peakObservedThreads := max budget.peakObservedThreads platform.processThreads
      processCpuSetCount := platform.processCpuSetCount
      cpuSetIds := platform.cpuSetIds
      processAffinityMask := platform.processAffinityMask
      cpuSetSource := platform.cpuSetSource }
  set { budget with
    processCpuSetCount := platform.processCpuSetCount
    peakObservedThreads := snapshot.peakObservedThreads
    snapshots := budget.snapshots ++ [snapshot] }
  pure snapshot

/-- The reservations are added in 64 bits. -/
def ThreadBudget.availableWorkerCount (budget : ThreadBudget) : UInt32 :=
  let reserved : UInt64 := budget.policy.hardReservations.toUInt64 +
    budget.policy.softReservations.toUInt64 + budget.policy.headroom.toUInt64
  if reserved ≥ budget.processCpuSetCount.toUInt64 then 0
  else budget.processCpuSetCount - reserved.toUInt32

/-- `CanReserveWorkers`. -/
def ThreadBudget.canReserveWorkers (budget : ThreadBudget) (requested : UInt32) : Bool :=
  requested > 0 && requested ≤ budget.availableWorkerCount

-- ---------------------------------------------------------------------------
-- Runtimes
-- ---------------------------------------------------------------------------

/-- `PrepareWorkerCount`. -/
def prepareWorkerCount (requested : UInt32) (measured : Measurement) : BudgetM UInt32 := do
  throwIf (requested = 0 ∨ requested > MAX_JOB_WORKERS)
    (.jobRuntimeError "job worker count is outside its bound")
  let _ ← capture (ascii "job-runtime-preflight") (ascii "runtime-owner") (ascii "taskflow")
    requested .hard measured
  let budget ← get
  throwIf (budget.canReserveWorkers requested = false)
    (.jobRuntimeError "job workers exceed measured thread headroom")
  pure requested

/-- A part of a construction that may throw. -/
def mayThrow (cause : Option Nat) : BudgetM Unit :=
  match cause with
  | some cause => throw (.other cause)
  | none => pure ()

/-- The constructor of `JobRuntime`; `executor` is what the executor's constructor throws. -/
def constructJobRuntime (requested : UInt32) (measured : Measurement) (executor : Option Nat) :
    BudgetM UInt32 := do
  let workerCount ← prepareWorkerCount requested measured
  mayThrow executor
  pure workerCount

/-- The constructor of `RuntimeSupervisor`; if its `reserve` throws, the runtime inside it is
destroyed again. -/
def constructRuntimeSupervisor (requested : UInt32) (measured : Measurement)
    (executor reserve : Option Nat) : BudgetM UInt32 := do
  let workerCount ← constructJobRuntime requested measured executor
  mayThrow reserve
  pure workerCount

/-- A runtime that was admitted, and has not been destroyed. -/
structure LiveRuntime where
  workerCount : UInt32
  /-- The budget when the runtime was admitted. -/
  admittedOn : ThreadBudget

/-- The budget of a process and the runtimes that are live on it, the latest first. -/
structure Process where
  budget : ThreadBudget
  live : List LiveRuntime := []

/-- A runtime is constructed or destroyed. -/
inductive RuntimeEvent where
  | jobRuntime (requested : UInt32) (measured : Measurement) (executor : Option Nat)
  | runtimeSupervisor (requested : UInt32) (measured : Measurement)
      (executor reserve : Option Nat)
  | destroy (index : Nat)
  | capture (phase owner subsystem : Bytes) (configuredThreads : UInt32)
      (reservation : ReservationKind) (measured : Measurement)

/-- A call on the budget of the process. -/
def onBudget {α : Type} (m : BudgetM α) : EStateM AdmissionExn Process α :=
  zoom Process.budget (fun p budget => { p with budget }) id m

/-- A construction that returns leaves one more runtime live. -/
def admitRuntime (construct : BudgetM UInt32) : EStateM AdmissionExn Process Unit := do
  let workerCount ← onBudget construct
  modify fun p => { p with live := ⟨workerCount, p.budget⟩ :: p.live }

/-- What happens at an event. -/
def RuntimeEvent.perform : RuntimeEvent → EStateM AdmissionExn Process Unit
  | .jobRuntime requested measured executor =>
    admitRuntime (constructJobRuntime requested measured executor)
  | .runtimeSupervisor requested measured executor reserve =>
    admitRuntime (constructRuntimeSupervisor requested measured executor reserve)
  | .destroy index => modify fun p => { p with live := p.live.eraseIdx index }
  | .capture phase owner subsystem configuredThreads reservation measured => do
    let _ ← onBudget (Runtime.capture phase owner subsystem configuredThreads reservation measured)

-- ---------------------------------------------------------------------------
-- One admission
-- ---------------------------------------------------------------------------

/-- What the reservations of a policy leave of a CPU set. -/
def ThreadBudgetPolicy.available (policy : ThreadBudgetPolicy) (cpuSetCount : Nat) : Nat :=
  cpuSetCount - (policy.hardReservations.toNat + policy.softReservations.toNat +
    policy.headroom.toNat)

/-- The sum of the reservations is exact, whatever they are. -/
theorem toNat_availableWorkerCount (budget : ThreadBudget) :
    budget.availableWorkerCount.toNat =
      budget.policy.available budget.processCpuSetCount.toNat := by
  have hHard := budget.policy.hardReservations.toNat_lt
  have hSoft := budget.policy.softReservations.toNat_lt
  have hHeadroom := budget.policy.headroom.toNat_lt
  have hCpus := budget.processCpuSetCount.toNat_lt
  have hReserved : (budget.policy.hardReservations.toUInt64 +
      budget.policy.softReservations.toUInt64 + budget.policy.headroom.toUInt64).toNat =
      budget.policy.hardReservations.toNat + budget.policy.softReservations.toNat +
        budget.policy.headroom.toNat := by
    simp
    omega
  unfold ThreadBudget.availableWorkerCount ThreadBudgetPolicy.available
  generalize budget.policy.hardReservations.toUInt64 +
    budget.policy.softReservations.toUInt64 + budget.policy.headroom.toUInt64 = reserved at *
  by_cases hAll : reserved ≥ budget.processCpuSetCount.toUInt64
  · have hNat := UInt64.le_iff_toNat_le.mp hAll
    simp at hNat
    simp [hAll]
    omega
  · have hNat := UInt64.lt_iff_toNat_lt.mp (UInt64.not_le.mp hAll)
    simp at hNat
    have hSmall : reserved.toUInt32.toNat = reserved.toNat := by
      simp
      omega
    simp only [hAll, if_false]
    rw [UInt32.toNat_sub_of_le _ _ (UInt32.le_iff_toNat_le.mpr (by omega)), hSmall, hReserved]

/-- The comparison is one of natural numbers. -/
theorem canReserveWorkers_iff {budget : ThreadBudget} {requested : UInt32} :
    budget.canReserveWorkers requested = true ↔
      0 < requested.toNat ∧ requested.toNat ≤ budget.policy.available
        budget.processCpuSetCount.toNat := by
  rw [← toNat_availableWorkerCount, ThreadBudget.canReserveWorkers, Bool.and_eq_true,
    decide_eq_true_eq, decide_eq_true_eq, gt_iff_lt, UInt32.lt_iff_toNat_lt,
    UInt32.le_iff_toNat_le]
  rfl

section Admission

variable {requested : UInt32} {measured : Measurement} {policy : ThreadBudgetPolicy}

/-- A label is looked at only. -/
theorem keeps_validateLabel {I : ThreadBudget → Prop} (label : Bytes) :
    Keeps I (validateLabel label) :=
  keeps_throwIf.seq fun _ => keeps_throwIf

/-- A measurement leaves the policy alone. -/
theorem keeps_capture (phase owner subsystem : Bytes) (configuredThreads : UInt32)
    (reservation : ReservationKind) (measured : Measurement) :
    Keeps (fun budget => budget.policy = policy)
      (capture phase owner subsystem configuredThreads reservation measured) := by
  unfold capture
  refine (hoare_get (Q := fun (budget s : ThreadBudget) => s.policy = policy ∧ budget.policy = policy)
    fun s h => ⟨h, h⟩).bind fun budget => Hoare.assuming fun hPolicy => ?_
  refine keeps_throwIf.seq fun _ => ?_
  refine (keeps_validateLabel phase).seq fun _ => ?_
  refine (keeps_validateLabel owner).seq fun _ => ?_
  refine (keeps_validateLabel subsystem).seq fun _ => ?_
  refine (keeps_fromExcept _ measured.platform).seq fun platform => ?_
  refine keeps_throwIf.seq fun _ => ?_
  refine (keeps_fromExcept _ measured.timestamp).seq fun timestamp => ?_
  intro s _
  exact hPolicy

/-- A count that fits the measurement it was checked against. -/
structure Fits (policy : ThreadBudgetPolicy) (count : UInt32) (budget : ThreadBudget) : Prop where
  policy_eq : budget.policy = policy
  positive : 0 < count.toNat
  le_max : count ≤ MAX_JOB_WORKERS
  le_available : count.toNat ≤ policy.available budget.processCpuSetCount.toNat

/-- A count that is returned fits the measurement that was made for it. -/
theorem prepareWorkerCount_hoare :
    Hoare (fun budget => budget.policy = policy) (prepareWorkerCount requested measured)
      (Fits policy) fun budget => budget.policy = policy := by
  unfold prepareWorkerCount
  refine (hoare_throwIf fun _ h => h).bind fun _ => Hoare.assuming fun hBound => ?_
  refine (keeps_capture _ _ _ _ _ _).bind fun _ => ?_
  refine (hoare_get (Q := fun (budget s : ThreadBudget) => s.policy = policy ∧ s = budget)
    fun s h => ⟨h, rfl⟩).bind fun budget => ?_
  refine (hoare_throwIf fun _ h => h.1).bind fun _ => hoare_pure ?_
  rintro s ⟨⟨hPolicy, rfl⟩, hReserve⟩
  have hMax : requested ≤ MAX_JOB_WORKERS := UInt32.not_lt.mp fun h => hBound (.inr h)
  have hRoom := canReserveWorkers_iff.mp (Bool.not_eq_false _ ▸ hReserve)
  rw [hPolicy] at hRoom
  exact ⟨hPolicy, hRoom.1, hMax, hRoom.2⟩

/-- A constructor that may throw after the admission. -/
theorem mayThrow_hoare {count : UInt32} (cause : Option Nat) :
    Hoare (Fits policy count) (mayThrow cause) (fun _ => Fits policy count)
      fun budget => budget.policy = policy := by
  cases cause with
  | none => exact hoare_pure fun _ h => h
  | some cause => exact hoare_throw fun _ h => h.policy_eq

/-- A pool of jobs is admitted within the policy. -/
theorem constructJobRuntime_hoare (executor : Option Nat) :
    Hoare (fun budget => budget.policy = policy) (constructJobRuntime requested measured executor)
      (Fits policy) fun budget => budget.policy = policy := by
  unfold constructJobRuntime
  refine prepareWorkerCount_hoare.bind fun count => ?_
  refine (mayThrow_hoare executor).bind fun _ => ?_
  exact hoare_pure fun _ h => h

/-- So is a supervisor. -/
theorem constructRuntimeSupervisor_hoare (executor reserve : Option Nat) :
    Hoare (fun budget => budget.policy = policy)
      (constructRuntimeSupervisor requested measured executor reserve) (Fits policy)
      fun budget => budget.policy = policy := by
  unfold constructRuntimeSupervisor
  refine (constructJobRuntime_hoare executor).bind fun count => ?_
  refine (mayThrow_hoare reserve).bind fun _ => ?_
  exact hoare_pure fun _ h => h

end Admission

-- ---------------------------------------------------------------------------
-- One event
-- ---------------------------------------------------------------------------

/-- What a live runtime holds, and the available count that it was admitted against. -/
def LiveRuntime.share (r : LiveRuntime) : Share :=
  ⟨r.workerCount.toNat, r.admittedOn.availableWorkerCount.toNat⟩

/-- What each runtime that is alive was admitted for. -/
def Process.shares (p : Process) : List Share := p.live.map LiveRuntime.share

/-- The sum of the worker counts of the live runtimes. -/
def Process.workers (p : Process) : Nat := held p.shares

/-- The available count when the last of the live runtimes was admitted. -/
def Process.lastAvailable (p : Process) : Nat :=
  match p.live with
  | [] => 0
  | r :: _ => r.share.limit

/-- What an event may do to the live runtimes: some go, or one comes that fits by itself. -/
structure Moved (policy : ThreadBudgetPolicy) (p q : Process) : Prop where
  policy_eq : q.budget.policy = policy
  live : q.live.Sublist p.live ∨
    ∃ r, q.live = r :: p.live ∧ Fits policy r.workerCount r.admittedOn

section Event

variable {policy : ThreadBudgetPolicy} {p : Process}

/-- A call on the budget leaves the other members alone. -/
theorem hoare_onBudget {α : Type} {m : BudgetM α} {Q : α → ThreadBudget → Prop}
    (h : Hoare (fun budget => budget.policy = policy) m Q fun budget => budget.policy = policy)
    (hPolicy : p.budget.policy = policy) :
    Hoare (fun q => q = p) (onBudget m) (fun a q => Q a q.budget ∧ q.live = p.live)
      (Moved policy p) := by
  unfold onBudget
  refine hoare_zoom fun q hq => ?_
  subst hq
  intro budget hBudget
  have hRun := h budget (hBudget ▸ hPolicy)
  cases hm : m budget with
  | ok a next =>
    rw [hm] at hRun
    exact ⟨hRun, rfl⟩
  | error e next =>
    rw [hm] at hRun
    exact ⟨hRun, .inl (List.Sublist.refl _)⟩

/-- A runtime that is admitted is alive from then on. -/
theorem admit_moved {construct : BudgetM UInt32}
    (h : Hoare (fun budget => budget.policy = policy) construct (Fits policy)
      fun budget => budget.policy = policy) (hPolicy : p.budget.policy = policy) :
    Hoare (fun q => q = p) (admitRuntime construct) (fun _ => Moved policy p) (Moved policy p) := by
  unfold admitRuntime
  refine (hoare_onBudget h hPolicy).bind fun count => hoare_modify ?_
  rintro q ⟨hFits, hLive⟩
  exact ⟨hFits.policy_eq, .inr ⟨_, by rw [hLive], hFits⟩⟩

/-- Event by event. -/
theorem perform_moved (hPolicy : p.budget.policy = policy) (e : RuntimeEvent) :
    Moved policy p (finalState (e.perform p)) := by
  cases e with
  | jobRuntime requested measured executor =>
    exact (admit_moved (constructJobRuntime_hoare executor) hPolicy).finalState rfl
  | runtimeSupervisor requested measured executor reserve =>
    exact (admit_moved (constructRuntimeSupervisor_hoare executor reserve) hPolicy).finalState rfl
  | destroy index => exact ⟨hPolicy, .inl (List.eraseIdx_sublist _ _)⟩
  | capture phase owner subsystem configuredThreads reservation measured =>
    have hCapture := hoare_onBudget (keeps_capture phase owner subsystem configuredThreads
      reservation measured) hPolicy
    have hMoved : Hoare (fun q => q = p)
        (onBudget (capture phase owner subsystem configuredThreads reservation measured) >>=
          fun _ => pure ()) (fun _ => Moved policy p) (Moved policy p) := by
      refine hCapture.bind fun _ => hoare_pure ?_
      rintro q ⟨hSame, hLive⟩
      exact ⟨hSame, .inl (hLive ▸ List.Sublist.refl _)⟩
    exact hMoved.finalState rfl

end Event

-- ---------------------------------------------------------------------------
-- Runs
-- ---------------------------------------------------------------------------

/-- The event admits a runtime that has no room beside those that are live. -/
def Crowds (p : Process) (e : RuntimeEvent) : Prop :=
  ∃ r, (finalState (e.perform p)).live = r :: p.live ∧
    r.admittedOn.availableWorkerCount.toNat < r.workerCount.toNat + p.workers

/-- The process after some events, each caught if it throws. -/
def afterEvents (policy : ThreadBudgetPolicy) (events : List RuntimeEvent) : Process :=
  afterCalls RuntimeEvent.perform { budget := { policy } } events

section Runs

variable {policy : ThreadBudgetPolicy} {p : Process} {e : RuntimeEvent}
  {events : List RuntimeEvent}

/-- Every live runtime fits the measurement that it was admitted on. -/
structure Admitted (policy : ThreadBudgetPolicy) (p : Process) : Prop where
  policy_eq : p.budget.policy = policy
  each : ∀ r ∈ p.live, Fits policy r.workerCount r.admittedOn

/-- An event keeps every admission within the policy. -/
theorem Admitted.perform (h : Admitted policy p) : Admitted policy (finalState (e.perform p)) := by
  obtain ⟨hPolicy, hLive⟩ := perform_moved h.policy_eq e
  refine ⟨hPolicy, fun r hr => ?_⟩
  obtain hGone | ⟨new, hNew, hFits⟩ := hLive
  · exact h.each r (hGone.subset hr)
  · rw [hNew, List.mem_cons] at hr
    obtain rfl | hOld := hr
    · exact hFits
    · exact h.each r hOld

/-- So does a run of events. -/
theorem admitted_afterEvents (events : List RuntimeEvent) :
    Admitted policy (afterEvents policy events) :=
  afterCalls_invariant _ ⟨rfl, by simp⟩ fun _ _ _ _ h => h.perform

/-- The workers that are covered are no more than the last admission allowed. -/
theorem Process.workers_le_of_covered (h : Covered p.shares) : p.workers ≤ p.lastAvailable := by
  unfold Process.workers Process.lastAvailable
  unfold Process.shares at *
  cases hLive : p.live with
  | nil => simp
  | cons r rest =>
    rw [hLive] at h
    simpa using h.1

/-- An admission that crowds nobody leaves every runtime covered. -/
theorem covered_perform (hPolicy : p.budget.policy = policy) (h : Covered p.shares)
    (hRoom : ¬Crowds p e) : Covered (finalState (e.perform p)).shares := by
  obtain ⟨-, hGone | ⟨r, hNew, -⟩⟩ := perform_moved hPolicy e
  · exact h.sublist (hGone.map _)
  · have hBeside : r.workerCount.toNat + p.workers ≤
        r.admittedOn.availableWorkerCount.toNat := by
      by_contra hOver
      exact hRoom ⟨r, hNew, by omega⟩
    unfold Process.shares
    rw [hNew]
    exact ⟨hBeside, h⟩

/-- By induction on the moment: no admission before it has crowded the others. -/
theorem covered_afterEvents
    (hRoom : ∀ done e rest, events = done ++ e :: rest → ¬Crowds (afterEvents policy done) e) :
    Covered (afterEvents policy events).shares := by
  refine afterCalls_invariant (I := fun p : Process => Covered p.shares) _ (by simp [Process.shares]) ?_
  intro done e rest hSplit hDone
  exact covered_perform (admitted_afterEvents done).policy_eq hDone (hRoom done e rest hSplit)

/--
**The thread budget.** After any events on one budget, every live runtime has between one
worker and the most there may be, and no more than were available as measured for its own
admission. The workers of all live runtimes are, at every moment, no more than were available
when the last of them was admitted, exactly when no runtime was admitted without room beside
the others.
-/
theorem workers_beside_iff (policy : ThreadBudgetPolicy) (events : List RuntimeEvent) :
    (∀ r ∈ (afterEvents policy events).live,
      0 < r.workerCount.toNat ∧ r.workerCount ≤ MAX_JOB_WORKERS ∧
        r.workerCount ≤ r.admittedOn.availableWorkerCount ∧
        r.admittedOn.availableWorkerCount.toNat =
          policy.available r.admittedOn.processCpuSetCount.toNat) ∧
      ((∀ moment, moment <+: events →
        (afterEvents policy moment).workers ≤ (afterEvents policy moment).lastAvailable) ↔
        ∀ done e rest, events = done ++ e :: rest → ¬Crowds (afterEvents policy done) e) := by
  constructor
  · intro r hr
    obtain ⟨hPolicy, hPositive, hMax, hAvailable⟩ := (admitted_afterEvents events).each r hr
    have hCount := toNat_availableWorkerCount r.admittedOn
    rw [hPolicy] at hCount
    exact ⟨hPositive, hMax, UInt32.le_iff_toNat_le.mpr (by omega), hCount⟩
  · constructor
    · rintro hAll done e rest rfl ⟨r, hNew, hOver⟩
      have hMoment : done ++ [e] <+: done ++ e :: rest := ⟨rest, by simp⟩
      have hThen := hAll (done ++ [e]) hMoment
      have hAfter : afterEvents policy (done ++ [e]) =
          finalState (e.perform (afterEvents policy done)) := afterCalls_concat _ _ _ _
      rw [hAfter] at hThen
      unfold Process.workers Process.lastAvailable Process.shares at hThen
      rw [hNew, List.map_cons, held_cons] at hThen
      unfold Process.workers Process.shares at hOver
      simp only [LiveRuntime.share] at hThen
      omega
    · rintro hRoom moment ⟨later, rfl⟩
      refine Process.workers_le_of_covered (covered_afterEvents fun done e rest hSplit => ?_)
      exact hRoom done e (rest ++ later) (by simp [hSplit])

end Runs

/-- A platform with four CPUs. -/
def fourCpus : Measurement where
  platform := .ok ⟨3, 4, [0, 1, 2, 3], 0, "sched_getaffinity"⟩
  timestamp := .ok "2026-01-01T00:00:00.000Z"

/-- Two runtimes of two workers each are admitted where two workers are available. -/
theorem two_runtimes_oversubscribe :
    let p := afterEvents {} [.jobRuntime 2 fourCpus none, .runtimeSupervisor 2 fourCpus none none]
    p.live.map LiveRuntime.workerCount = [2, 2] ∧ p.lastAvailable = 2 ∧
      ¬p.workers ≤ p.lastAvailable := by
  decide +kernel

end Ithax.Runtime
