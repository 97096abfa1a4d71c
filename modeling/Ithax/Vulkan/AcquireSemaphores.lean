import Ithax.Vulkan.FenceWaits

/-!
# The semaphores of the acquires

An acquire that succeeds gives the semaphore of its frame context a signal, and the submission
of the frame waits for it. `BeginFrame` acquires up to three times on one semaphore, and again
after a frame that was dropped. What holds it back is the fence: a semaphore with a signal
belongs to a frame whose fence has been reset, and `BeginFrame` waits for that fence first.

## Results

* `inStep_beginFrame`          — a frame that acquires cleanly.
* `noReuse_of_acquiresCleanly` — runs of such frames use no semaphore twice.
-/

namespace Ithax.Vulkan

open Ithax.Lib

namespace VulkanContext

/-- No acquire has been made on a semaphore that had a signal. -/
def NoReuse (s : VulkanContext) : Prop :=
  ∀ swapchain context, .acquireNextImage swapchain context true ∉ s.trace

end VulkanContext

/-- A semaphore with a signal belongs to a frame whose fence has been reset. -/
abbrev InStep : VulkanContext → Prop :=
  OnSync fun fences signals _ _ =>
    ∀ context, signals context = true → fences context = .unsignalled

/-- No acquire of `BeginFrame` answers `VK_SUBOPTIMAL_KHR`, and its fence can be reset once an
image has been acquired. -/
structure AcquiresCleanly (s : VulkanContext) : Prop where
  optimal : ∀ t, AcquiresIn s t → (t.next .vkAcquireNextImageKHR).result ≠ .suboptimal
  resets : ∀ t u, prepareFrame s = .ok true t → acquireImage t = .ok () u →
    (u.next .vkResetFences).result = .success

-- ---------------------------------------------------------------------------
-- The trace
-- ---------------------------------------------------------------------------

section Trace

theorem noReuse_append {s : VulkanContext} {event : VkEvent} (h : s.NoReuse)
    (hEvent : ∀ swapchain context, event ≠ .acquireNextImage swapchain context true) :
    VulkanContext.NoReuse { s with trace := s.trace ++ [event] } := by
  intro swapchain context hIn
  rcases List.mem_append.mp hIn with hOld | hNew
  · exact h swapchain context hOld
  · exact hEvent swapchain context (List.mem_singleton.mp hNew).symm

instance : Indifferent VulkanContext.NoReuse where
  ask _ h := h
  surfaceFormat h := h
  surfaceLossReason h := h
  handles h := h
  deviceLost h := h

instance : Spared VulkanContext.NoReuse where
  swapchain h := h
  trace hEvent h := noReuse_append h fun _ _ hSame => by
    rw [hSame] at hEvent
    exact hEvent

instance : Unframed VulkanContext.NoReuse where
  answers h := h
  completed h := h
  deferred h := h
  destroyed h := h
  frames h := h
  recordings h := h
  submissions h := h
  frameNumber h := h

theorem keeps_noReuse_present : Keeps VulkanContext.NoReuse present :=
  indifferent_present (fun _ h => noReuse_append h nofun) (fun _ _ _ h => h) fun _ h => h

end Trace

-- ---------------------------------------------------------------------------
-- `BeginFrame`
-- ---------------------------------------------------------------------------

/-- No image has been acquired since `start`. -/
abbrev Unacquired (start : VulkanContext) : VulkanContext → Prop := fun t =>
  t.NoReuse ∧ OnSync (fun fences signals _ i =>
    fences = start.fence ∧ signals = start.signal ∧ i = start.frameIndex) t

/-- The last acquire since `start` has answered `result`. -/
def Acquired (start : VulkanContext) (result : VkResult) (t : VulkanContext) : Prop :=
  result ≠ .suboptimal ∧
    if result = .success then
      t.NoReuse ∧ OnSync (fun fences signals _ i => fences = start.fence ∧
        signals = Function.update start.signal start.frameIndex true ∧ i = start.frameIndex) t
    else Unacquired start t

section Begin

variable {s start t : VulkanContext} {result : VkResult}

theorem Acquired.unacquired (h : Acquired start result t) (hNot : result ≠ .success) :
    Unacquired start t := by
  obtain ⟨-, h⟩ := h
  rw [if_neg hNot] at h
  exact h

/-- What an acquire does to the trace, the fences and the semaphores. -/
theorem vkAcquireNextImageKHR_run (t : VulkanContext) :
    ∃ u, vkAcquireNextImageKHR t = .ok (t.next .vkAcquireNextImageKHR).result u ∧
      u.trace = t.trace ++
        [.acquireNextImage t.swapchain.swapchain t.frameIndex t.frame.acquireSemaphore] ∧
      u.fence = t.fence ∧ u.frameIndex = t.frameIndex ∧
      u.signal = if (t.next .vkAcquireNextImageKHR).result = .success ∨
          (t.next .vkAcquireNextImageKHR).result = .suboptimal
        then Function.update t.signal t.frameIndex true else t.signal := by
  let logged : VulkanContext := { t with trace := t.trace ++
    [.acquireNextImage t.swapchain.swapchain t.frameIndex t.frame.acquireSemaphore] }
  have hLog : log (.acquireNextImage t.swapchain.swapchain t.frameIndex t.frame.acquireSemaphore) t =
      .ok () logged := rfl
  have hAnswer : logged.next .vkAcquireNextImageKHR = t.next .vkAcquireNextImageKHR := rfl
  unfold vkAcquireNextImageKHR
  rw [bind_of_ok (get_run t), bind_of_ok hLog, bind_of_ok (ask_run _ _), hAnswer]
  by_cases hOk : (t.next .vkAcquireNextImageKHR).result = .success ∨
      (t.next .vkAcquireNextImageKHR).result = .suboptimal
  · rw [whenever, if_pos hOk]
    refine ⟨_, rfl, rfl, ?_, rfl, ?_⟩
    · have hFence : (t.setFrame { t.frame with acquireSemaphore := true }).fence = t.fence := by
        rw [fence_setFrame]
        exact Function.update_eq_self _ _
      exact hFence
    · rw [if_pos hOk]
      have hSignal : (t.setFrame { t.frame with acquireSemaphore := true }).signal =
          Function.update t.signal t.frameIndex true :=
        signal_setFrame
      exact hSignal
  · rw [whenever, if_neg hOk]
    refine ⟨_, rfl, rfl, rfl, rfl, ?_⟩
    rw [if_neg hOk]
    rfl

/-- An acquire on a semaphore without a signal. -/
theorem hoare_vkAcquireNextImageKHR (hSignal : start.signal start.frameIndex = false) :
    Hoare (fun t => Unacquired start t ∧ (t.next .vkAcquireNextImageKHR).result ≠ .suboptimal)
      vkAcquireNextImageKHR (Acquired start) (Unacquired start) := by
  rintro t ⟨⟨hReuse, hFence, hSame, hIndex⟩, hNot⟩
  obtain ⟨u, hRun, hTrace, hFenceAfter, hIndexAfter, hSignalAfter⟩ := vkAcquireNextImageKHR_run t
  have hClear : t.signal t.frameIndex = false := by
    rw [show t.signal = start.signal from hSame, hIndex]
    exact hSignal
  have hReuseAfter : u.NoReuse := by
    intro swapchain context hIn
    rw [hTrace, show t.frame.acquireSemaphore = false from hClear] at hIn
    rcases List.mem_append.mp hIn with hOld | hNew
    · exact hReuse swapchain context hOld
    · cases List.mem_singleton.mp hNew
  rw [hRun]
  by_cases hOk : (t.next .vkAcquireNextImageKHR).result = .success
  · rw [if_pos (.inl hOk)] at hSignalAfter
    refine ⟨hNot, ?_⟩
    rw [if_pos hOk]
    refine ⟨hReuseAfter, hFenceAfter.trans hFence, ?_, hIndexAfter.trans hIndex⟩
    rw [← hSame, ← hIndex]
    exact hSignalAfter
  · rw [if_neg (not_or.mpr ⟨hOk, hNot⟩)] at hSignalAfter
    refine ⟨hNot, ?_⟩
    rw [if_neg hOk]
    exact ⟨hReuseAfter, hFenceAfter.trans hFence, hSignalAfter.trans hSame,
      hIndexAfter.trans hIndex⟩

/-- An acquire is made again on a semaphore that has no signal yet. -/
theorem hoare_acquireAgain {again : Prop} [Decidable again] {recreate : Vk Unit}
    {Q : VulkanContext → Prop} (hSignal : start.signal start.frameIndex = false)
    (hAgain : again → result ≠ .success) (hRecreate : Keeps (Unacquired start) recreate)
    (hNext : again → ∀ u v, Q u → (do recreate; returnIfSuspended) u = .ok () v →
      (v.next .vkAcquireNextImageKHR).result ≠ .suboptimal) :
    Hoare (fun u => Acquired start result u ∧ Q u) (acquireAgain again recreate result)
      (Acquired start) (Unacquired start) := by
  unfold acquireAgain
  refine Hoare.ite (fun hNow => ?_) fun _ => hoare_pure fun u h => h.1
  have hTurn : Hoare (fun u => Unacquired start u ∧ Q u) (do recreate; returnIfSuspended)
      (fun _ => Unacquired start) (Unacquired start) :=
    (Keeps.seq hRecreate fun _ => keeps_returnIfSuspended).strengthen fun u h => h.1
  rw [← bind_assoc]
  refine Hoare.bind (hTurn.ran.strengthen fun u h => ⟨h.1.unacquired (hAgain hNow), h.2⟩) fun _ => ?_
  refine (hoare_vkAcquireNextImageKHR hSignal).strengthen ?_
  rintro v ⟨hKept, u, ⟨-, hQ⟩, hRan⟩
  exact ⟨hKept, hNext hNow u v hQ hRan⟩

/-- The acquires of a frame that acquires cleanly give its semaphore a signal, or fail. -/
theorem hoare_acquireImage (hClean : AcquiresCleanly s)
    (hSignal : start.signal start.frameIndex = false) :
    Hoare (fun t => Unacquired start t ∧ prepareFrame s = .ok true t) acquireImage
      (fun _ => Acquired start .success) (Unacquired start) := by
  have hFirst : Hoare (fun t => Unacquired start t ∧ prepareFrame s = .ok true t)
      vkAcquireNextImageKHR (Acquired start) (Unacquired start) :=
    (hoare_vkAcquireNextImageKHR hSignal).strengthen fun t h =>
      ⟨h.1, hClean.optimal t (.first h.2)⟩
  have hTwice : Hoare (fun t => Unacquired start t ∧ prepareFrame s = .ok true t) acquireTwice
      (Acquired start) (Unacquired start) := by
    refine Hoare.bind hFirst.ran fun result => ?_
    refine hoare_acquireAgain hSignal ?_
      (hoare_crReturnHr (keeps_recreateSwapchain fun _ => Aside.completed)) ?_
    · rintro (rfl | rfl)
      · exact nofun
      · exact nofun
    · rintro hResult u v ⟨t, ⟨-, hPrepare⟩, hAcquire⟩ hRecreate
      exact hClean.optimal v (.outOfDate hPrepare hAcquire hResult hRecreate)
  unfold acquireImage
  refine Hoare.bind hTwice.ran fun result => ?_
  refine Hoare.bind (hoare_acquireAgain hSignal ?_
    (keeps_loseSurface (fun _ => Aside.completed) _) ?_) fun last => ?_
  · rintro rfl
    exact nofun
  · rintro rfl u v ⟨t, ⟨-, hPrepare⟩, hAcquire⟩ hRecreate
    exact hClean.optimal v (.surfaceLost hPrepare hAcquire hRecreate)
  · by_cases hOk : last = .success
    · subst hOk
      exact fun u h => h
    · refine Hoare.strengthen (P := Unacquired start) ?_ fun u h => h.unacquired hOk
      refine Hoare.bind (keeps_whenever fun _ => keeps_loseDevice) fun _ => ?_
      rw [whenever, if_pos hOk]
      exact hoare_throw fun u h => h

theorem inStep_of_unacquired (hInStep : InStep start) (h : Unacquired start t) :
    t.NoReuse ∧ InStep t := by
  obtain ⟨hReuse, hFence, hSignal, -⟩ := h
  refine ⟨hReuse, ?_⟩
  show ∀ context, t.signal context = true → t.fence context = .unsignalled
  rw [show t.signal = start.signal from hSignal, show t.fence = start.fence from hFence]
  exact hInStep

/-- A fence that `BeginFrame` has waited for is not reset. -/
theorem fence_of_vkWaitForFences (hWait : vkWaitForFences s = .ok () t) :
    s.fence s.frameIndex ≠ .unsignalled := by
  obtain ⟨answer, u, hAsk, hRest⟩ := bind_eq_ok_iff.mp hWait
  obtain ⟨-, rfl⟩ := EStateM.Result.ok.inj hAsk
  obtain ⟨_, v, hCheck, hDone⟩ := bind_eq_ok_iff.mp hRest
  intro hNot
  unfold vkCheck whenever at hCheck
  split_ifs at hCheck with hFailed
  · cases hCheck
  · cases hCheck
    rw [bind_of_ok (get_run _)] at hDone
    change (if VulkanContext.isSignalled _ (s.fence s.frameIndex) then pure () else
      throw .blocked : Vk Unit) _ = _ at hDone
    rw [hNot, if_neg (by exact nofun)] at hDone
    cases hDone

/-- `BeginFrame` has waited for the fence before it acquires an image. -/
theorem signal_of_prepareFrame {acquires : Bool} (hInStep : InStep s)
    (hPrepare : prepareFrame s = .ok acquires t) : s.signal s.frameIndex = false := by
  obtain ⟨_, u, hEnter, hRest⟩ := bind_eq_ok_iff.mp hPrepare
  obtain ⟨_, v, hWait, -⟩ := bind_eq_ok_iff.mp hRest
  have hKept : Keeps (OnSync fun fences _ _ i => fences = s.fence ∧ i = s.frameIndex) enterFrame :=
    keeps_enterFrame
  have hSame := hKept s ⟨rfl, rfl⟩
  rw [hEnter] at hSame
  obtain ⟨hFence, hIndex⟩ := hSame
  have hNot := fence_of_vkWaitForFences hWait
  rw [show u.fence = s.fence from hFence, hIndex] at hNot
  cases hSignal : s.signal s.frameIndex with
  | false => rfl
  | true => exact absurd (hInStep s.frameIndex hSignal) hNot

/-- The fence is reset once an image has been acquired. -/
theorem hoare_vkResetFences (hInStep : InStep start) :
    Hoare (fun u => Acquired start .success u ∧ (u.next .vkResetFences).result = .success)
      vkResetFences (fun _ t => t.NoReuse ∧ InStep t) fun t => t.NoReuse ∧ InStep t := by
  rintro u ⟨⟨-, hAcquired⟩, hOk⟩
  rw [if_pos rfl] at hAcquired
  obtain ⟨hReuse, hFence, hSignal, hIndex⟩ := hAcquired
  unfold vkResetFences
  rw [bind_of_ok (ask_run _ u), vkCheck, whenever, if_neg (not_not.mpr hOk)]
  refine ⟨hReuse, ?_⟩
  let reset : VulkanFrameContext := { u.frame with inFlightFence := .unsignalled }
  have hFences : (u.setFrame reset).fence =
      Function.update start.fence start.frameIndex .unsignalled := by
    rw [fence_setFrame, show u.fence = start.fence from hFence, hIndex]
  have hSignals : (u.setFrame reset).signal =
      Function.update start.signal start.frameIndex true := by
    rw [signal_setFrame, ← hSignal]
    exact Function.update_eq_self _ _
  show ∀ context, (u.setFrame reset).signal context = true →
    (u.setFrame reset).fence context = .unsignalled
  rw [hFences, hSignals]
  intro context hTrue
  by_cases hContext : context = start.frameIndex
  · subst hContext
    rw [Function.update_self]
  · rw [Function.update_of_ne hContext] at hTrue ⊢
    exact hInStep context hTrue

/-- A frame that acquires cleanly. -/
theorem inStep_beginFrame (hReuse : s.NoReuse) (hInStep : InStep s) (hClean : AcquiresCleanly s) :
    (finalState (beginFrame s)).NoReuse ∧ InStep (finalState (beginFrame s)) := by
  have hPrepare : Hoare (fun t => t = s) prepareFrame
      (fun acquires t => Unacquired s t ∧ prepareFrame s = .ok acquires t)
      fun t => t.NoReuse ∧ InStep t := by
    have hKept : Keeps (Unacquired s) prepareFrame := keeps_prepareFrame
    have hFirst : Hoare (fun t => t = s) prepareFrame (fun _ => Unacquired s) (Unacquired s) :=
      hKept.strengthen fun t hSame => by
        rw [hSame]
        exact ⟨hReuse, rfl, rfl, rfl⟩
    refine hFirst.ran.weaken ?_ fun t => inStep_of_unacquired hInStep
    rintro acquires t ⟨hHere, u, rfl, hRan⟩
    exact ⟨hHere, hRan⟩
  have hAcquire : Hoare (fun t => Unacquired s t ∧ prepareFrame s = .ok true t)
      (do acquireImage; vkResetFences)
      (fun _ t => t.NoReuse ∧ InStep t) fun t => t.NoReuse ∧ InStep t := by
    rintro t ⟨hHere, hRan⟩
    have hSignal := signal_of_prepareFrame hInStep hRan
    have hImage := (hoare_acquireImage hClean hSignal).ran.weaken (fun _ _ h => h)
      fun u => inStep_of_unacquired hInStep
    refine (Hoare.bind hImage fun _ => (hoare_vkResetFences hInStep).strengthen ?_) t ⟨hHere, hRan⟩
    rintro u ⟨hDone, v, ⟨-, hFrom⟩, hAcquired⟩
    exact ⟨hDone, hClean.resets v u hFrom hAcquired⟩
  have hArm : Hoare (fun t => t = s) armFrame (fun _ t => t.NoReuse ∧ InStep t)
      fun t => t.NoReuse ∧ InStep t := by
    refine Hoare.bind hPrepare fun acquires => ?_
    cases acquires with
    | true =>
      rw [if_pos rfl, ← bind_assoc]
      exact Hoare.bind hAcquire fun _ => hoare_pure fun t h => h
    | false => exact hoare_pure fun t h => inStep_of_unacquired hInStep h.1
  have hBegin : Hoare (fun t => t = s) beginFrame (fun _ t => t.NoReuse ∧ InStep t)
      fun t => t.NoReuse ∧ InStep t := by
    rw [beginFrame_eq]
    exact Hoare.bind hArm fun _ => unframed_beginRecording.and keeps_onSync_beginRecording
  exact hBegin.finalState rfl

end Begin

-- ---------------------------------------------------------------------------
-- Runs
-- ---------------------------------------------------------------------------

/-- No acquire of a run is on a semaphore that has a signal already. -/
def ReusesNoSemaphore (start : VulkanContext) (calls : List Call) : Prop :=
  ∀ before after, calls = before ++ after → ∀ s, runEvents step start before = some s → s.NoReuse

section Run

variable {s next start : VulkanContext}

/-- `EndFrame` waits for the semaphore of the frame that it submits. -/
theorem inStep_endFrame (h : InStep s) : InStep (finalState (endFrame s)) := by
  show ∀ context, (finalState (endFrame s)).signal context = true →
    (finalState (endFrame s)).fence context = .unsignalled
  rcases sync_endFrame s with ⟨-, hSync⟩ | ⟨-, hSame⟩
  · rw [hSync.fence, hSync.signal]
    intro context hTrue
    by_cases hContext : context = s.frameIndex
    · subst hContext
      rw [Function.update_self] at hTrue
      cases hTrue
    · rw [Function.update_of_ne hContext] at hTrue ⊢
      exact h context hTrue
  · rw [hSame.fence, hSame.signal]
    exact h

theorem inStep_step {call : Call} (h : s.NoReuse ∧ InStep s)
    (hClean : ∀ answers, call = .beginFrame answers → AcquiresCleanly { s with answers })
    (hStep : step s call = some next) : next.NoReuse ∧ InStep next := by
  by_cases hOther : call.IsOther
  · have hReuse := aside_of_other keeps_noReuse_present h.1 hOther hStep
    have hSame := sync_of_other hOther hStep
    refine ⟨hReuse, ?_⟩
    show ∀ context, next.signal context = true → next.fence context = .unsignalled
    rw [hSame.fence, hSame.signal]
    exact h.2
  obtain ⟨⟨result, t⟩, hPerform, rfl⟩ := Option.map_eq_some_iff.mp hStep
  cases call with
  | beginFrame answers =>
    have hEnd := finalState_of_resultOf (invoke_eq_some_iff.mp hPerform)
    have hBegun := inStep_beginFrame (s := { s with answers }) h.1 h.2 (hClean answers rfl)
    rw [hEnd] at hBegun
    exact hBegun
  | endFrame answers =>
    have hEnd := finalState_of_resultOf (invoke_eq_some_iff.mp hPerform)
    have hInStep := inStep_endFrame (s := { s with answers }) h.2
    rw [hEnd] at hInStep
    exact ⟨keeps_invoke unframed_endFrame h.1 hPerform, hInStep⟩
  | _ => exact absurd trivial hOther

/-- In every run on a new device whose frames acquire cleanly, no acquire is on a semaphore that
has a signal already. -/
theorem noReuse_of_acquiresCleanly {windowless : Bool} {mode : VkExtent2D}
    {depthFormats : List VkFormat} {answers : Answers}
    (hStart : createDevice windowless mode depthFormats answers = some start) {calls : List Call}
    (hClean : ∀ before answers after s, calls = before ++ .beginFrame answers :: after →
      runEvents step start before = some s → AcquiresCleanly { s with answers }) :
    ReusesNoSemaphore start calls := by
  have hFirst : start.NoReuse ∧ InStep start := by
    refine aside_createDevice (I := fun s => s.NoReuse ∧ InStep s) ⟨?_, ?_⟩ hStart
    · exact fun _ _ hIn => nomatch hIn
    · exact fun _ hTrue => nomatch hTrue
  intro before after hSplit s hRun
  refine (invariant_along (I := fun s => s.NoReuse ∧ InStep s) hFirst ?_ before after hSplit s
    hRun).1
  intro done call rest mid next hHere hDone hStep hInvariant
  refine inStep_step hInvariant (fun answers hBegin => ?_) hStep
  exact hClean done answers rest mid (by rw [hHere, hBegin]) hDone

/-- A call that begins a frame acquires an image at its first attempt, and resets the fence. -/
def acquiresAtOnce (s : VulkanContext) : Call → Bool
  | .beginFrame answers =>
    Returns (fun ready t =>
      ready = true ∧ (t.next .vkAcquireNextImageKHR).result = .success ∧
        Returns (fun result _ => result = .success) acquireTwice t ∧
        Returns (fun _ u => (u.next .vkResetFences).result = .success) acquireImage t)
      prepareFrame { s with answers }
  | _ => true

/-- Where the first acquire succeeds there is no other. -/
theorem acquiresCleanly_of_atOnce {answers : Answers}
    (h : acquiresAtOnce s (.beginFrame answers) = true) : AcquiresCleanly { s with answers } := by
  obtain ⟨_, t, hPrepare, rfl, hOnce, ⟨_, v, hTwice, rfl⟩, _, u, hImage, hReset⟩ :=
    of_decide_eq_true h
  obtain ⟨w, hRan, -⟩ := vkAcquireNextImageKHR_run t
  rw [hOnce] at hRan
  refine ⟨fun t' hAcquires => ?_, fun t' u' hPrepare' hImage' => ?_⟩
  · cases hAcquires with
    | first hPrepare' =>
      cases hPrepare.symm.trans hPrepare'
      rw [hOnce]
      decide
    | outOfDate hPrepare' hAcquire hResult hRecreate =>
      cases hPrepare.symm.trans hPrepare'
      cases hRan.symm.trans hAcquire
      exact absurd hResult (by decide)
    | surfaceLost hPrepare' hAcquire hRecreate =>
      cases hPrepare.symm.trans hPrepare'
      cases hTwice.symm.trans hAcquire
  · cases hPrepare.symm.trans hPrepare'
    cases hImage.symm.trans hImage'
    exact hReset

/-- The third frame acquires again on the semaphore of the first, whose signal the submission of
the first has waited for. -/
theorem noReuse_thirdFrame : ∃ start s,
    createDevice false ⟨640, 480⟩ [.VK_FORMAT_D32_SFLOAT] (fun _ => []) = some start ∧
    runEvents step start (twoFrames ++ [.beginFrame fun _ => []]) = some s ∧
    s.trace.count (.acquireNextImage s.swapchain.swapchain 0 false) = 2 ∧
    ReusesNoSemaphore start (twoFrames ++ [.beginFrame fun _ => []]) := by
  have hFirst : (createDevice false ⟨640, 480⟩ [.VK_FORMAT_D32_SFLOAT] fun _ => []).any
      fun start => checkAlong step acquiresAtOnce start (twoFrames ++ [.beginFrame fun _ => []]) &&
        (runEvents step start (twoFrames ++ [.beginFrame fun _ => []])).any fun s =>
          s.trace.count (.acquireNextImage s.swapchain.swapchain 0 false) = 2 := by
    decide +kernel
  obtain ⟨start, hStart, hBoth⟩ := (Option.any_eq_true _ _).mp hFirst
  obtain ⟨hChecked, hSecond⟩ := Bool.and_eq_true_iff.mp hBoth
  obtain ⟨s, hRun, hCount⟩ := (Option.any_eq_true _ _).mp hSecond
  refine ⟨start, s, hStart, hRun, of_decide_eq_true hCount, noReuse_of_acquiresCleanly hStart ?_⟩
  intro before answers after mid hSplit hBefore
  exact acquiresCleanly_of_atOnce (checkAlong_iff.mp hChecked before _ after mid hSplit hBefore)

/-- The first acquire finds that the swapchain does not match its surface any more. -/
def suboptimalAnswers : Answers
  | .vkAcquireNextImageKHR => [{ result := .suboptimal }]
  | _ => []

/-- The image is acquired again on the semaphore of the first acquire. -/
theorem not_reusesNoSemaphore_suboptimal : ∃ start,
    createDevice false ⟨640, 480⟩ [.VK_FORMAT_D32_SFLOAT] (fun _ => []) = some start ∧
    ¬ReusesNoSemaphore start [.beginFrame suboptimalAnswers] := by
  have hFirst : (createDevice false ⟨640, 480⟩ [.VK_FORMAT_D32_SFLOAT] fun _ => []).any
      fun start => (step start (.beginFrame suboptimalAnswers)).any fun s =>
        .acquireNextImage s.swapchain.swapchain 0 true ∈ s.trace := by
    decide +kernel
  obtain ⟨start, hStart, hSecond⟩ := (Option.any_eq_true _ _).mp hFirst
  obtain ⟨s, hStep, hReused⟩ := (Option.any_eq_true _ _).mp hSecond
  refine ⟨start, hStart, fun hAll => ?_⟩
  have hRun : runEvents step start [.beginFrame suboptimalAnswers] = some s :=
    runEvents_cons_eq_some.mpr ⟨s, hStep, rfl⟩
  exact hAll [.beginFrame suboptimalAnswers] [] rfl s hRun s.swapchain.swapchain 0
    (of_decide_eq_true hReused)

end Run

end Ithax.Vulkan
