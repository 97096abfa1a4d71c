import Ithax.Vulkan.Swapchain

/-!
# `BeginFrame` in parts

`BeginFrame` returns from many places. Here it is cut where it calls Vulkan, so that what it
has done by then can be told: `enterFrame` ends before the fence is waited for, `prepareFrame`
before an image is acquired, and `armFrame` before the command pool is reset.

## Results

* `beginFrame_eq`      — `BeginFrame` is put together from the parts.
* `keeps_prepareFrame` — a frame is prepared without a change to the frame contexts.
-/

namespace Ithax.Vulkan

open Ithax.Lib

/-- The command buffer of the current context is being recorded. -/
def VulkanContext.IsRecording (s : VulkanContext) : Prop :=
  ∃ recording, s.frame.commandBuffer = .recording recording

/-- A context in a frame, where every Vulkan function succeeds. -/
def inFrame : VulkanContext where
  windowless := true
  mode := ⟨640, 480⟩
  depthFormats := []
  frames := fun _ => { commandBuffer := .recording 0 }
  recordings := 1

-- ---------------------------------------------------------------------------
-- The parts
-- ---------------------------------------------------------------------------

/-- `BeginFrame` before it waits for its fence. -/
def enterFrame : Vk Unit := do
  let s ← get
  whenever s.deviceLost (giveUp .E_DEVICELOST)
  whenever s.surfacePending (crReturnHr recreateSurface)

/-- `BeginFrame` while the swapchain is suspended: whether it goes on to acquire an image. -/
def resumeFrame : Vk Bool := do
  let caps ← ask .vkGetPhysicalDeviceSurfaceCapabilitiesKHR
  if caps.result = .surfaceLost then
    loseSurface "surface caps returned VK_ERROR_SURFACE_LOST_KHR"
    return !(← get).swapchain.suspended
  else if caps.result = .success ∧ caps.currentExtent.width ≠ 0 ∧ caps.currentExtent.height ≠ 0 then
    crReturnHr recreateSwapchain
    return !(← get).swapchain.suspended
  else return false

/-- `BeginFrame` before its first acquire: whether there is one. -/
def prepareFrame : Vk Bool := do
  enterFrame
  vkWaitForFences
  let completedValue ← vkGetSemaphoreCounterValue
  drainDeferred completedValue
  if (← get).swapchain.suspended then resumeFrame else return true

/-- The first acquire, and the second after `RecreateSwapchain`. -/
def acquireTwice : Vk VkResult := do
  let acquireResult ← vkAcquireNextImageKHR
  acquireAgain (acquireResult = .outOfDate ∨ acquireResult = .suboptimal)
    (crReturnHr recreateSwapchain) acquireResult

/-- The acquires of a frame, up to the reset of its fence. -/
def acquireImage : Vk Unit := do
  let acquireResult ← acquireTwice
  let acquireResult ← acquireAgain (acquireResult = .surfaceLost)
    (loseSurface "acquire returned VK_ERROR_SURFACE_LOST_KHR") acquireResult
  whenever (acquireResult = .deviceLost) loseDevice
  whenever (acquireResult ≠ .success) (giveUp .E_FAIL)

/-- The states in which `BeginFrame` acquires an image. -/
inductive AcquiresIn (s : VulkanContext) : VulkanContext → Prop
  | first {t : VulkanContext} (hPrepare : prepareFrame s = .ok true t) : AcquiresIn s t
  | outOfDate {t u v : VulkanContext} {result : VkResult} (hPrepare : prepareFrame s = .ok true t)
      (hAcquire : vkAcquireNextImageKHR t = .ok result u)
      (hResult : result = .outOfDate ∨ result = .suboptimal)
      (hRecreate : (do crReturnHr recreateSwapchain; returnIfSuspended) u = .ok () v) :
      AcquiresIn s v
  | surfaceLost {t u v : VulkanContext} (hPrepare : prepareFrame s = .ok true t)
      (hAcquire : acquireTwice t = .ok .surfaceLost u)
      (hRecreate : (do
        loseSurface "acquire returned VK_ERROR_SURFACE_LOST_KHR"
        returnIfSuspended) u = .ok () v) :
      AcquiresIn s v

/-- `BeginFrame` before it resets the command pool: whether it has reset its fence. -/
def armFrame : Vk Bool := do
  if ← prepareFrame then
    acquireImage
    vkResetFences
    return true
  else return false

theorem acquireAndBegin_eq : acquireAndBegin = (do
    acquireImage
    vkResetFences
    beginRecording) := by
  simp only [acquireAndBegin, acquireImage, acquireTwice, bind_assoc]

theorem beginSuspended_eq : beginSuspended = (do
    if ← resumeFrame then acquireAndBegin else beginRecording) := by
  have hTurn : (do if (← get).swapchain.suspended then beginRecording else acquireAndBegin : Vk Unit) =
      (do if (!(← get).swapchain.suspended : Bool) then acquireAndBegin else beginRecording) := by
    congr 1
    funext s
    cases s.swapchain.suspended <;> rfl
  unfold beginSuspended resumeFrame
  rw [bind_assoc]
  congr 1
  funext caps
  split_ifs with hLost hVisible
  · rw [hTurn]
    simp only [bind_assoc, pure_bind]
  · rw [hTurn]
    simp only [bind_assoc, pure_bind]
  · rfl

/-- `BeginFrame` with its first lines as one part. -/
theorem beginFrame_eq_enterFrame : beginFrame = (do
    enterFrame
    vkWaitForFences
    let completedValue ← vkGetSemaphoreCounterValue
    drainDeferred completedValue
    if (← get).swapchain.suspended then beginSuspended else acquireAndBegin) := by
  simp only [beginFrame, enterFrame, bind_assoc]

/-- `BeginFrame` resets its fence when an image has been acquired, and begins its command
buffer in any case. -/
theorem beginFrame_eq : beginFrame = (do
    let _ ← armFrame
    beginRecording) := by
  rw [beginFrame_eq_enterFrame, beginSuspended_eq, acquireAndBegin_eq]
  unfold armFrame prepareFrame
  simp only [bind_assoc]
  congr 1
  funext _
  congr 1
  funext _
  congr 1
  funext _
  congr 1
  funext _
  congr 1
  funext s
  cases s.swapchain.suspended with
  | true =>
    simp only [if_true]
    congr 1
    funext acquires
    cases acquires <;> simp
  | false => simp

/-- What a call returns, and the state that it leaves. -/
theorem invoke_eq_some_iff {body : Vk Unit} {answers : Answers} {s next : VulkanContext}
    {result : ALResult} : invoke body answers s = some (result, next) ↔
      resultOf body { s with answers } = .ok result next := by
  unfold invoke
  rcases hRun : resultOf body { s with answers } with ⟨r, t⟩ | ⟨exit, t⟩
  · simp
  · simp

-- ---------------------------------------------------------------------------
-- What the parts leave alone
-- ---------------------------------------------------------------------------

/-- What holds of the frame contexts and of what they have submitted. -/
abbrev OnFrames (J : (FrameIndex → VulkanFrameContext) → FrameIndex → List Submission → Prop)
    (s : VulkanContext) : Prop :=
  J s.frames s.frameIndex s.submissions

section Frames

variable {J : (FrameIndex → VulkanFrameContext) → FrameIndex → List Submission → Prop}
  {I : VulkanContext → Prop}

instance : Indifferent (OnFrames J) where
  ask _ h := h
  surfaceFormat h := h
  surfaceLossReason h := h
  handles h := h
  deviceLost h := h

instance : Spared (OnFrames J) where
  swapchain h := h
  trace _ h := h

instance : Aside (OnFrames J) where
  answers h := h
  completed h := h
  deferred h := h
  destroyed h := h

section Patient

variable [Patient I]

theorem keeps_vkWaitForFences : Keeps I vkWaitForFences := by
  unfold vkWaitForFences
  refine Keeps.seq (fun _ h => Patient.answers h) fun _ => Keeps.seq (keeps_vkCheck _) fun _ => ?_
  refine Keeps.seq keeps_get fun s => ?_
  exact Hoare.ite (fun _ => keeps_pure ()) fun _ => keeps_throw _

theorem keeps_vkGetSemaphoreCounterValue : Keeps I vkGetSemaphoreCounterValue := by
  unfold vkGetSemaphoreCounterValue
  refine Keeps.seq (fun _ h => Patient.answers h) fun _ => Keeps.seq (keeps_vkCheck _) fun _ => ?_
  exact Keeps.seq keeps_get fun s => keeps_pure _

/-- What the function of a call keeps, the call keeps. -/
theorem keeps_invoke {body : Vk Unit} {answers : Answers} {s next : VulkanContext}
    {result : ALResult} (hBody : Keeps I body) (h : I s)
    (hRun : invoke body answers s = some (result, next)) : I next :=
  hoare_invoke hBody (Patient.answers h) hRun

end Patient

variable [Spared I] [Patient I]

theorem keeps_enterFrame : Keeps I enterFrame := by
  unfold enterFrame
  refine Keeps.seq keeps_get fun s => ?_
  refine Keeps.seq (keeps_whenever fun _ => keeps_giveUp _) fun _ => ?_
  exact keeps_whenever fun _ => hoare_crReturnHr (keeps_recreateSurface fun _ => Patient.idle)

theorem keeps_resumeFrame : Keeps I resumeFrame := by
  have hVisible : Keeps I (do return !(← get).swapchain.suspended : Vk Bool) :=
    Keeps.seq keeps_get fun _ => keeps_pure _
  unfold resumeFrame
  refine Keeps.seq (keeps_ask (by decide)) fun caps => Hoare.ite (fun _ => ?_) fun _ => ?_
  · exact Keeps.seq (keeps_loseSurface (fun _ => Patient.idle) _) fun _ => hVisible
  · refine Hoare.ite (fun _ => ?_) fun _ => keeps_pure _
    exact Keeps.seq (hoare_crReturnHr (keeps_recreateSwapchain fun _ => Patient.idle)) fun _ =>
      hVisible

theorem keeps_prepareFrame : Keeps I prepareFrame := by
  unfold prepareFrame
  refine Keeps.seq keeps_enterFrame fun _ => ?_
  refine Keeps.seq keeps_vkWaitForFences fun _ => ?_
  refine Keeps.seq keeps_vkGetSemaphoreCounterValue fun completedValue => ?_
  refine Keeps.seq (keeps_drainDeferred _) fun _ => ?_
  exact Keeps.seq keeps_get fun s => Hoare.ite (fun _ => keeps_resumeFrame) fun _ => keeps_pure _

/-- What holds of the context from the beginning holds of a new device. -/
theorem aside_createDevice {windowless : Bool} {mode : VkExtent2D} {depthFormats : List VkFormat}
    {answers : Answers} {start : VulkanContext} (hFirst : I { windowless, mode, depthFormats })
    (h : createDevice windowless mode depthFormats answers = some start) : I start := by
  unfold createDevice at h
  simp only at h
  split at h
  · cases h
    exact hFirst
  · split at h
    · rename_i s hInvoke
      cases h
      exact keeps_invoke (keeps_createSwapchainInternal _) hFirst hInvoke
    · cases h

/-- What an acquire keeps, all the acquires of a frame keep. -/
theorem keeps_acquires (hAcquire : Keeps I vkAcquireNextImageKHR) : Keeps I acquireImage := by
  have hSwapchain : Keeps I (crReturnHr recreateSwapchain) :=
    hoare_crReturnHr (keeps_recreateSwapchain fun _ => Patient.idle)
  unfold acquireImage acquireTwice
  refine Keeps.seq (Keeps.seq hAcquire fun _ => keeps_acquireAgain hAcquire hSwapchain) fun _ => ?_
  refine Keeps.seq (keeps_acquireAgain hAcquire (keeps_loseSurface (fun _ => Patient.idle) _))
    fun _ => ?_
  refine Keeps.seq (keeps_whenever fun _ => keeps_loseDevice) fun _ => ?_
  exact keeps_whenever fun _ => keeps_giveUp _

/-- The acquires of a frame give its semaphore a signal, and that is all. -/
theorem keeps_acquireImage
    (hSignal : ∀ frames i submissions, J frames i submissions →
      J (Function.update frames i { frames i with acquireSemaphore := true }) i submissions) :
    Keeps (OnFrames J) acquireImage :=
  keeps_acquires (keeps_acquire (fun _ h => h) fun _ _ h => hSignal _ _ _ h)

end Frames

end Ithax.Vulkan
