import Ithax.Vulkan.Frame

/-!
# What the functions of the swapchain leave alone

The functions that create, recreate and destroy the swapchain and the surface change neither
the frame contexts nor the queue of retired objects. An invariant that speaks of nothing
that they change survives every one of them. An invariant that does not speak of the queue
either survives what retires objects.

## Results

* `keeps_recreateSwapchain`, `keeps_recreateSurface` — for every such invariant.
* `keeps_recordAndRetire`, `keeps_updateBuffer`      — where the queue does not matter.
* `unframed_endFrame`, `unframed_beginRecording`     — nor the frame contexts.
-/

namespace Ithax.Vulkan

open Ithax.Lib

/-- A swapchain is created, replaced or destroyed. -/
def VkEvent.OfSwapchain : VkEvent → Prop
  | .createSwapchain _ | .replaceSwapchain _ | .getSwapchainImages _ | .destroySwapchain _ => True
  | _ => False

/-- The invariant does not depend on the answers to come of the functions that do not concern
the fence and the timeline of a frame, nor on what is kept of the surface. -/
class Indifferent (I : VulkanContext → Prop) : Prop where
  ask : ∀ {s : VulkanContext} {function : VkFunction} {answers : List Answer},
    function ≠ .vkWaitForFences ∧ function ≠ .vkGetSemaphoreCounterValue → I s →
    I { s with answers := Function.update s.answers function answers }
  surfaceFormat : ∀ {s : VulkanContext} {surfaceFormat : VkSurfaceFormat}, I s →
    I { s with surfaceFormat }
  surfaceLossReason : ∀ {s : VulkanContext} {surfaceLossReason : String}, I s →
    I { s with surfaceLossReason }
  handles : ∀ {s : VulkanContext}, I s → I { s with handles := s.handles + 1 }
  deviceLost : ∀ {s : VulkanContext} {deviceLost : Bool}, I s → I { s with deviceLost }

/-- The invariant does not depend on what a swapchain is made of either. -/
class Spared (I : VulkanContext → Prop) : Prop extends Indifferent I where
  swapchain : ∀ {s : VulkanContext} {swapchain : VulkanSwapchainState}, I s →
    I { s with swapchain }
  trace : ∀ {s : VulkanContext} {event : VkEvent}, event.OfSwapchain → I s →
    I { s with trace := s.trace ++ [event] }

/-- The invariant does not depend on the queue of retired objects, and survives that the GPU
completes all that was submitted. -/
class Patient (I : VulkanContext → Prop) : Prop extends Indifferent I where
  answers : ∀ {s : VulkanContext} {answers : Answers}, I s → I { s with answers }
  idle : ∀ {s : VulkanContext}, I s → I { s with completed := s.submissions.length }
  deferred : ∀ {s : VulkanContext} {deferred : List Retired}, I s → I { s with deferred }
  destroyed : ∀ {s : VulkanContext} {destroyed : List Destroyed}, I s → I { s with destroyed }

/-- The invariant does not depend on the GPU either. -/
class Aside (I : VulkanContext → Prop) : Prop extends Patient I where
  completed : ∀ {s : VulkanContext} {completed : Nat}, I s → I { s with completed }
  idle h := completed h

/-- The invariant does not depend on the frame contexts and the frames that they submit either. -/
class Unframed (I : VulkanContext → Prop) : Prop extends Aside I where
  frames : ∀ {s : VulkanContext} {frames : FrameIndex → VulkanFrameContext}, I s →
    I { s with frames }
  recordings : ∀ {s : VulkanContext} {recordings : Nat}, I s → I { s with recordings }
  submissions : ∀ {s : VulkanContext} {submissions : List Submission}, I s →
    I { s with submissions }
  frameNumber : ∀ {s : VulkanContext} {frameNumber : UInt64}, I s → I { s with frameNumber }

section Both

variable {I K : VulkanContext → Prop}

instance [Indifferent I] [Indifferent K] : Indifferent fun s => I s ∧ K s where
  ask hOther h := ⟨Indifferent.ask hOther h.1, Indifferent.ask hOther h.2⟩
  surfaceFormat h := ⟨Indifferent.surfaceFormat h.1, Indifferent.surfaceFormat h.2⟩
  surfaceLossReason h := ⟨Indifferent.surfaceLossReason h.1, Indifferent.surfaceLossReason h.2⟩
  handles h := ⟨Indifferent.handles h.1, Indifferent.handles h.2⟩
  deviceLost h := ⟨Indifferent.deviceLost h.1, Indifferent.deviceLost h.2⟩

instance [Spared I] [Spared K] : Spared fun s => I s ∧ K s where
  swapchain h := ⟨Spared.swapchain h.1, Spared.swapchain h.2⟩
  trace hEvent h := ⟨Spared.trace hEvent h.1, Spared.trace hEvent h.2⟩

instance [Aside I] [Aside K] : Aside fun s => I s ∧ K s where
  answers h := ⟨Patient.answers h.1, Patient.answers h.2⟩
  completed h := ⟨Aside.completed h.1, Aside.completed h.2⟩
  deferred h := ⟨Patient.deferred h.1, Patient.deferred h.2⟩
  destroyed h := ⟨Patient.destroyed h.1, Patient.destroyed h.2⟩

end Both

-- ---------------------------------------------------------------------------
-- Small programs
-- ---------------------------------------------------------------------------

section Keep

variable {I : VulkanContext → Prop} {α : Type} {m : Vk Unit}

/-- An early return touches nothing. -/
theorem keeps_giveUp (result : ALResult) : Keeps I (giveUp result : Vk α) :=
  keeps_throw _

/-- A step that may be left out. -/
theorem keeps_whenever {c : Prop} [Decidable c] (h : c → Keeps I m) : Keeps I (whenever c m) :=
  Hoare.ite h fun _ => keeps_pure ()

/-- `VK_CHECK` touches nothing. -/
theorem keeps_vkCheck (result : VkResult) : Keeps I (vkCheck result) :=
  keeps_whenever fun _ => keeps_giveUp _

/-- The result of a function, of which every exit leaves `Q`. -/
theorem hoare_resultOf {P Q : VulkanContext → Prop} (h : Hoare P m (fun _ => Q) Q) :
    Hoare P (resultOf m) (fun _ => Q) Q := by
  intro s hs
  have hRun := h s hs
  unfold resultOf
  rcases hm : m s with ⟨u, s'⟩ | ⟨exit, s'⟩
  · rw [hm] at hRun
    exact hRun
  · rw [hm] at hRun
    cases exit <;> exact hRun

/-- What the function of a call leaves, the call leaves. -/
theorem hoare_invoke {P Q : VulkanContext → Prop} {answers : Answers} {s next : VulkanContext}
    {result : ALResult} (h : Hoare P m (fun _ => Q) Q) (hs : P { s with answers })
    (hRun : invoke m answers s = some (result, next)) : Q next := by
  have hEnd := hoare_resultOf h { s with answers } hs
  unfold invoke at hRun
  rcases hResult : resultOf m { s with answers } with ⟨r, t⟩ | ⟨exit, t⟩
  · rw [hResult] at hRun hEnd
    obtain ⟨-, rfl⟩ := Prod.mk.inj (Option.some.inj hRun)
    exact hEnd
  · rw [hResult] at hRun
    exact nomatch hRun

/-- The GPU has completed the next submission. -/
theorem perform_complete {s next : VulkanContext} {result : ALResult}
    (h : Call.perform .complete s = some (result, next)) :
    s.completed < s.submissions.length ∧ next = { s with completed := s.completed + 1 } := by
  obtain ⟨hLeft, hSame⟩ := Option.ite_none_right_eq_some.mp h
  obtain ⟨-, rfl⟩ := Prod.mk.inj (Option.some.inj hSame)
  exact ⟨hLeft, rfl⟩

/-- `CR_RETURN_HR` adds no step to the call that it checks. -/
theorem hoare_crReturnHr {P Q : VulkanContext → Prop} (h : Hoare P m (fun _ => Q) Q) :
    Hoare P (crReturnHr m) (fun _ => Q) Q :=
  Hoare.bind (hoare_resultOf h) fun _ => keeps_whenever fun _ => keeps_giveUp _

section Indifferent

variable [Indifferent I]

/-- An answer was used up. -/
theorem keeps_ask {function : VkFunction}
    (hOther : function ≠ .vkWaitForFences ∧ function ≠ .vkGetSemaphoreCounterValue) :
    Keeps I (ask function) :=
  fun _ h => Indifferent.ask hOther h

/-- A handle was made. -/
theorem keeps_newHandle : Keeps I newHandle := fun _ h => Indifferent.handles h

/-- A function that is checked, and what it does when it succeeds. -/
theorem hoare_checked {function : VkFunction} {f : VulkanContext → VulkanContext}
    {Q : VulkanContext → Prop}
    (hOther : function ≠ .vkWaitForFences ∧ function ≠ .vkGetSemaphoreCounterValue)
    (hDone : ∀ s, I s → Q (f s)) :
    Hoare I (do vkCheck (← ask function).result; modify f) (fun _ => Q) I :=
  Hoare.bind (keeps_ask hOther) fun _ => Hoare.bind (keeps_vkCheck _) fun _ => hoare_modify hDone

/-- The device is marked as lost. -/
theorem keeps_loseDevice : Keeps I loseDevice :=
  Keeps.seq (fun _ h => Indifferent.deviceLost h) fun _ => keeps_giveUp _

/-- The surface is only asked. -/
theorem keeps_querySurfaceCapabilities : Keeps I querySurfaceCapabilities := by
  unfold querySurfaceCapabilities
  refine Keeps.seq (keeps_ask (by decide)) fun _ => Hoare.ite (fun _ => keeps_pure _) fun _ => ?_
  refine Keeps.seq (keeps_ask (by decide)) fun _ => Hoare.ite (fun _ => keeps_pure _) fun _ => ?_
  refine Keeps.seq (keeps_ask (by decide)) fun _ => Hoare.ite (fun _ => keeps_pure _) fun _ => ?_
  refine Keeps.seq (keeps_ask (by decide)) fun _ => Hoare.ite (fun _ => keeps_pure _) fun _ => ?_
  exact Keeps.seq (keeps_ask (by decide)) fun _ => keeps_pure _

/-- A surface costs one answer. -/
theorem keeps_createSurface : Keeps I createSurface :=
  Keeps.seq (keeps_ask (by decide)) fun _ => keeps_whenever fun _ => keeps_giveUp _

/-- So does the device. -/
theorem keeps_pickPhysicalDevice : Keeps I pickPhysicalDevice :=
  Keeps.seq (keeps_ask (by decide)) fun _ => keeps_whenever fun _ => keeps_giveUp _

end Indifferent

section Spared

variable [Spared I]

/-- An event of the swapchain is traced. -/
theorem keeps_log {event : VkEvent} (hEvent : event.OfSwapchain) : Keeps I (log event) :=
  fun _ h => Spared.trace hEvent h

/-- The swapchain's own fields are nobody else's. -/
theorem keeps_modifySwapchain (f : VulkanSwapchainState → VulkanSwapchainState) :
    Keeps I (modifySwapchain f) :=
  fun _ h => Spared.swapchain h

end Spared

/-- The return of a suspended swapchain. -/
theorem keeps_returnIfSuspended : Keeps I returnIfSuspended :=
  Keeps.seq keeps_get fun _ => keeps_whenever fun _ => keeps_giveUp _

end Keep

-- ---------------------------------------------------------------------------
-- The swapchain
-- ---------------------------------------------------------------------------

section Swapchain

-- Otherwise the functions of the swapchain only wait for the GPU.
variable {I : VulkanContext → Prop} [Spared I]
  (hIdle : ∀ s, I s → I { s with completed := s.submissions.length })

/-- The depth image and its view. -/
theorem keeps_createDepthResources : Keeps I createDepthResources := by
  unfold createDepthResources
  refine Keeps.seq keeps_get fun _ => ?_
  refine Keeps.seq (keeps_modifySwapchain _) fun _ => ?_
  refine Keeps.seq (keeps_ask (by decide)) fun _ => ?_
  refine Keeps.seq (keeps_whenever fun _ => keeps_giveUp _) fun _ => ?_
  refine Keeps.seq keeps_newHandle fun _ => ?_
  refine Keeps.seq (keeps_modifySwapchain _) fun _ => ?_
  refine Keeps.seq (keeps_ask (by decide)) fun _ => ?_
  refine Keeps.seq (keeps_vkCheck _) fun _ => ?_
  exact Keeps.seq keeps_newHandle fun _ => keeps_modifySwapchain _

/-- The view of each image. -/
theorem keeps_createImageViews : ∀ (left i : Nat), Keeps I (createImageViews i left)
  | 0, _ => keeps_pure ()
  | left + 1, i => by
    unfold createImageViews
    refine Keeps.seq (keeps_ask (by decide)) fun _ => ?_
    refine Keeps.seq (keeps_vkCheck _) fun _ => ?_
    refine Keeps.seq keeps_newHandle fun _ => ?_
    refine Keeps.seq (keeps_modifySwapchain _) fun _ => ?_
    exact keeps_createImageViews left (i + 1)

/-- The swapchain of a surface without extent. -/
theorem keeps_suspend (extent : VkExtent2D) (oldSwapchain : Handle) :
    Keeps I (suspend extent oldSwapchain) := by
  unfold suspend
  refine Keeps.seq (keeps_modifySwapchain _) fun _ => ?_
  exact Keeps.seq (keeps_whenever fun _ => keeps_log trivial) fun _ => keeps_modifySwapchain _

/-- `CreateSwapchainInternal`, with all its early returns. -/
theorem keeps_createSwapchainInternal (oldSwapchain : Handle) :
    Keeps I (createSwapchainInternal oldSwapchain) := by
  unfold createSwapchainInternal
  refine Keeps.seq keeps_querySurfaceCapabilities fun _ => ?_
  refine Keeps.seq (keeps_whenever fun _ => keeps_giveUp _) fun _ => ?_
  refine Keeps.seq (fun _ h => Indifferent.surfaceFormat h) fun _ => ?_
  refine Keeps.seq keeps_get fun _ => ?_
  refine Hoare.ite (fun _ => keeps_suspend _ _) fun _ => ?_
  refine Keeps.seq (keeps_modifySwapchain _) fun _ => ?_
  refine Keeps.seq (keeps_log trivial) fun _ => ?_
  refine Keeps.seq (keeps_ask (by decide)) fun _ => ?_
  refine Keeps.seq (keeps_whenever fun _ => keeps_giveUp _) fun _ => ?_
  refine Keeps.seq keeps_newHandle fun _ => ?_
  refine Keeps.seq (keeps_log trivial) fun _ => ?_
  refine Keeps.seq (keeps_modifySwapchain _) fun _ => ?_
  refine Keeps.seq keeps_get fun _ => Keeps.seq (keeps_log trivial) fun _ => ?_
  refine Keeps.seq (keeps_ask (by decide)) fun _ => ?_
  refine Keeps.seq (keeps_vkCheck _) fun _ => ?_
  refine Keeps.seq (keeps_modifySwapchain _) fun _ => ?_
  refine Keeps.seq keeps_get fun _ => Keeps.seq (keeps_log trivial) fun _ => ?_
  refine Keeps.seq (keeps_ask (by decide)) fun _ => ?_
  refine Keeps.seq (keeps_vkCheck _) fun _ => ?_
  refine Keeps.seq (keeps_modifySwapchain _) fun _ => ?_
  exact Keeps.seq (keeps_createImageViews _ _) fun _ => hoare_crReturnHr keeps_createDepthResources

/-- The swapchain is destroyed. -/
theorem keeps_destroySwapchain : Keeps I destroySwapchain := by
  unfold destroySwapchain
  refine Keeps.seq (keeps_modifySwapchain _) fun _ => ?_
  refine Keeps.seq (keeps_modifySwapchain _) fun _ => ?_
  refine Keeps.seq keeps_get fun _ => keeps_whenever fun _ => ?_
  exact Keeps.seq (keeps_log trivial) fun _ => keeps_modifySwapchain _

include hIdle

omit [Spared I] in
/-- A wait for the GPU keeps what survives that the GPU is done. -/
theorem keeps_waitIdle : Keeps I waitIdle := hIdle

/-- `RecreateSwapchain`. What its inner call throws is thrown after the cleanup. -/
theorem keeps_recreateSwapchain : Keeps I recreateSwapchain := by
  unfold recreateSwapchain
  refine Keeps.seq (keeps_waitIdle hIdle) fun _ => ?_
  refine Keeps.seq keeps_get fun _ => ?_
  refine Keeps.seq (keeps_modifySwapchain _) fun _ => ?_
  refine Keeps.seq (keeps_modifySwapchain _) fun _ => ?_
  refine Keeps.seq (hoare_resultOf (keeps_createSwapchainInternal _)) fun _ => ?_
  refine Keeps.seq keeps_get fun _ => ?_
  refine Keeps.seq (keeps_whenever fun _ => ?_) fun _ => keeps_whenever fun _ => keeps_log trivial
  refine Keeps.seq (keeps_whenever fun _ => keeps_log trivial) fun _ => ?_
  exact Keeps.seq (keeps_modifySwapchain _) fun _ => keeps_giveUp _

/-- `RecreateSurface` once it has waited for the GPU. -/
theorem keeps_recreateSurface_rest : Keeps I (do
    destroySwapchain
    crReturnHr createSurface
    crReturnHr pickPhysicalDevice
    crReturnHr recreateSwapchain) := by
  refine Keeps.seq keeps_destroySwapchain fun _ => ?_
  refine Keeps.seq (hoare_crReturnHr keeps_createSurface) fun _ => ?_
  refine Keeps.seq (hoare_crReturnHr keeps_pickPhysicalDevice) fun _ => ?_
  exact hoare_crReturnHr (keeps_recreateSwapchain hIdle)

/-- `RecreateSurface`. -/
theorem keeps_recreateSurface : Keeps I recreateSurface := by
  unfold recreateSurface
  refine Keeps.seq keeps_get fun _ => ?_
  refine Keeps.seq (keeps_whenever fun _ => keeps_giveUp _) fun _ => ?_
  refine Keeps.seq (fun _ h => Indifferent.surfaceLossReason h) fun _ => ?_
  refine Keeps.seq (keeps_waitIdle hIdle) fun _ => ?_
  exact keeps_recreateSurface_rest hIdle

/-- A lost surface is recreated. -/
theorem keeps_loseSurface (reason : String) : Keeps I (loseSurface reason) := by
  unfold loseSurface
  exact Keeps.seq (fun _ h => Indifferent.surfaceLossReason h) fun _ =>
    hoare_crReturnHr (keeps_recreateSurface hIdle)

end Swapchain

-- ---------------------------------------------------------------------------
-- Retiring
-- ---------------------------------------------------------------------------

section Retiring

variable {I : VulkanContext → Prop} [Patient I]

/-- A drain takes entries from the queue and destroys their objects. -/
theorem keeps_drainDeferred (completedValue : UInt64) : Keeps I (drainDeferred completedValue) :=
  hoare_modify fun s h => by
    have hKept : I { s with
        deferred := s.deferred.filter fun retired =>
          retired.entry.timelineValue > completedValue } :=
      Patient.deferred h
    exact Patient.destroyed hKept

/-- An object goes into the queue, with a drain before where there is no frame. -/
theorem keeps_recordAndRetire (entry : VulkanDeferredDestroy) : Keeps I (recordAndRetire entry) := by
  have hCmd : Keeps I vkCmd := by
    refine Keeps.seq keeps_get fun start => ?_
    cases start.frame.commandBuffer with
    | recording recording => exact keeps_pure _
    | _ => exact keeps_throw _
  unfold recordAndRetire retire
  refine Keeps.seq hCmd fun recording => ?_
  refine Keeps.seq (Keeps.seq keeps_get fun _ => keeps_pure _) fun value => ?_
  refine Keeps.seq keeps_get fun start => Keeps.seq (keeps_whenever fun _ => ?_) fun _ => ?_
  · exact Keeps.seq (fun _ h => Patient.idle h) fun _ => keeps_drainDeferred _
  · exact fun _ h => Patient.deferred h

/-- `UpdateBuffer` retires its staging buffer. -/
theorem keeps_updateBuffer (buffer : Tr2BufferAL) (offset size : UInt32) (data : Bool) :
    Keeps I (updateBuffer buffer offset size data) := by
  unfold updateBuffer
  refine Keeps.seq (keeps_whenever fun _ => keeps_giveUp _) fun _ => Hoare.ite (fun _ => ?_) fun _ => ?_
  · refine Keeps.seq (keeps_ask (by decide)) fun _ => ?_
    exact Keeps.seq (keeps_whenever fun _ => keeps_giveUp _) fun _ => keeps_pure _
  refine Keeps.seq (keeps_ask (by decide)) fun _ => ?_
  refine Keeps.seq (keeps_whenever fun _ => keeps_giveUp _) fun _ => ?_
  refine Keeps.seq keeps_newHandle fun _ => Keeps.seq (keeps_ask (by decide)) fun _ => ?_
  exact Keeps.seq (keeps_recordAndRetire _) fun _ => keeps_pure _

end Retiring

-- ---------------------------------------------------------------------------
-- Frames
-- ---------------------------------------------------------------------------

section Unframed

variable {I : VulkanContext → Prop} [Unframed I]

/-- The fence of the frame is reset. -/
theorem unframed_vkResetFences : Keeps I vkResetFences :=
  hoare_checked (by decide) fun _ h => Unframed.frames h

/-- The command pool of the frame is reset. -/
theorem unframed_vkResetCommandPool : Keeps I vkResetCommandPool :=
  hoare_checked (by decide) fun _ h => Unframed.frames h

/-- A recording begins in the frame's command buffer. -/
theorem unframed_beginRecording : Keeps I beginRecording := by
  refine Keeps.seq unframed_vkResetCommandPool fun _ => hoare_checked (by decide) fun t h => ?_
  have hFrames : I (t.setFrame { t.frame with commandBuffer := .recording t.recordings }) :=
    Unframed.frames h
  exact Unframed.recordings hFrames

/-- `EndFrame`, up to the count of frames. -/
theorem unframed_endFrame : Keeps I endFrame := by
  have hEnd : Keeps I vkEndCommandBuffer := by
    refine Keeps.seq keeps_get fun s => ?_
    cases s.frame.commandBuffer with
    | recording recording =>
      refine Keeps.seq (keeps_ask (by decide)) fun _ => ?_
      exact Keeps.seq (fun _ h => Unframed.frames h) fun _ => keeps_vkCheck _
    | _ => exact keeps_throw _
  have hSubmit : Keeps I vkQueueSubmit2 := by
    refine Keeps.seq keeps_get fun s => ?_
    cases s.frame.commandBuffer with
    | executable recording =>
      refine Keeps.seq (keeps_ask (by decide)) fun _ => ?_
      refine Keeps.seq (keeps_whenever fun _ => hoare_modify fun t h => ?_) fun _ => keeps_pure _
      have hFrames : I (t.setFrame { t.frame with
          commandBuffer := .submitted t.submissions.length
          acquireSemaphore := false
          inFlightFence := .submitted t.submissions.length }) :=
        Unframed.frames h
      exact Unframed.submissions hFrames
    | _ => exact keeps_throw _
  have hCount : Keeps I countFrame := fun _ h => Unframed.frameNumber h
  unfold endFrame
  refine Keeps.seq keeps_get fun s => Hoare.ite (fun _ => ?_) fun _ => ?_
  · exact Keeps.seq unframed_vkResetCommandPool fun _ => hCount
  refine Keeps.seq hEnd fun _ => Keeps.seq (fun _ h => Unframed.frames h) fun _ => ?_
  refine Keeps.seq hSubmit fun _ => Keeps.seq (keeps_whenever fun _ => keeps_loseDevice) fun _ => ?_
  exact Keeps.seq (keeps_whenever fun _ => keeps_giveUp _) fun _ => hCount

end Unframed

/-- An acquire keeps what survives that it is logged and that the semaphore gets a signal. -/
theorem keeps_acquire {I : VulkanContext → Prop} [Indifferent I]
    (hLog : ∀ s, I s → I { s with trace := s.trace ++
      [.acquireNextImage s.swapchain.swapchain s.frameIndex s.frame.acquireSemaphore] })
    (hSignal : ∀ s imageIndex, I s → I { s.setFrame { s.frame with acquireSemaphore := true } with
      swapchain := { s.swapchain with currentImageIndex := imageIndex } }) :
    Keeps I vkAcquireNextImageKHR := by
  have hFirst : Keeps I (do
      let s ← get
      log (.acquireNextImage s.swapchain.swapchain s.frameIndex s.frame.acquireSemaphore)) :=
    fun s h => hLog s h
  unfold vkAcquireNextImageKHR
  rw [← bind_assoc]
  refine Keeps.seq hFirst fun _ => Keeps.seq (keeps_ask (by decide)) fun answer => ?_
  exact Keeps.seq (keeps_whenever fun _ => fun s h => hSignal s _ h) fun _ => keeps_pure _

/-- The second acquire of a frame, after the swapchain was recreated. -/
theorem keeps_acquireAgain {I : VulkanContext → Prop} {again : Prop} [Decidable again]
    {recreate : Vk Unit} {acquireResult : VkResult} (hAcquire : Keeps I vkAcquireNextImageKHR)
    (hRecreate : Keeps I recreate) : Keeps I (acquireAgain again recreate acquireResult) := by
  refine Hoare.ite (fun _ => ?_) fun _ => keeps_pure _
  exact Keeps.seq hRecreate fun _ => Keeps.seq keeps_returnIfSuspended fun _ => hAcquire

/-- A present keeps what survives that it is counted and that the next frame context comes. -/
theorem indifferent_present {I : VulkanContext → Prop} [Indifferent I]
    (hPresent : ∀ s, I s →
      I { s with trace := s.trace ++ [.queuePresent s.swapchain.swapchain] })
    (hCount : ∀ s renderedFrameNumber lastPresentedImageIndex, I s →
      I { s with renderedFrameNumber, lastPresentedImageIndex })
    (hNext : Keeps I nextFrame) : Keeps I present := by
  have hLog : Keeps I (do log (.queuePresent (← get).swapchain.swapchain)) :=
    fun s h => hPresent s h
  unfold present
  refine Keeps.seq keeps_get fun _ => Hoare.ite (fun _ => hNext) fun _ => ?_
  rw [← bind_assoc]
  refine Keeps.seq hLog fun _ => Keeps.seq (keeps_ask (by decide)) fun _ => ?_
  refine Keeps.seq (fun s h => hCount s _ _ h) fun _ => ?_
  refine Keeps.seq (keeps_whenever fun _ => ?_) fun _ => hNext
  refine Hoare.ite (fun _ => fun _ h => Indifferent.surfaceLossReason h) fun _ => ?_
  exact Hoare.ite (fun _ => keeps_loseDevice) fun _ => keeps_whenever fun _ => keeps_giveUp _

end Ithax.Vulkan
