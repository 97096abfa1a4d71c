import Ithax.Vulkan.BeginFrame

/-!
# The fences and semaphores of the frame contexts

A frame context has a fence, which its submission signals, and a semaphore, which the acquire of
an image signals and its submission waits for. `EndFrame` submits the current frame if it can;
apart from `BeginFrame` nothing else changes the two.

## Results

* `sync_endFrame`   — `EndFrame` changes them exactly when it submits.
* `sync_of_other`   — the other calls leave them alone.
-/

namespace Ithax.Vulkan

open Ithax.Lib

namespace VulkanContext

/-- The fence of a context. -/
def fence (s : VulkanContext) (context : FrameIndex) : Fence := (s.frames context).inFlightFence

/-- Whether the acquire semaphore of a context has a signal that no submission has waited for. -/
def signal (s : VulkanContext) (context : FrameIndex) : Bool := (s.frames context).acquireSemaphore

end VulkanContext

/-- What holds of the fences, the semaphores, the submissions and the current context. -/
abbrev OnSync
    (J : (FrameIndex → Fence) → (FrameIndex → Bool) → List Submission → FrameIndex → Prop) :
    VulkanContext → Prop :=
  OnFrames fun frames i submissions => J (fun context => (frames context).inFlightFence)
    (fun context => (frames context).acquireSemaphore) submissions i

section OnSync

variable (J : (FrameIndex → Fence) → (FrameIndex → Bool) → List Submission → FrameIndex → Prop)

instance : Indifferent (OnSync J) where
  ask _ h := h
  surfaceFormat h := h
  surfaceLossReason h := h
  handles h := h
  deviceLost h := h

instance : Spared (OnSync J) where
  swapchain h := h
  trace _ h := h

instance : Aside (OnSync J) where
  answers h := h
  completed h := h
  deferred h := h
  destroyed h := h

end OnSync

/-- The state has the fences and semaphores of another one, and nothing has been submitted. -/
structure SameSync (s t : VulkanContext) : Prop where
  fence : t.fence = s.fence
  signal : t.signal = s.signal
  submissions : t.submissions = s.submissions

/-- Nothing has changed since `s`. -/
abbrev Unchanged (s : VulkanContext) : VulkanContext → Prop :=
  OnSync fun fences signals submissions _ =>
    fences = s.fence ∧ signals = s.signal ∧ submissions = s.submissions

/-- Where nothing changes the fences and signals do not. -/
theorem sameSync_of_keeps {α : Type} {s : VulkanContext} {m : Vk α} (h : Keeps (Unchanged s) m) :
    SameSync s (finalState (m s)) := by
  obtain ⟨hFence, hSignal, hSubmissions⟩ := h.finalState ⟨rfl, rfl, rfl⟩
  exact ⟨hFence, hSignal, hSubmissions⟩

section Sync

variable {J : (FrameIndex → Fence) → (FrameIndex → Bool) → List Submission → FrameIndex → Prop}
  {s t : VulkanContext} {frame : VulkanFrameContext}

/-- The fence of the current context changes. -/
theorem fence_setFrame : (s.setFrame frame).fence =
    Function.update s.fence s.frameIndex frame.inFlightFence :=
  Function.comp_update VulkanFrameContext.inFlightFence s.frames s.frameIndex frame

/-- The signal of the current context changes. -/
theorem signal_setFrame : (s.setFrame frame).signal =
    Function.update s.signal s.frameIndex frame.acquireSemaphore :=
  Function.comp_update VulkanFrameContext.acquireSemaphore s.frames s.frameIndex frame

/-- A frame that keeps its fence and its semaphore. -/
theorem sameSync_setFrame (hFence : frame.inFlightFence = s.frame.inFlightFence)
    (hSignal : frame.acquireSemaphore = s.frame.acquireSemaphore) : SameSync s (s.setFrame frame) := by
  refine ⟨?_, ?_, rfl⟩
  · rw [fence_setFrame, hFence]
    exact Function.update_eq_self _ _
  · rw [signal_setFrame, hSignal]
    exact Function.update_eq_self _ _

/-- Whatever holds of fences and signals holds where they are the same. -/
theorem OnSync.of_same (h : OnSync J s) (hSame : SameSync s t) (hIndex : t.frameIndex = s.frameIndex) :
    OnSync J t := by
  show J t.fence t.signal t.submissions t.frameIndex
  rw [hSame.fence, hSame.signal, hSame.submissions, hIndex]
  exact h

/-- The reset of the command pool touches neither. -/
theorem keeps_onSync_vkResetCommandPool : Keeps (OnSync J) vkResetCommandPool := by
  refine hoare_checked (by decide) fun s h => ?_
  have hSame : SameSync s (s.setFrame { s.frame with commandBuffer := .initial }) :=
    sameSync_setFrame rfl rfl
  exact h.of_same hSame rfl

/-- Nor does the begin of the command buffer. -/
theorem keeps_onSync_vkBeginCommandBuffer : Keeps (OnSync J) vkBeginCommandBuffer := by
  refine hoare_checked (by decide) fun s h => ?_
  have hSame : SameSync s (s.setFrame { s.frame with commandBuffer := .recording s.recordings }) :=
    sameSync_setFrame rfl rfl
  exact h.of_same ⟨hSame.fence, hSame.signal, rfl⟩ rfl

/-- Nor does the recording from there on. -/
theorem keeps_onSync_beginRecording : Keeps (OnSync J) beginRecording :=
  Keeps.seq keeps_onSync_vkResetCommandPool fun _ => keeps_onSync_vkBeginCommandBuffer

end Sync

-- ---------------------------------------------------------------------------
-- `EndFrame`
-- ---------------------------------------------------------------------------

/-- `EndFrame` can submit the command buffer of its context. -/
structure Submits (s : VulkanContext) : Prop where
  visible : s.swapchain.suspended = false
  recording : s.IsRecording
  ended : (s.next .vkEndCommandBuffer).result = .success
  submitted : (s.next .vkQueueSubmit2).result = .success

/-- The frame of the context has been submitted. -/
structure SubmittedSync (s t : VulkanContext) : Prop where
  fence : t.fence = Function.update s.fence s.frameIndex (.submitted s.submissions.length)
  signal : t.signal = Function.update s.signal s.frameIndex false
  submissions : t.submissions.length = s.submissions.length + 1

section End

variable {s : VulkanContext}

/-- The submission of a command buffer that has been ended. -/
theorem sync_vkQueueSubmit2 {recording : Nat}
    (hBuffer : s.frame.commandBuffer = .executable recording) :
    ∃ t, vkQueueSubmit2 s = .ok (s.next .vkQueueSubmit2).result t ∧
      if (s.next .vkQueueSubmit2).result = .success then SubmittedSync s t else SameSync s t := by
  unfold vkQueueSubmit2
  rw [bind_of_ok (get_run s)]
  simp only [hBuffer]
  rw [bind_of_ok (ask_run _ s)]
  by_cases hOk : (s.next .vkQueueSubmit2).result = .success
  · rw [whenever, if_pos hOk]
    refine ⟨_, rfl, ?_⟩
    rw [if_pos hOk]
    exact ⟨fence_setFrame, signal_setFrame, List.length_append⟩
  · rw [whenever, if_neg hOk]
    refine ⟨_, rfl, ?_⟩
    rw [if_neg hOk]
    exact ⟨rfl, rfl, rfl⟩

/-- `vkEndCommandBuffer` of a command buffer that is being recorded. -/
theorem sync_vkEndCommandBuffer {recording : Nat}
    (hBuffer : s.frame.commandBuffer = .recording recording) :
    ∃ t, SameSync s t ∧ t.frameIndex = s.frameIndex ∧
      t.next .vkQueueSubmit2 = s.next .vkQueueSubmit2 ∧
      if (s.next .vkEndCommandBuffer).result = .success then
        vkEndCommandBuffer s = .ok () t ∧ t.frame.commandBuffer = .executable recording
      else ∃ exit, vkEndCommandBuffer s = .error exit t := by
  let result := (s.next .vkEndCommandBuffer).result
  let answers := Function.update s.answers .vkEndCommandBuffer (s.answers .vkEndCommandBuffer).tail
  let asked : VulkanContext := { s with answers }
  let ended : VulkanFrameContext := { s.frame with
    commandBuffer := if result = .success then .executable recording else .invalid }
  have hRun : vkEndCommandBuffer s = vkCheck result (asked.setFrame ended) := by
    unfold vkEndCommandBuffer
    rw [bind_of_ok (get_run s)]
    simp only [hBuffer]
    rfl
  have hSame : SameSync asked (asked.setFrame ended) := sameSync_setFrame rfl rfl
  refine ⟨asked.setFrame ended, ⟨hSame.fence, hSame.signal, rfl⟩, rfl, rfl, ?_⟩
  rw [hRun, vkCheck]
  by_cases hOk : (s.next .vkEndCommandBuffer).result = .success
  · rw [if_pos hOk, whenever, if_neg (not_not.mpr hOk)]
    refine ⟨rfl, ?_⟩
    show (Function.update s.frames s.frameIndex ended s.frameIndex).commandBuffer = _
    rw [Function.update_self]
    exact if_pos hOk
  · rw [if_neg hOk, whenever, if_pos hOk]
    exact ⟨_, rfl⟩

/-- `EndFrame` from the submission on. -/
theorem sync_submitted (s : VulkanContext) (result : VkResult) : SameSync s (finalState ((do
    whenever (result = .deviceLost) loseDevice
    whenever (result ≠ .success) (giveUp .E_FAIL)
    countFrame : Vk Unit) s)) := by
  refine sameSync_of_keeps (Keeps.seq (keeps_whenever fun _ => keeps_loseDevice) fun _ => ?_)
  exact Keeps.seq (keeps_whenever fun _ => keeps_giveUp _) fun _ => fun _ h => h

/-- `EndFrame` changes the fences and semaphores exactly when it submits. -/
theorem sync_endFrame (s : VulkanContext) :
    (Submits s ∧ SubmittedSync s (finalState (endFrame s))) ∨
      ¬Submits s ∧ SameSync s (finalState (endFrame s)) := by
  have hRun : endFrame s = _ := bind_of_ok (get_run s)
  rw [hRun]
  cases hSuspended : s.swapchain.suspended with
  | true =>
    refine .inr ⟨fun hNo => ?_, ?_⟩
    · exact absurd (hSuspended.symm.trans hNo.visible) (by decide)
    · exact sameSync_of_keeps (Keeps.seq keeps_onSync_vkResetCommandPool fun _ => fun _ h => h)
  | false =>
    rw [if_neg Bool.false_ne_true]
    by_cases hRecording : s.IsRecording
    · obtain ⟨recording, hBuffer⟩ := hRecording
      obtain ⟨t, hSame, hIndex, hNext, hEnd⟩ := sync_vkEndCommandBuffer hBuffer
      by_cases hOk : (s.next .vkEndCommandBuffer).result = .success
      · rw [if_pos hOk] at hEnd
        obtain ⟨hDone, hExecutable⟩ := hEnd
        let counted : VulkanContext :=
          t.setFrame { t.frame with timelineValue := t.frame.timelineValue + 1 }
        have hCounted : SameSync t counted := sameSync_setFrame rfl rfl
        have hStill : counted.frame.commandBuffer = .executable recording := by
          show (Function.update t.frames t.frameIndex _ t.frameIndex).commandBuffer = _
          rw [Function.update_self]
          exact hExecutable
        obtain ⟨u, hSubmit, hSync⟩ := sync_vkQueueSubmit2 hStill
        have hCount : ∀ rest : Unit → Vk Unit, ((modify fun s => s.setFrame { s.frame with
            timelineValue := s.frame.timelineValue + 1 }) >>= rest) t = rest () counted :=
          fun rest => rfl
        rw [bind_of_ok hDone, hCount, bind_of_ok hSubmit]
        have hRest := sync_submitted u (counted.next .vkQueueSubmit2).result
        have hAnswer : counted.next .vkQueueSubmit2 = s.next .vkQueueSubmit2 := hNext
        by_cases hSubmitted : (s.next .vkQueueSubmit2).result = .success
        · rw [hAnswer, if_pos hSubmitted] at hSync
          refine .inl ⟨⟨hSuspended, ⟨recording, hBuffer⟩, hOk, hSubmitted⟩, ?_, ?_, ?_⟩
          · rw [hRest.fence, hSync.fence, hCounted.fence, hCounted.submissions, hSame.fence,
              hSame.submissions]
            show Function.update s.fence t.frameIndex _ = _
            rw [hIndex]
          · rw [hRest.signal, hSync.signal, hCounted.signal, hSame.signal]
            show Function.update s.signal t.frameIndex false = _
            rw [hIndex]
          · rw [hRest.submissions, hSync.submissions, hCounted.submissions, hSame.submissions]
        · rw [hAnswer, if_neg hSubmitted] at hSync
          refine .inr ⟨fun hNo => hSubmitted hNo.submitted, ?_, ?_, ?_⟩
          · rw [hRest.fence, hSync.fence, hCounted.fence, hSame.fence]
          · rw [hRest.signal, hSync.signal, hCounted.signal, hSame.signal]
          · rw [hRest.submissions, hSync.submissions, hCounted.submissions, hSame.submissions]
      · rw [if_neg hOk] at hEnd
        obtain ⟨exit, hError⟩ := hEnd
        rw [bind_of_error hError]
        exact .inr ⟨fun hNo => hOk hNo.ended, hSame⟩
    · -- `vkEndCommandBuffer` is not defined
      have hError : vkEndCommandBuffer s = .error .undefined s := by
        unfold vkEndCommandBuffer
        rw [bind_of_ok (get_run s)]
        cases hBuffer : s.frame.commandBuffer with
        | recording recording => exact absurd ⟨recording, hBuffer⟩ hRecording
        | _ => rfl
      rw [bind_of_error hError]
      exact .inr ⟨fun hNo => hRecording hNo.recording, rfl, rfl, rfl⟩

end End

-- ---------------------------------------------------------------------------
-- The other calls
-- ---------------------------------------------------------------------------

/-- Neither `BeginFrame` nor `EndFrame`. -/
def Call.IsOther : Call → Prop
  | .beginFrame _ | .endFrame _ => False
  | _ => True

section Other

variable {s next : VulkanContext}

/-- What a present and the GPU keep as well, the calls other than `BeginFrame` and `EndFrame`
keep. -/
theorem patient_of_other {I : VulkanContext → Prop} [Spared I] [Patient I] {call : Call}
    (hPresent : Keeps I present) (hComplete : I s → I { s with completed := s.completed + 1 })
    (h : I s) (hOther : call.IsOther) (hStep : step s call = some next) : I next := by
  obtain ⟨⟨result, t⟩, hPerform, rfl⟩ := Option.map_eq_some_iff.mp hStep
  cases call with
  | beginFrame answers => exact hOther.elim
  | endFrame answers => exact hOther.elim
  | present answers => exact keeps_invoke hPresent h hPerform
  | updateBuffer buffer offset size data answers =>
    have hUpdate := (keeps_updateBuffer (I := I) buffer offset size data).seq fun _ => keeps_pure ()
    exact keeps_invoke hUpdate h hPerform
  | retire entry => exact keeps_invoke (keeps_recordAndRetire entry) h hPerform
  | recreateSwapchain answers =>
    exact keeps_invoke (keeps_recreateSwapchain fun _ => Patient.idle) h hPerform
  | complete =>
    obtain ⟨-, rfl⟩ := perform_complete hPerform
    exact hComplete h

/-- One of the other calls. -/
theorem aside_of_other {I : VulkanContext → Prop} [Spared I] [Aside I] {call : Call}
    (hPresent : Keeps I present) (h : I s) (hOther : call.IsOther)
    (hStep : step s call = some next) : I next :=
  patient_of_other hPresent Aside.completed h hOther hStep

/-- Only `BeginFrame` and `EndFrame` change the fences and semaphores. -/
theorem sync_of_other {call : Call} (hOther : call.IsOther) (hStep : step s call = some next) :
    SameSync s next := by
  have hFirst : Unchanged s s := ⟨rfl, rfl, rfl⟩
  have hPresent : Keeps (Unchanged s) present :=
    indifferent_present (fun _ h => h) (fun _ _ _ h => h) fun _ h => h
  obtain ⟨hFence, hSignal, hSubmissions⟩ := aside_of_other hPresent hFirst hOther hStep
  exact ⟨hFence, hSignal, hSubmissions⟩

end Other

end Ithax.Vulkan
