import Ithax.Vulkan.FrameSync

/-!
# Recordings in use

A recording is in use from `vkBeginCommandBuffer` until its submission has completed, or until
its command pool is reset before it is submitted. What a recording refers to has to live as
long.

## Results

* `continues_step`     — a recording that is not in use does not come into use again.
* `inUse_createDevice` — nothing is in use on a new device.
-/

namespace Ithax.Vulkan

open Ithax.Lib

/-- The recording is in the command buffer, and has not been submitted. -/
def CommandBuffer.Holds (buffer : CommandBuffer) (recording : Nat) : Prop :=
  buffer = .recording recording ∨ buffer = .executable recording

instance (buffer : CommandBuffer) (recording : Nat) : Decidable (buffer.Holds recording) :=
  inferInstanceAs (Decidable (_ ∨ _))

namespace CommandBuffer

variable {recording held submission : Nat}

/-- A command buffer that is being recorded. -/
@[simp] theorem holds_recording :
    (CommandBuffer.recording held).Holds recording ↔ held = recording := by
  simp [Holds]

/-- One that has been recorded. -/
@[simp] theorem holds_executable :
    (CommandBuffer.executable held).Holds recording ↔ held = recording := by
  simp [Holds]

/-- A command buffer in its first state holds none. -/
@[simp] theorem not_holds_initial : ¬CommandBuffer.initial.Holds recording := by
  simp [Holds]

/-- Nor does one that was submitted. -/
@[simp] theorem not_holds_submitted : ¬(CommandBuffer.submitted submission).Holds recording := by
  simp [Holds]

/-- Nor does an invalid one. -/
@[simp] theorem not_holds_invalid : ¬CommandBuffer.invalid.Holds recording := by
  simp [Holds]

end CommandBuffer

namespace VulkanContext

/-- The recording is in a command buffer, or in a submission that has not completed. -/
def InUse (s : VulkanContext) (recording : Nat) : Prop :=
  (∃ context, (s.frames context).commandBuffer.Holds recording) ∨
  ∃ submission ∈ s.submissions.drop s.completed, submission.recording = recording

instance (s : VulkanContext) (recording : Nat) : Decidable (s.InUse recording) :=
  inferInstanceAs (Decidable (_ ∨ _))

/-- From `s` to `t` no recording has come into use but new ones. -/
structure Continues (s t : VulkanContext) : Prop where
  recordings : s.recordings ≤ t.recordings
  handles : s.handles ≤ t.handles
  inUse : ∀ recording, t.InUse recording →
    s.InUse recording ∨ s.recordings ≤ recording ∧ recording < t.recordings

end VulkanContext

open VulkanContext

section Continues

variable {start s t next : VulkanContext} {recording : Nat} {frame : VulkanFrameContext}

/-- Nothing was done. -/
theorem VulkanContext.Continues.refl (s : VulkanContext) : s.Continues s where
  recordings := Nat.le_refl _
  handles := Nat.le_refl _
  inUse _ hUse := .inl hUse

/-- The current frame's recording is in use. -/
theorem inUse_of_frame (h : s.frame.commandBuffer.Holds recording) : s.InUse recording :=
  .inl ⟨s.frameIndex, h⟩

/-- What a frame that is set brings into use is in its command buffer. -/
theorem inUse_setFrame (h : (s.setFrame frame).InUse recording) :
    frame.commandBuffer.Holds recording ∨ s.InUse recording := by
  rcases h with ⟨context, hHolds⟩ | hPending
  · change (Function.update s.frames s.frameIndex frame context).commandBuffer.Holds _ at hHolds
    by_cases hContext : context = s.frameIndex
    · subst hContext
      rw [Function.update_self] at hHolds
      exact .inl hHolds
    · rw [Function.update_of_ne hContext] at hHolds
      exact .inr (.inl ⟨context, hHolds⟩)
  · exact .inr (.inr hPending)

/-- A frame whose command buffer has nothing in it that was not in use. -/
theorem continues_setFrame (h : start.Continues s)
    (hFrame : ∀ recording, frame.commandBuffer.Holds recording → s.InUse recording) :
    start.Continues (s.setFrame frame) := by
  refine ⟨h.recordings, h.handles, ?_⟩
  intro recording hUse
  rcases inUse_setFrame hUse with hHolds | hOld
  · exact h.inUse recording (hFrame recording hHolds)
  · exact h.inUse recording hOld

/-- Submissions that complete go out of use. -/
theorem continues_completed (h : start.Continues s) {completed : Nat}
    (hLess : ∀ submission ∈ s.submissions.drop completed,
      submission ∈ s.submissions.drop s.completed) :
    start.Continues { s with completed } := by
  refine ⟨h.recordings, h.handles, ?_⟩
  intro recording hUse
  refine h.inUse recording ?_
  rcases hUse with hHolds | ⟨submission, hMem, hEq⟩
  · exact .inl hHolds
  · exact .inr ⟨submission, hLess submission hMem, hEq⟩

instance : Indifferent start.Continues where
  ask _ h := { h with }
  surfaceFormat h := { h with }
  surfaceLossReason h := { h with }
  handles h := { h with handles := Nat.le_succ_of_le h.handles }
  deviceLost h := { h with }

instance : Spared start.Continues where
  swapchain h := { h with }
  trace _ h := { h with }

instance : Patient start.Continues where
  answers h := { h with }
  idle h := by
    refine continues_completed h ?_
    intro submission hMem
    rw [List.drop_length] at hMem
    exact absurd hMem List.not_mem_nil
  deferred h := { h with }
  destroyed h := { h with }

-- ---------------------------------------------------------------------------
-- `BeginFrame`
-- ---------------------------------------------------------------------------

/-- An acquire starts no recording. -/
theorem keeps_continues_vkAcquireNextImageKHR : Keeps start.Continues vkAcquireNextImageKHR := by
  refine keeps_acquire (fun _ h => { h with }) fun s _ h => ?_
  have hFrame : start.Continues (s.setFrame { s.frame with acquireSemaphore := true }) :=
    continues_setFrame h fun recording hHolds => inUse_of_frame hHolds
  exact { hFrame with }

/-- Nor does the reset of the fence. -/
theorem keeps_continues_vkResetFences : Keeps start.Continues vkResetFences :=
  hoare_checked (by decide) fun _ h => continues_setFrame h fun _ hHolds => inUse_of_frame hHolds

/-- The recording that was in the command buffer is discarded. -/
theorem keeps_continues_vkResetCommandPool : Keeps start.Continues vkResetCommandPool :=
  hoare_checked (by decide) fun _ h => continues_setFrame h fun _ hHolds =>
    absurd hHolds CommandBuffer.not_holds_initial

/-- A new recording begins. -/
theorem keeps_continues_vkBeginCommandBuffer : Keeps start.Continues vkBeginCommandBuffer := by
  refine hoare_checked (by decide) fun s h => ⟨Nat.le_succ_of_le h.recordings, h.handles, ?_⟩
  intro recording hUse
  have hFrame : (s.setFrame { s.frame with
      commandBuffer := .recording s.recordings }).InUse recording := hUse
  rcases inUse_setFrame hFrame with hHolds | hOld
  · obtain rfl := CommandBuffer.holds_recording.mp hHolds
    exact .inr ⟨h.recordings, Nat.lt_succ_self _⟩
  · rcases h.inUse recording hOld with hStart | ⟨hFrom, hTo⟩
    · exact .inl hStart
    · exact .inr ⟨hFrom, Nat.lt_succ_of_lt hTo⟩

/-- `BeginFrame` starts a new one. -/
theorem keeps_continues_beginFrame : Keeps start.Continues beginFrame := by
  rw [beginFrame_eq]
  refine Keeps.seq (Keeps.seq keeps_prepareFrame fun acquires => ?_) fun _ => ?_
  · refine Hoare.ite (fun _ => ?_) fun _ => keeps_pure _
    refine Keeps.seq (keeps_acquires keeps_continues_vkAcquireNextImageKHR) fun _ => ?_
    exact Keeps.seq keeps_continues_vkResetFences fun _ => keeps_pure _
  · exact Keeps.seq keeps_continues_vkResetCommandPool fun _ =>
      keeps_continues_vkBeginCommandBuffer

-- ---------------------------------------------------------------------------
-- `EndFrame`
-- ---------------------------------------------------------------------------

/-- The recording that is ended stays in use, unless it has become invalid. -/
theorem keeps_continues_vkEndCommandBuffer : Keeps start.Continues vkEndCommandBuffer := by
  refine Hoare.bind (Q := fun s t => start.Continues t ∧ s = t) (fun s h => ⟨h, rfl⟩) fun s => ?_
  cases hBuffer : s.frame.commandBuffer with
  | recording recording =>
    refine Hoare.bind (Q := fun _ t => start.Continues t ∧ t.InUse recording) ?_ fun answer => ?_
    · rintro t ⟨h, rfl⟩
      have hUse : s.InUse recording := inUse_of_frame (.inl hBuffer)
      exact ⟨Indifferent.ask (by decide) h, hUse⟩
    refine Hoare.bind (hoare_modify fun t h => ?_) fun _ => keeps_vkCheck _
    refine continues_setFrame h.1 ?_
    intro other hHolds
    by_cases hOk : answer.result = .success
    · rw [if_pos hOk] at hHolds
      rw [← CommandBuffer.holds_executable.mp hHolds]
      exact h.2
    · rw [if_neg hOk] at hHolds
      exact absurd hHolds CommandBuffer.not_holds_invalid
  | _ => exact hoare_throw fun t h => h.1

/-- The recording that is submitted was in the command buffer. -/
theorem keeps_continues_vkQueueSubmit2 : Keeps start.Continues vkQueueSubmit2 := by
  refine Hoare.bind (Q := fun s t => start.Continues t ∧ s = t) (fun s h => ⟨h, rfl⟩) fun s => ?_
  cases hBuffer : s.frame.commandBuffer with
  | executable recording =>
    refine Hoare.bind (Q := fun _ t => start.Continues t ∧ t.InUse recording) ?_ fun answer => ?_
    · rintro t ⟨h, rfl⟩
      have hUse : s.InUse recording := inUse_of_frame (.inr hBuffer)
      exact ⟨Indifferent.ask (by decide) h, hUse⟩
    refine Hoare.bind (Q := fun _ => start.Continues) ?_ fun _ => keeps_pure _
    refine Hoare.ite (fun _ => hoare_modify fun t h => ?_) fun _ => hoare_pure fun t h => h.1
    refine ⟨h.1.recordings, h.1.handles, ?_⟩
    intro other hUse
    refine h.1.inUse other ?_
    rcases hUse with ⟨context, hHolds⟩ | ⟨submission, hMem, hEq⟩
    · have hFrame : (t.setFrame { t.frame with
          commandBuffer := .submitted t.submissions.length
          acquireSemaphore := false
          inFlightFence := .submitted t.submissions.length }).InUse other :=
        .inl ⟨context, hHolds⟩
      exact (inUse_setFrame hFrame).resolve_left CommandBuffer.not_holds_submitted
    · rcases List.mem_append.mp (List.drop_append ▸ hMem) with hOld | hNew
      · exact .inr ⟨submission, hOld, hEq⟩
      · obtain rfl := List.mem_singleton.mp (List.mem_of_mem_drop hNew)
        rw [← hEq]
        exact h.2
  | _ => exact hoare_throw fun t h => h.1

/-- `EndFrame` takes the recording from the command buffer to the queue. -/
theorem keeps_continues_endFrame : Keeps start.Continues endFrame := by
  have hCount : Keeps start.Continues countFrame := fun _ h => { h with }
  unfold endFrame
  refine Keeps.seq keeps_get fun s => Hoare.ite (fun _ => ?_) fun _ => ?_
  · exact Keeps.seq keeps_continues_vkResetCommandPool fun _ => hCount
  refine Keeps.seq keeps_continues_vkEndCommandBuffer fun _ => Keeps.seq ?_ fun _ => ?_
  · exact hoare_modify fun t h => continues_setFrame h fun recording hHolds =>
      inUse_of_frame hHolds
  refine Keeps.seq keeps_continues_vkQueueSubmit2 fun _ => ?_
  refine Keeps.seq (keeps_whenever fun _ => keeps_loseDevice) fun _ => ?_
  exact Keeps.seq (keeps_whenever fun _ => keeps_giveUp _) fun _ => hCount

-- ---------------------------------------------------------------------------
-- Calls
-- ---------------------------------------------------------------------------

/-- `Present` starts none. -/
theorem keeps_continues_present : Keeps start.Continues present :=
  indifferent_present (fun _ h => { h with }) (fun _ _ _ h => { h with }) fun _ h => { h with }

/-- A recording that is not in use does not come into use again, whatever is called. -/
theorem continues_step {call : Call} (hStep : step s call = some next) : s.Continues next := by
  have hFirst : s.Continues s := .refl s
  by_cases hOther : call.IsOther
  · refine patient_of_other keeps_continues_present ?_ hFirst hOther hStep
    intro h
    refine continues_completed h ?_
    intro submission hMem
    rw [← List.drop_drop] at hMem
    exact List.mem_of_mem_drop hMem
  obtain ⟨⟨result, t⟩, hPerform, rfl⟩ := Option.map_eq_some_iff.mp hStep
  cases call with
  | beginFrame answers => exact keeps_invoke keeps_continues_beginFrame hFirst hPerform
  | endFrame answers => exact keeps_invoke keeps_continues_endFrame hFirst hPerform
  | _ => exact absurd trivial hOther

/-- Nothing is in use on a new device. -/
theorem inUse_createDevice {windowless : Bool} {mode : VkExtent2D} {depthFormats : List VkFormat}
    {answers : Answers} (h : createDevice windowless mode depthFormats answers = some start) :
    ¬start.InUse recording := by
  have hFirst : OnFrames (fun frames _ submissions =>
      (∀ context, (frames context).commandBuffer = .initial) ∧ submissions = [])
      { windowless, mode, depthFormats } :=
    ⟨fun _ => rfl, rfl⟩
  obtain ⟨hInitial, hNone⟩ := aside_createDevice hFirst h
  rintro (⟨context, hHolds⟩ | ⟨submission, hMem, -⟩)
  · rw [hInitial context] at hHolds
    exact absurd hHolds CommandBuffer.not_holds_initial
  · rw [hNone, List.drop_nil] at hMem
    exact absurd hMem List.not_mem_nil

end Continues

end Ithax.Vulkan
