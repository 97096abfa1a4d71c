import Ithax.Vulkan.BeginFrame
import Ithax.Vulkan.Timeline

/-!
# Deferred destruction

`DrainDeferred` compares the values that the two frame contexts count on their own, and a
full queue is drained without regard to the command buffer that is being recorded. An
object is destroyed too early exactly when one of the two goes wrong.

## Results

* `tracked_step`       — the recordings and the objects, step by step.
* `destroyed_of_run`   — what is destroyed along every run that stays clear of the two.
* `not_safelyDestroyed_overtakenCalls` — ordinary frames that do not.
-/

namespace Ithax.Vulkan

open Ithax.Lib

/-- What holds of the timeline of a context. -/
abbrev On (J : Timeline → Prop) (s : VulkanContext) : Prop := J s.timeline

instance (J : Timeline → Prop) : Spared (On J) where
  ask := by
    intro s function answers hOther hs
    have hSame : VulkanContext.timeline
        { s with answers := Function.update s.answers function answers } = s.timeline := by
      unfold VulkanContext.timeline
      simp only [Function.update_of_ne hOther.1.symm, Function.update_of_ne hOther.2.symm]
    show J (VulkanContext.timeline _)
    rw [hSame]
    exact hs
  swapchain h := h
  surfaceFormat h := h
  surfaceLossReason h := h
  handles h := h
  trace _ h := h
  deviceLost h := h

-- ---------------------------------------------------------------------------
-- The current frame
-- ---------------------------------------------------------------------------

/-- The current frame in the timeline. -/
theorem timeline_setFrame (s : VulkanContext) (frame : VulkanFrameContext) :
    (s.setFrame frame).timeline = s.timeline.setFrame frame.commandBuffer frame.timelineValue := by
  have hComp : ∀ {β : Type} (field : VulkanFrameContext → β),
      (fun i => field (Function.update s.frames s.frameIndex frame i)) =
        Function.update (fun i => field (s.frames i)) s.frameIndex (field frame) := by
    intro β field
    exact Function.comp_update field s.frames s.frameIndex frame
  unfold VulkanContext.setFrame VulkanContext.timeline Timeline.setFrame
  simp only [hComp]

section Frame

variable {J : Timeline → Prop} {s : VulkanContext} {frame : VulkanFrameContext}

/-- What has to do with neither the command buffer nor the counter. -/
theorem on_setFrame (h : On J s) (hBuffer : frame.commandBuffer = s.frame.commandBuffer)
    (hValue : frame.timelineValue = s.frame.timelineValue) : On J (s.setFrame frame) := by
  have hSame : (s.setFrame frame).timeline = s.timeline := by
    rw [timeline_setFrame, hBuffer, hValue]
    unfold Timeline.setFrame
    rw [show s.frame.commandBuffer = s.timeline.buffers s.timeline.frameIndex from rfl,
      show s.frame.timelineValue = s.timeline.values s.timeline.frameIndex from rfl,
      Function.update_eq_self, Function.update_eq_self]
  rw [On, hSame]
  exact h

/-- A reset of the fence is not seen. -/
theorem keeps_vkResetFences : Keeps (On J) vkResetFences :=
  hoare_checked (by decide) fun _ h => on_setFrame h rfl rfl

/-- Nor is an acquire. -/
theorem keeps_vkAcquireNextImageKHR : Keeps (On J) vkAcquireNextImageKHR := by
  refine keeps_acquire (fun _ h => h) fun s _ h => ?_
  have hNext : On J (s.setFrame { s.frame with acquireSemaphore := true }) := on_setFrame h rfl rfl
  exact hNext

/-- The command buffer is emptied. -/
theorem keeps_vkResetCommandPool : Keeps (On Tracked) vkResetCommandPool := by
  refine hoare_checked (by decide) fun s hs => ?_
  rw [On, timeline_setFrame]
  show Tracked (s.timeline.setFrame .initial s.frame.timelineValue)
  exact Tracked.setFrame hs (by intro r hNo; exact nomatch hNo) _

/-- A new recording begins. -/
theorem keeps_vkBeginCommandBuffer : Keeps (On Tracked) vkBeginCommandBuffer := by
  refine hoare_checked (by decide) fun s hs => ?_
  have hSet := timeline_setFrame s { s.frame with commandBuffer := .recording s.recordings }
  have hBegin : Tracked { (s.setFrame { s.frame with
      commandBuffer := .recording s.recordings }).timeline with recordings := s.recordings + 1 } := by
    rw [hSet]
    exact Tracked.begin hs
  exact hBegin

/-- The command buffer is begun anew. -/
theorem keeps_beginRecording : Keeps (On Tracked) beginRecording :=
  Keeps.seq keeps_vkResetCommandPool fun _ => keeps_vkBeginCommandBuffer

/-- From the first acquire on. -/
theorem keeps_acquireAndBegin : Keeps (On Tracked) acquireAndBegin := by
  have hIdle : ∀ t, Tracked t → Tracked t.idle := fun _ h => h.idle
  unfold acquireAndBegin
  refine Keeps.seq keeps_vkAcquireNextImageKHR fun _ => ?_
  refine Keeps.seq (keeps_acquireAgain keeps_vkAcquireNextImageKHR
    (hoare_crReturnHr (keeps_recreateSwapchain fun s => hIdle s.timeline))) fun _ => ?_
  refine Keeps.seq (keeps_acquireAgain keeps_vkAcquireNextImageKHR
    (keeps_loseSurface (fun s => hIdle s.timeline) _)) fun _ => ?_
  refine Keeps.seq (keeps_whenever fun _ => keeps_loseDevice) fun _ => ?_
  refine Keeps.seq (keeps_whenever fun _ => keeps_giveUp _) fun _ => ?_
  exact Keeps.seq keeps_vkResetFences fun _ => keeps_beginRecording

/-- While the swapchain is suspended. -/
theorem keeps_beginSuspended : Keeps (On Tracked) beginSuspended := by
  have hIdle : ∀ t, Tracked t → Tracked t.idle := fun _ h => h.idle
  have hRest : Keeps (On Tracked) (do
      if (← get).swapchain.suspended then beginRecording else acquireAndBegin) :=
    Keeps.seq keeps_get fun _ => Hoare.ite (fun _ => keeps_beginRecording) fun _ =>
      keeps_acquireAndBegin
  unfold beginSuspended
  refine Keeps.seq (keeps_ask (by decide)) fun _ => Hoare.ite (fun _ => ?_) fun _ => ?_
  · exact Keeps.seq (keeps_loseSurface (fun s => hIdle s.timeline) _) fun _ => hRest
  · refine Hoare.ite (fun _ => ?_) fun _ => keeps_beginRecording
    exact Keeps.seq (hoare_crReturnHr (keeps_recreateSwapchain fun s => hIdle s.timeline)) fun _ =>
      hRest

end Frame

-- ---------------------------------------------------------------------------
-- BeginFrame
-- ---------------------------------------------------------------------------

/-- The next answer in a list of answers is `VK_SUCCESS`. -/
def Succeeds (answers : List Answer) : Prop := (answers.head?.getD {}).result = .success

instance (answers : List Answer) : Decidable (Succeeds answers) :=
  inferInstanceAs (Decidable (_ = _))

/-- `BeginFrame` may drain. -/
def Timeline.Drains (t : Timeline) : Prop :=
  Succeeds t.waits → Succeeds t.counters → t.Above t.counterValue

instance (t : Timeline) : Decidable t.Drains :=
  inferInstanceAs (Decidable (_ → _ → _))

/-- `VK_CHECK` goes on only after `VK_SUCCESS`. -/
theorem hoare_vkCheck {J : Timeline → Prop} (result : VkResult) :
    Hoare (On fun t => Tracked t ∧ (result = .success → J t)) (vkCheck result)
      (fun _ => On fun t => Tracked t ∧ J t) (On Tracked) := by
  refine Hoare.ite (fun _ => hoare_throw fun s hs => hs.1) fun hOk => ?_
  exact hoare_pure fun s hs => ⟨hs.1, hs.2 (not_not.mp hOk)⟩

/-- What the drain needs, once the wait has succeeded. -/
theorem hoare_vkWaitForFences : Hoare (On fun t => Tracked t ∧ t.Drains) vkWaitForFences
    (fun _ => On fun t => Tracked t ∧ (Succeeds t.counters → t.Above t.counterValue))
    (On Tracked) := by
  unfold vkWaitForFences
  refine Hoare.bind (Q := fun answer => On fun t => Tracked t ∧ (answer.result = .success →
    Succeeds t.counters → t.Above t.counterValue)) ?_ fun answer => ?_
  · exact fun s hs => ⟨{ hs.1 with }, hs.2⟩
  · refine Hoare.bind (hoare_vkCheck _) fun _ => Hoare.bind (hoare_get fun s hs => hs) fun s => ?_
    exact Hoare.ite (fun _ => hoare_pure fun s hs => hs) fun _ => hoare_throw fun s hs => hs.1

/-- What the drain needs, once the counter has been read. -/
theorem hoare_vkGetSemaphoreCounterValue :
    Hoare (On fun t => Tracked t ∧ (Succeeds t.counters → t.Above t.counterValue))
      vkGetSemaphoreCounterValue
      (fun completedValue => On fun t => Tracked t ∧ t.Above completedValue) (On Tracked) := by
  unfold vkGetSemaphoreCounterValue
  refine Hoare.bind (Q := fun answer => On fun t => Tracked t ∧ (answer.result = .success →
    t.Above t.counterValue)) ?_ fun answer => ?_
  · exact fun s hs => ⟨{ hs.1 with }, hs.2⟩
  · refine Hoare.bind (hoare_vkCheck _) fun _ => ?_
    exact Hoare.bind (Q := fun s' s => s' = s ∧ On (fun t => Tracked t ∧ t.Above t.counterValue) s)
      (hoare_get fun s hs => ⟨rfl, hs⟩) fun s => hoare_pure fun s' hs => ⟨hs.2.1, hs.1 ▸ hs.2.2⟩

/-- What is drained is done with. -/
theorem hoare_drainDeferred (completedValue : UInt64) :
    Hoare (On fun t => Tracked t ∧ t.Above completedValue) (drainDeferred completedValue)
      (fun _ => On Tracked) (On Tracked) :=
  hoare_modify fun _ hs => Tracked.drain hs.1 hs.2

/-- `RecreateSurface` either fails at once or waits for the GPU. -/
theorem hoare_recreateSurface {J : Timeline → Prop} {start : VulkanContext}
    (hTracked : Tracked start.timeline) (hIdle : ∀ t, J t → J t.idle) (hJ : ∀ t, J t → Tracked t)
    (h : J start.timeline.idle) :
    Hoare (fun s => s = start) (crReturnHr recreateSurface) (fun _ => On J) (On Tracked) := by
  cases hWindow : start.windowless with
  | true =>
    -- `E_INVALIDCALL`, before anything was done
    intro s hs
    have hRun : crReturnHr recreateSurface start = .error (.returned .E_INVALIDCALL) start := by
      have hBody : recreateSurface start = .error (.returned .E_INVALIDCALL) start := by
        unfold recreateSurface
        rw [bind_of_ok (get_run start), hWindow]
        exact bind_of_error rfl
      have hResult : resultOf recreateSurface start = .ok .E_INVALIDCALL start := by
        unfold resultOf
        rw [hBody]
      exact bind_of_ok hResult
    rw [hs, hRun]
    exact hTracked
  | false =>
    have hBody : Hoare (fun s => s = start) recreateSurface (fun _ => On J) (On J) := by
      unfold recreateSurface
      refine Hoare.bind (hoare_get (Q := fun s' s => s' = start ∧ s = start) fun s hs => ⟨hs, hs⟩)
        fun s' => ?_
      refine Hoare.bind (Q := fun _ s => s = start) ?_ fun _ => ?_
      · refine Hoare.ite (fun hNo => ?_) fun _ => hoare_pure fun s hs => hs.2
        intro s hs
        rw [hs.1, hWindow] at hNo
        cases hNo
      · refine Hoare.bind (Q := fun _ => On fun t => t = start.timeline)
          (hoare_modify fun s hs => hs ▸ rfl) fun _ => ?_
        refine Hoare.bind (Q := fun _ => On J) (hoare_modify fun s hs => ?_) fun _ =>
          keeps_recreateSurface_rest fun s => hIdle s.timeline
        show J s.timeline.idle
        rw [hs]
        exact h
    exact Hoare.weaken (hoare_crReturnHr hBody) (fun _ s hs => hs) fun s hs => hJ _ hs

/-- The timeline that `BeginFrame` finds when it drains. -/
def VulkanContext.drained (s : VulkanContext) : Timeline :=
  if s.surfacePending then s.timeline.idle else s.timeline

/-- A GPU without work is idle. -/
theorem Timeline.idle_of_completed {t : Timeline} (h : t.completed = t.submissions.length) :
    t.idle = t := by
  unfold Timeline.idle
  rw [← h]

/-- `BeginFrame` gets to its fence: the device is not lost, and a pending recreation of the
surface succeeds. -/
def VulkanContext.Enters (s : VulkanContext) : Prop := ∃ t, enterFrame s = .ok () t

instance (s : VulkanContext) : Decidable s.Enters :=
  match hEnter : enterFrame s with
  | .ok () t => .isTrue ⟨t, hEnter⟩
  | .error _ _ => .isFalse (by
    rintro ⟨t, hOk⟩
    rw [hEnter] at hOk
    cases hOk)

/-- Where `BeginFrame` gets to its fence, it finds the timeline that it drains. -/
theorem hoare_enterFrame {J : Timeline → Prop} {start : VulkanContext}
    (hTracked : Tracked start.timeline) (hJ : J start.drained) :
    Hoare (fun s => s = start) enterFrame (fun _ => On fun t => Tracked t ∧ J t) (On Tracked) := by
  unfold enterFrame
  refine Hoare.bind (hoare_get (Q := fun s' s => s' = start ∧ s = start) fun s hs => ⟨hs, hs⟩)
    fun s' => ?_
  refine Hoare.bind (Q := fun _ s => s' = start ∧ s = start) ?_ fun _ => ?_
  · exact Hoare.ite (fun _ => hoare_throw fun s hs => hs.2 ▸ hTracked) fun _ =>
      hoare_pure fun s hs => hs
  unfold VulkanContext.drained at hJ
  refine Hoare.ite (fun hPending => ?_) fun hNot => hoare_pure fun s hs => ?_
  · rintro s ⟨rfl, hs⟩
    rw [if_pos hPending] at hJ
    -- idle as it is, the timeline stays as it is
    have hRun := hoare_recreateSurface
      (J := fun t => (Tracked t ∧ J t) ∧ t.completed = t.submissions.length) hTracked
      (fun t ht => by rw [Timeline.idle_of_completed ht.2]; exact ht) (fun t ht => ht.1.1)
      ⟨⟨hTracked.idle, hJ⟩, rfl⟩
    exact Hoare.weaken hRun (fun _ s hs => hs.1) (fun s hs => hs) s hs
  · obtain ⟨rfl, rfl⟩ := hs
    rw [if_neg hNot] at hJ
    exact ⟨hTracked, hJ⟩

/-- `BeginFrame`, when its drain takes nothing that is still in use. -/
theorem hoare_beginFrame : Hoare
    (fun s => Tracked s.timeline ∧ (s.Enters → s.drained.Drains)) beginFrame
    (fun _ => On Tracked) (On Tracked) := by
  rw [beginFrame_eq_enterFrame]
  refine Hoare.bind (Q := fun _ => On fun t => Tracked t ∧ t.Drains) ?_ fun _ => ?_
  · rintro start ⟨hTracked, hDrains⟩
    -- when it returns it has entered
    refine Hoare.weaken (hoare_enterFrame (J := fun t => start.Enters → t.Drains) hTracked
      hDrains).ran ?_ (fun s hs => hs) start rfl
    rintro _ t ⟨⟨hEnd, hDrains⟩, s, rfl, hEnter⟩
    exact ⟨hEnd, hDrains ⟨t, hEnter⟩⟩
  refine Hoare.bind hoare_vkWaitForFences fun _ => ?_
  refine Hoare.bind hoare_vkGetSemaphoreCounterValue fun completedValue => ?_
  refine Hoare.bind (hoare_drainDeferred completedValue) fun _ => ?_
  exact Keeps.seq keeps_get fun _ => Hoare.ite (fun _ => keeps_beginSuspended) fun _ =>
    keeps_acquireAndBegin

-- ---------------------------------------------------------------------------
-- EndFrame and Present
-- ---------------------------------------------------------------------------

/-- The command buffer has been recorded and the counter is the value it is to signal. -/
def Recorded (t : Timeline) : Prop :=
  ∃ recording, t.buffers t.frameIndex = .executable recording ∧
    Tracked.Ended t recording (t.values t.frameIndex)

/-- The recording ends. -/
theorem hoare_vkEndCommandBuffer : Hoare (On Tracked) vkEndCommandBuffer
    (fun _ s => ∃ t recording, Tracked t ∧ t.buffers t.frameIndex = .recording recording ∧
      s.timeline = t.setBuffer (.executable recording)) (On Tracked) := by
  unfold vkEndCommandBuffer
  refine Hoare.bind (hoare_get (Q := fun s' s => s' = s ∧ Tracked s'.timeline) fun s hs =>
    ⟨rfl, hs⟩) fun start => ?_
  cases hBuffer : start.frame.commandBuffer with
  | recording recording =>
    refine Hoare.bind (Q := fun _ => On fun t => t = start.timeline ∧ Tracked t) ?_ fun answer => ?_
    · exact Hoare.strengthen (keeps_ask (by decide)) fun s hs => ⟨hs.1 ▸ rfl, hs.1 ▸ hs.2⟩
    refine Hoare.bind (Q := fun _ s => Tracked s.timeline ∧ (answer.result = .success →
      s.timeline = start.timeline.setBuffer (.executable recording) ∧ Tracked start.timeline)) ?_
      fun _ => ?_
    · refine hoare_modify fun s hs => ?_
      rw [timeline_setFrame, show s.frame.timelineValue = s.timeline.values s.timeline.frameIndex
        from rfl, hs.1]
      refine ⟨(hs.1 ▸ hs.2 : Tracked start.timeline).setFrame (fun r => ?_) _, fun hOk => ?_⟩
      · split <;> exact nofun
      · rw [if_pos hOk]
        exact ⟨rfl, hs.1 ▸ hs.2⟩
    · refine Hoare.ite (fun _ => hoare_throw fun s hs => hs.1) fun hOk => ?_
      refine hoare_pure fun s hs => ?_
      obtain ⟨hTimeline, hTracked⟩ := hs.2 (not_not.mp hOk)
      exact ⟨start.timeline, recording, hTracked, hBuffer, hTimeline⟩
  | _ => exact hoare_throw fun s hs => hs.1 ▸ hs.2

/-- The counter goes up to the value that the submission is to signal. -/
theorem hoare_countValue : Hoare
    (fun s => ∃ t recording, Tracked t ∧ t.buffers t.frameIndex = .recording recording ∧
      s.timeline = t.setBuffer (.executable recording))
    (modify fun s => s.setFrame { s.frame with timelineValue := s.frame.timelineValue + 1 } : Vk Unit)
    (fun _ => On Recorded) (On Tracked) := by
  refine hoare_modify fun s hs => ?_
  obtain ⟨t, recording, hTracked, hBuffer, hTimeline⟩ := hs
  have hNow : s.frame.commandBuffer = .executable recording := by
    show s.timeline.buffers s.timeline.frameIndex = _
    rw [hTimeline]
    exact t.setFrame_buffer _ _
  have hValue : s.frame.timelineValue = t.values t.frameIndex := by
    show s.timeline.values s.timeline.frameIndex = _
    rw [hTimeline]
    exact t.setFrame_value _ _
  rw [On, timeline_setFrame, hTimeline, Timeline.setBuffer, Timeline.setFrame_setFrame, hNow, hValue]
  refine ⟨recording, t.setFrame_buffer _ _, ?_⟩
  rw [Timeline.setFrame_value]
  exact hTracked.ended hBuffer (by intro r hNo; exact nomatch hNo) _

/-- It is submitted, and is to signal its value. -/
theorem hoare_vkQueueSubmit2 :
    Hoare (On Recorded) vkQueueSubmit2 (fun _ => On Tracked) (On Tracked) := by
  unfold vkQueueSubmit2
  refine Hoare.bind (hoare_get (Q := fun s' s => s' = s ∧ Recorded s'.timeline) fun s hs =>
    ⟨rfl, hs⟩) fun start => ?_
  cases hBuffer : start.frame.commandBuffer with
  | executable recording =>
    refine Hoare.bind (Q := fun _ => On fun t => t = start.timeline ∧ Recorded t) ?_ fun answer => ?_
    · exact Hoare.strengthen (keeps_ask (by decide)) fun s hs => ⟨hs.1 ▸ rfl, hs.1 ▸ hs.2⟩
    refine Hoare.bind (Q := fun _ => On Tracked) ?_ fun _ => keeps_pure _
    refine Hoare.ite (fun _ => hoare_modify fun s hs => ?_) fun _ => hoare_pure fun s hs => ?_
    · obtain ⟨hSame, recording', hExecutable, hEnded⟩ := hs
      have hEq : recording' = recording := by
        rw [hSame] at hExecutable
        exact CommandBuffer.executable.inj (hExecutable.symm.trans hBuffer)
      subst hEq
      have hSubmit : Tracked (s.timeline.submit (.submitted s.submissions.length) recording') :=
        Tracked.submit hEnded (by intro r hNo; exact nomatch hNo)
      have hSet := timeline_setFrame s { s.frame with
        commandBuffer := .submitted s.submissions.length
        acquireSemaphore := false
        inFlightFence := .submitted s.submissions.length }
      show Tracked { VulkanContext.timeline (s.setFrame _) with submissions := _ }
      rw [hSet]
      exact hSubmit
    · obtain ⟨-, recording', -, hEnded⟩ := hs
      exact hEnded.tracked
  | _ =>
    refine hoare_throw fun s hs => ?_
    obtain ⟨hSame, recording', -, hEnded⟩ := hs
    exact hSame ▸ hEnded.tracked

/-- `EndFrame`. -/
theorem keeps_endFrame : Keeps (On Tracked) endFrame := by
  unfold endFrame
  refine Keeps.seq keeps_get fun _ => Hoare.ite (fun _ => ?_) fun _ => ?_
  · exact Keeps.seq keeps_vkResetCommandPool fun _ => fun _ h => h
  · refine Hoare.bind hoare_vkEndCommandBuffer fun _ => Hoare.bind hoare_countValue fun _ => ?_
    refine Hoare.bind hoare_vkQueueSubmit2 fun _ => ?_
    refine Keeps.seq (keeps_whenever fun _ => keeps_loseDevice) fun _ => ?_
    exact Keeps.seq (keeps_whenever fun _ => keeps_giveUp _) fun _ => fun _ h => h

/-- The next context becomes the current one; the recordings do not depend on it. -/
theorem keeps_nextFrame : Keeps (On Tracked) nextFrame := fun _ h => { h with }

/-- `Present` touches no recording. -/
theorem keeps_present : Keeps (On Tracked) present :=
  indifferent_present (fun _ h => h) (fun _ _ _ h => h) keeps_nextFrame

-- ---------------------------------------------------------------------------
-- Retiring
-- ---------------------------------------------------------------------------

/-- `Retire` may be called: the queue has room, or none of its objects is used by a command
buffer that is being recorded. -/
def Timeline.Retires (t : Timeline) : Prop :=
  t.deferred.length ≥ MAX_DEFERRED_ENTRIES → t.Settled

instance (t : Timeline) : Decidable t.Retires := inferInstanceAs (Decidable (_ → _))

/-- An entry is retired with the value of the frame it was recorded in. -/
theorem hoare_recordAndRetire (entry : VulkanDeferredDestroy) :
    Hoare (On fun t => Tracked t ∧ t.Retires) (recordAndRetire entry) (fun _ => On Tracked)
      (On Tracked) := by
  unfold recordAndRetire vkCmd
  refine Hoare.bind (Q := fun recording => On fun t => (Tracked t ∧ t.Retires) ∧
    t.buffers t.frameIndex = .recording recording) ?_ fun recording => ?_
  · refine Hoare.bind (hoare_get (Q := fun s' s => s' = s ∧ On (fun t => Tracked t ∧ t.Retires) s)
      fun s hs => ⟨rfl, hs⟩) fun start => ?_
    cases hBuffer : start.frame.commandBuffer with
    | recording recording => exact hoare_pure fun s hs => ⟨hs.2, hs.1 ▸ hBuffer⟩
    | _ => exact hoare_throw fun s hs => hs.2.1
  refine Hoare.bind (Q := fun value => On fun t => ((Tracked t ∧ t.Retires) ∧
    t.buffers t.frameIndex = .recording recording) ∧ value = t.values t.frameIndex) ?_ fun value => ?_
  · exact fun s hs => ⟨hs, rfl⟩
  unfold retire
  refine Hoare.bind (hoare_get (Q := fun s' s => s' = s ∧ On (fun t => ((Tracked t ∧ t.Retires) ∧
    t.buffers t.frameIndex = .recording recording) ∧ value = t.values t.frameIndex) s) fun s hs =>
    ⟨rfl, hs⟩) fun start => ?_
  refine Hoare.bind (Q := fun _ => On fun t => (Tracked t ∧
    t.buffers t.frameIndex = .recording recording) ∧ value = t.values t.frameIndex) ?_ fun _ => ?_
  · refine Hoare.ite (fun hFull => ?_) fun _ => hoare_pure fun s hs =>
      ⟨⟨hs.2.1.1.1, hs.2.1.2⟩, hs.2.2⟩
    intro s hs
    obtain ⟨rfl, ⟨⟨hTracked, hRetires⟩, hBuffer⟩, hValue⟩ := hs
    exact ⟨⟨hTracked.drainAll (hRetires hFull) _, hBuffer⟩, hValue⟩
  · refine hoare_modify fun s hs => ?_
    exact hs.1.1.push (by exact hs.1.2) (by rw [hs.2])

/-- `UpdateBuffer` gets to its call of `Retire`. -/
def Stages (buffer : Tr2BufferAL) (offset size : UInt32) (data : Bool) (answers : Answers) : Prop :=
  data = true ∧ ¬(offset + size).toUInt64 > buffer.sizeBytes ∧ buffer.hostVisible = false ∧
    Succeeds (answers .vmaCreateBuffer)

instance (buffer : Tr2BufferAL) (offset size : UInt32) (data : Bool) (answers : Answers) :
    Decidable (Stages buffer offset size data answers) :=
  inferInstanceAs (Decidable (_ ∧ _))

/-- `UpdateBuffer`, when it has to stage and may retire. -/
theorem hoare_updateBuffer (buffer : Tr2BufferAL) (offset size : UInt32) (data : Bool) :
    Hoare (fun s => Tracked s.timeline ∧
      (Stages buffer offset size data s.answers → s.timeline.Retires))
    (updateBuffer buffer offset size data) (fun _ => On Tracked) (On Tracked) := by
  unfold updateBuffer
  refine Hoare.bind (Q := fun _ s => Tracked s.timeline ∧ (buffer.hostVisible = false →
    Succeeds (s.answers .vmaCreateBuffer) → s.timeline.Retires)) ?_ fun _ => ?_
  · refine Hoare.ite (fun _ => hoare_throw fun s hs => hs.1) fun hValid => ?_
    obtain ⟨hData, hFits⟩ := not_or.mp hValid
    exact hoare_pure fun s hs => ⟨hs.1, fun hDevice hOk =>
      hs.2 ⟨not_not.mp hData, hFits, hDevice, hOk⟩⟩
  refine Hoare.ite (fun _ => ?_) fun hDevice => ?_
  · refine Hoare.strengthen (P := On Tracked) ?_ fun s hs => hs.1
    refine Keeps.seq (keeps_ask (by decide)) fun _ => ?_
    exact Keeps.seq (keeps_whenever fun _ => keeps_giveUp _) fun _ => keeps_pure _
  refine Hoare.bind (Q := fun answer => On fun t => Tracked t ∧ (answer.result = .success →
    t.Retires)) ?_ fun answer => ?_
  · exact fun s hs => ⟨{ hs.1 with }, hs.2 (Bool.eq_false_of_not_eq_true hDevice)⟩
  refine Hoare.bind (Q := fun _ => On fun t => Tracked t ∧ t.Retires) ?_ fun _ => ?_
  · refine Hoare.ite (fun _ => hoare_throw fun s hs => hs.1) fun hOk => ?_
    exact hoare_pure fun s hs => ⟨hs.1, hs.2 (not_not.mp hOk)⟩
  refine Hoare.bind (Q := fun _ => On fun t => Tracked t ∧ t.Retires) (fun s hs => hs) fun _ => ?_
  refine Hoare.bind (Q := fun _ => On fun t => Tracked t ∧ t.Retires) ?_ fun _ =>
    (hoare_recordAndRetire _).bind fun _ => keeps_pure _
  exact Hoare.weaken (keeps_ask (by decide)) (fun _ s hs => hs) fun s hs => hs.1

-- ---------------------------------------------------------------------------
-- Runs
-- ---------------------------------------------------------------------------

/-- The call does not come to a drain that goes wrong. `BeginFrame` drains up to the value
that its own context has completed, so every command buffer that is not finished and has
objects in the queue has to have a higher one; `Retire` drains a full queue. -/
def VulkanContext.Meets (s : VulkanContext) : Call → Prop
  | .beginFrame answers =>
    let s : VulkanContext := { s with answers }
    s.Enters → s.drained.Drains
  | .updateBuffer buffer offset size data answers =>
    Stages buffer offset size data answers → s.timeline.Retires
  | .retire _ => s.timeline.Retires
  | _ => True

instance (s : VulkanContext) : (call : Call) → Decidable (s.Meets call)
  | .beginFrame _ => inferInstanceAs (Decidable (_ → _))
  | .updateBuffer .. => inferInstanceAs (Decidable (_ → _))
  | .retire _ => inferInstanceAs (Decidable (Timeline.Retires _))
  | .endFrame _ | .present _ | .recreateSwapchain _ | .complete => inferInstanceAs (Decidable True)

/-- Every call of a run meets the condition. -/
def AllMeet (s : VulkanContext) : List Call → Prop
  | [] => True
  | call :: calls => s.Meets call ∧ ∀ next ∈ step s call, AllMeet next calls

instance decidableAllMeet : (calls : List Call) → (s : VulkanContext) → Decidable (AllMeet s calls)
  | [], _ => inferInstanceAs (Decidable True)
  | _ :: calls, _ =>
    have := decidableAllMeet calls
    inferInstanceAs (Decidable (_ ∧ _))

/-- A step that meets its condition. -/
theorem tracked_step {s next : VulkanContext} {call : Call} (h : Tracked s.timeline)
    (hMeets : s.Meets call) (hStep : step s call = some next) : Tracked next.timeline := by
  obtain ⟨⟨result, t⟩, hPerform, rfl⟩ := Option.map_eq_some_iff.mp hStep
  have hAnswers : ∀ answers, Tracked ({ s with answers } : VulkanContext).timeline :=
    fun answers => { h with }
  cases call with
  | beginFrame answers => exact hoare_invoke hoare_beginFrame ⟨hAnswers answers, hMeets⟩ hPerform
  | endFrame answers => exact hoare_invoke keeps_endFrame (hAnswers answers) hPerform
  | present answers => exact hoare_invoke keeps_present (hAnswers answers) hPerform
  | updateBuffer buffer offset size data answers =>
    exact hoare_invoke ((hoare_updateBuffer buffer offset size data).bind fun _ =>
      keeps_pure ()) ⟨hAnswers answers, hMeets⟩ hPerform
  | retire entry =>
    exact hoare_invoke (hoare_recordAndRetire entry) ⟨hAnswers fun _ => [], hMeets⟩ hPerform
  | recreateSwapchain answers =>
    have hKept : Keeps (On Tracked) recreateSwapchain := keeps_recreateSwapchain fun _ ht => ht.idle
    exact hoare_invoke hKept (hAnswers answers) hPerform
  | complete =>
    obtain ⟨hLeft, rfl⟩ := perform_complete hPerform
    exact h.withCompleted hLeft

section Run

variable {windowless : Bool} {mode : VkExtent2D} {depthFormats : List VkFormat} {answers : Answers}
  {start : VulkanContext} {calls : List Call}

/-- A new device. -/
theorem tracked_createDevice (h : createDevice windowless mode depthFormats answers = some start) :
    Tracked start.timeline := by
  have hEmpty : Tracked (VulkanContext.timeline { windowless, mode, depthFormats }) :=
    ⟨Nat.le_refl _, nofun, nofun, nofun, nofun, nofun, nofun, nofun⟩
  unfold createDevice at h
  simp only at h
  split at h
  · exact Option.some.inj h ▸ hEmpty
  · split at h
    · rename_i s hInvoke
      obtain rfl := Option.some.inj h
      have hKept : Keeps (On Tracked) createSwapchain := keeps_createSwapchainInternal _
      exact hoare_invoke hKept { hEmpty with } hInvoke
    · exact nomatch h

/-- A run whose steps meet their conditions. -/
theorem tracked_run : ∀ {calls : List Call} {start s : VulkanContext}, Tracked start.timeline →
    AllMeet start calls → runEvents step start calls = some s → Tracked s.timeline
  | [], _, _, h, _, hRun => by
    rw [runEvents_nil, Option.some.injEq] at hRun
    exact hRun ▸ h
  | _ :: _, _, _, h, hMeet, hRun => by
    obtain ⟨mid, hOne, hRest⟩ := runEvents_cons_eq_some.mp hRun
    exact tracked_run (tracked_step h hMeet.1 hOne) (hMeet.2 mid hOne) hRest

/-- In every run whose calls meet the condition, nothing is destroyed before the submission
that uses it has completed. -/
theorem destroyed_of_run {s : VulkanContext}
    (hStart : createDevice windowless mode depthFormats answers = some start)
    (hMeet : AllMeet start calls) (hRun : runEvents step start calls = some s) :
    s.SafelyDestroyed := by
  have hTracked := tracked_run (tracked_createDevice hStart) hMeet hRun
  exact fun destroyed hMem => (hTracked.gone destroyed hMem).2.2.1

/-- All Vulkan functions succeed. -/
def quiet : Answers := fun _ => []

/-- A frame that updates a buffer. -/
def updateFrame : List Call :=
  [.beginFrame quiet,
    .updateBuffer { sizeBytes := 64, hostVisible := false } 0 16 true quiet,
    .endFrame quiet, .present quiet]

/-- The third frame begins when both before it have completed. -/
def completedCalls : List Call :=
  updateFrame ++ updateFrame ++ [.complete, .complete, .beginFrame quiet]

/-- Two frames, each with a staging buffer. Both buffers are destroyed after their submissions. -/
theorem destroyed_of_run_completedCalls : ∃ start s,
    createDevice false ⟨640, 480⟩ [.VK_FORMAT_D32_SFLOAT] quiet = some start ∧
    runEvents step start completedCalls = some s ∧ s.destroyed.length = 2 ∧ s.SafelyDestroyed := by
  have hFirst : (createDevice false ⟨640, 480⟩ [.VK_FORMAT_D32_SFLOAT] quiet).any
      fun start => AllMeet start completedCalls ∧ (runEvents step start completedCalls).any
        fun s => s.destroyed.length = 2 := by
    decide +kernel
  obtain ⟨start, hStart, hBoth⟩ := (Option.any_eq_true _ _).mp hFirst
  obtain ⟨hMeet, hSecond⟩ := of_decide_eq_true hBoth
  obtain ⟨s, hRun, hLength⟩ := (Option.any_eq_true _ _).mp hSecond
  exact ⟨start, s, hStart, hRun, of_decide_eq_true hLength, destroyed_of_run hStart hMeet hRun⟩

/-- The third frame begins when only the first has completed. -/
def overtakenCalls : List Call := updateFrame ++ updateFrame ++ [.complete, .beginFrame quiet]

/-- It destroys what the second still reads. -/
theorem not_safelyDestroyed_overtakenCalls : ∃ start s,
    createDevice false ⟨640, 480⟩ [.VK_FORMAT_D32_SFLOAT] quiet = some start ∧
    runEvents step start overtakenCalls = some s ∧ ¬s.SafelyDestroyed := by
  have hFirst : (createDevice false ⟨640, 480⟩ [.VK_FORMAT_D32_SFLOAT] quiet).any
      fun start => (runEvents step start overtakenCalls).any fun s => ¬s.SafelyDestroyed := by
    decide +kernel
  obtain ⟨start, hStart, hSecond⟩ := (Option.any_eq_true _ _).mp hFirst
  obtain ⟨s, hRun, hUnsafe⟩ := (Option.any_eq_true _ _).mp hSecond
  exact ⟨start, s, hStart, hRun, of_decide_eq_true hUnsafe⟩

end Run

end Ithax.Vulkan
