import Ithax.Vulkan.Frame

/-!
# The timeline

What the destruction of retired objects depends on: the command buffers and counters of
the frame contexts, the submissions, and the queue of retired objects. Every object that
is in the queue or was destroyed can be told by the recording that used it.

## Results

* `Tracked.drain`   — what a drain may destroy.
* `Tracked.submit`  — what was destroyed is not submitted.
-/

namespace Ithax.Vulkan

open Ithax.Lib

/-- The part of the context that the destruction of retired objects depends on. -/
structure Timeline where
  buffers : FrameIndex → CommandBuffer
  values : FrameIndex → UInt64
  frameIndex : FrameIndex
  deferred : List Retired
  destroyed : List Destroyed
  submissions : List Submission
  completed : Nat
  recordings : Nat
  /-- The answers to come of `vkWaitForFences` and of `vkGetSemaphoreCounterValue`. -/
  waits : List Answer
  counters : List Answer

/-- The timeline of a context. -/
def VulkanContext.timeline (s : VulkanContext) : Timeline where
  buffers i := (s.frames i).commandBuffer
  values i := (s.frames i).timelineValue
  frameIndex := s.frameIndex
  deferred := s.deferred
  destroyed := s.destroyed
  submissions := s.submissions
  completed := s.completed
  recordings := s.recordings
  waits := s.answers .vkWaitForFences
  counters := s.answers .vkGetSemaphoreCounterValue

namespace Timeline

variable (t : Timeline)

/-- The submissions that have not completed. -/
def unfinished : List Submission := t.submissions.drop t.completed

/-- The counter of the current semaphore: the value of its last submission that has completed. -/
def counterValue : UInt64 :=
  (((t.submissions.take t.completed).filter fun submission =>
    submission.context = t.frameIndex).getLast?.map Submission.value).getD 0

/-- After `vkDeviceWaitIdle`. -/
def idle : Timeline := { t with completed := t.submissions.length }

/-- The current context moves on to another state of its command buffer. -/
def setFrame (buffer : CommandBuffer) (value : UInt64) : Timeline :=
  { t with
    buffers := Function.update t.buffers t.frameIndex buffer
    values := Function.update t.values t.frameIndex value }

/-- The current command buffer changes, and no value. -/
def setBuffer (buffer : CommandBuffer) : Timeline := t.setFrame buffer (t.values t.frameIndex)

/-- `vkBeginCommandBuffer`: a new recording. -/
def begin : Timeline :=
  { t.setBuffer (.recording t.recordings) with recordings := t.recordings + 1 }

/-- `vkQueueSubmit` of the current command buffer. -/
def submit (buffer : CommandBuffer) (recording : Nat) : Timeline :=
  { t.setBuffer buffer with
    submissions := t.submissions ++
      [{ context := t.frameIndex, recording, value := t.values t.frameIndex }] }

/-- `DrainDeferred`: what is not above the value is destroyed. -/
def drain (completedValue : UInt64) : Timeline :=
  { t with
    deferred := t.deferred.filter fun retired => retired.entry.timelineValue > completedValue
    destroyed := t.destroyed ++
      (t.deferred.filter fun retired => ¬retired.entry.timelineValue > completedValue).flatMap
        fun retired => retired.destroyedAt t.completed }

/-- An object is retired. -/
def push (retired : Retired) : Timeline := { t with deferred := t.deferred ++ [retired] }

/-- Every command buffer that has not completed, submitted or being recorded, and has
objects in the queue, has a value above `bound`. -/
def Above (bound : UInt64) : Prop :=
  ∀ retired ∈ t.deferred,
    (∀ submission ∈ t.unfinished, submission.recording = retired.recording →
      bound < submission.value) ∧
    ∀ i, t.buffers i = .recording retired.recording → bound < t.values i + 1

/-- No object in the queue is used by a command buffer that is being recorded. -/
def Settled : Prop := ∀ retired ∈ t.deferred, ∀ i, t.buffers i ≠ .recording retired.recording

/-- Only the last state counts. -/
@[simp] theorem setFrame_setFrame (buffer buffer' : CommandBuffer) (value value' : UInt64) :
    (t.setFrame buffer value).setFrame buffer' value' = t.setFrame buffer' value' := by
  unfold setFrame
  rw [Function.update_idem, Function.update_idem]

/-- The value that was set. -/
theorem setFrame_value (buffer : CommandBuffer) (value : UInt64) :
    (t.setFrame buffer value).values (t.setFrame buffer value).frameIndex = value :=
  Function.update_self _ _ _

/-- The buffer that was set. -/
theorem setFrame_buffer (buffer : CommandBuffer) (value : UInt64) :
    (t.setFrame buffer value).buffers (t.setFrame buffer value).frameIndex = buffer :=
  Function.update_self _ _ _

/-- No value changes with the buffer. -/
@[simp] theorem setBuffer_values (buffer : CommandBuffer) : (t.setBuffer buffer).values = t.values :=
  Function.update_eq_self _ _

instance (bound : UInt64) : Decidable (t.Above bound) :=
  inferInstanceAs (Decidable (∀ retired ∈ t.deferred, _ ∧ _))

instance : Decidable t.Settled :=
  inferInstanceAs (Decidable (∀ retired ∈ t.deferred, _))

end Timeline

/-- No object was destroyed before a submission that uses it had completed. -/
def VulkanContext.SafelyDestroyed (s : VulkanContext) : Prop :=
  ∀ destroyed ∈ s.destroyed, ∀ submission ∈ s.submissions.drop destroyed.completed,
    submission.recording ≠ destroyed.recording

instance (s : VulkanContext) : Decidable s.SafelyDestroyed :=
  inferInstanceAs (Decidable (∀ destroyed ∈ s.destroyed, _))

/-- The recordings are told apart, and the objects by their recordings. -/
structure Tracked (t : Timeline) : Prop where
  bound : t.completed ≤ t.submissions.length
  submitted : ∀ submission ∈ t.submissions, submission.recording < t.recordings
  recorded : ∀ i r, t.buffers i = .recording r →
    r < t.recordings ∧ ∀ submission ∈ t.submissions, submission.recording ≠ r
  apart : ∀ i j r, t.buffers i = .recording r → t.buffers j = .recording r → i = j
  known : ∀ retired ∈ t.deferred, retired.recording < t.recordings
  valued : ∀ retired ∈ t.deferred, ∀ submission ∈ t.submissions,
    submission.recording = retired.recording → submission.value = retired.entry.timelineValue
  next : ∀ retired ∈ t.deferred, ∀ i, t.buffers i = .recording retired.recording →
    retired.entry.timelineValue = t.values i + 1
  gone : ∀ destroyed ∈ t.destroyed, destroyed.recording < t.recordings ∧
    destroyed.completed ≤ t.submissions.length ∧
    (∀ submission ∈ t.submissions.drop destroyed.completed,
      submission.recording ≠ destroyed.recording) ∧
    ∀ i, t.buffers i ≠ .recording destroyed.recording

namespace Tracked

variable {t : Timeline} {buffer : CommandBuffer} {recording : Nat} {retired : Retired}

/-- The GPU goes on. -/
theorem withCompleted (h : Tracked t) {completed : Nat} (hBound : completed ≤ t.submissions.length) :
    Tracked { t with completed } :=
  { h with bound := hBound }

/-- After `vkDeviceWaitIdle` more has completed. -/
theorem idle (h : Tracked t) : Tracked t.idle := h.withCompleted (Nat.le_refl _)

/-- A recording that is found after the update was there before, in another context. -/
theorem buffers_of_update (hBuffer : ∀ r, buffer ≠ .recording r) {i : FrameIndex} {r : Nat}
    (h : Function.update t.buffers t.frameIndex buffer i = .recording r) :
    i ≠ t.frameIndex ∧ t.buffers i = .recording r := by
  by_cases hSame : i = t.frameIndex
  · subst hSame
    rw [Function.update_self] at h
    exact absurd h (hBuffer r)
  · rw [Function.update_of_ne hSame] at h
    exact ⟨hSame, h⟩

/-- The current command buffer is not recorded any more. -/
theorem setFrame (h : Tracked t) (hBuffer : ∀ r, buffer ≠ .recording r) (value : UInt64) :
    Tracked (t.setFrame buffer value) := by
  refine { h with recorded := ?_, apart := ?_, next := ?_, gone := ?_ }
  · exact fun i r hi => h.recorded i r (buffers_of_update hBuffer hi).2
  · intro i j r hi hj
    exact h.apart i j r (buffers_of_update hBuffer hi).2 (buffers_of_update hBuffer hj).2
  · intro retired hRetired i hi
    obtain ⟨hOther, hOld⟩ := buffers_of_update hBuffer hi
    show _ = Function.update t.values t.frameIndex value i + 1
    rw [Function.update_of_ne hOther]
    exact h.next retired hRetired i hOld
  · intro destroyed hDestroyed
    obtain ⟨hKnown, hBound, hNone, hBuffers⟩ := h.gone destroyed hDestroyed
    exact ⟨hKnown, hBound, hNone, fun i hi => hBuffers i (buffers_of_update hBuffer hi).2⟩

/-- The current command buffer begins a recording that nothing belongs to. -/
theorem begin (h : Tracked t) : Tracked t.begin := by
  have hCases : ∀ {i r}, t.begin.buffers i = .recording r →
      (i = t.frameIndex ∧ r = t.recordings) ∨ (i ≠ t.frameIndex ∧ t.buffers i = .recording r) := by
    intro i r hi
    change Function.update t.buffers t.frameIndex (.recording t.recordings) i = _ at hi
    by_cases hSame : i = t.frameIndex
    · subst hSame
      refine Or.inl ⟨rfl, ?_⟩
      -- the current buffer holds the new recording, and the others what they held
      rw [Function.update_self] at hi
      exact (CommandBuffer.recording.inj hi).symm
    · rw [Function.update_of_ne hSame] at hi
      exact Or.inr ⟨hSame, hi⟩
  refine {
    bound := h.bound
    submitted := fun submission hMem => Nat.lt_succ_of_lt (h.submitted submission hMem)
    recorded := ?_, apart := ?_
    known := fun retired hMem => Nat.lt_succ_of_lt (h.known retired hMem)
    valued := h.valued, next := ?_, gone := ?_ }
  · intro i r hi
    rcases hCases hi with ⟨-, rfl⟩ | ⟨-, hOld⟩
    · exact ⟨Nat.lt_succ_self _, fun submission hMem => (h.submitted submission hMem).ne⟩
    · obtain ⟨hLt, hNone⟩ := h.recorded i r hOld
      exact ⟨Nat.lt_succ_of_lt hLt, hNone⟩
  · intro i j r hi hj
    rcases hCases hi with ⟨hI, rfl⟩ | ⟨-, hI⟩
    · rcases hCases hj with ⟨hJ, -⟩ | ⟨-, hJ⟩
      · exact hI.trans hJ.symm
      · exact absurd (h.recorded j _ hJ).1 (Nat.lt_irrefl _)
    · rcases hCases hj with ⟨-, rfl⟩ | ⟨-, hJ⟩
      · exact absurd (h.recorded i _ hI).1 (Nat.lt_irrefl _)
      · exact h.apart i j r hI hJ
  · intro retired hMem i hi
    rcases hCases hi with ⟨-, hNew⟩ | ⟨-, hOld⟩
    -- what is in the queue is older than the new recording
    · exact absurd (hNew ▸ h.known retired hMem) (Nat.lt_irrefl _)
    · rw [Timeline.begin, Timeline.setBuffer_values]
      exact h.next retired hMem i hOld
  · intro destroyed hMem
    obtain ⟨hKnown, hBound, hNone, hBuffers⟩ := h.gone destroyed hMem
    refine ⟨Nat.lt_succ_of_lt hKnown, hBound, hNone, fun i hi => ?_⟩
    rcases hCases hi with ⟨-, hNew⟩ | ⟨-, hOld⟩
    · exact absurd (hNew ▸ hKnown) (Nat.lt_irrefl _)
    · exact hBuffers i hOld

/-- A recording that has ended: nothing that it uses has been destroyed, and what it has
retired waits for the value of its context. -/
structure Ended (t : Timeline) (recording : Nat) (value : UInt64) : Prop where
  tracked : Tracked t
  known : recording < t.recordings
  fresh : ∀ submission ∈ t.submissions, submission.recording ≠ recording
  idle : ∀ i, t.buffers i ≠ .recording recording
  kept : ∀ destroyed ∈ t.destroyed, destroyed.recording ≠ recording
  valued : ∀ retired ∈ t.deferred, retired.recording = recording →
    retired.entry.timelineValue = value

/-- The recording of the current command buffer ends. -/
theorem ended (h : Tracked t) (hBuffer : t.buffers t.frameIndex = .recording recording)
    (hNext : ∀ r, buffer ≠ .recording r) (value : UInt64) :
    Ended (t.setFrame buffer value) recording (t.values t.frameIndex + 1) := by
  obtain ⟨hKnown, hFresh⟩ := h.recorded _ _ hBuffer
  refine ⟨h.setFrame hNext value, hKnown, hFresh, fun i hi => ?_, fun destroyed hMem hEq => ?_,
    fun retired hMem hEq => ?_⟩
  · obtain ⟨hOther, hOld⟩ := buffers_of_update hNext hi
    exact hOther (h.apart _ _ _ hOld hBuffer)
  · exact (h.gone destroyed hMem).2.2.2 _ (hEq ▸ hBuffer)
  · exact h.next retired hMem _ (hEq ▸ hBuffer)

/-- What has ended is submitted with the value that its objects wait for. -/
theorem submit (h : Ended t recording (t.values t.frameIndex))
    (hBuffer : ∀ r, buffer ≠ .recording r) : Tracked (t.submit buffer recording) := by
  have hTracked := h.tracked
  refine { hTracked with
    bound := ?_, submitted := ?_, recorded := ?_, apart := ?_, valued := ?_, next := ?_, gone := ?_ }
  · show _ ≤ (t.submissions ++ [_]).length
    rw [List.length_append]
    exact Nat.le_add_right_of_le hTracked.bound
  · exact forall_mem_append_one h.known hTracked.submitted
  · intro i r hi
    obtain ⟨-, hOld⟩ := buffers_of_update hBuffer hi
    obtain ⟨hLt, hNone⟩ := hTracked.recorded i r hOld
    refine ⟨hLt, forall_mem_append_one (fun hEq => h.idle i ?_) hNone⟩
    rw [show recording = r from hEq]
    exact hOld
  · intro i j r hi hj
    exact hTracked.apart i j r (buffers_of_update hBuffer hi).2 (buffers_of_update hBuffer hj).2
  · intro retired hMem
    exact forall_mem_append_one (fun hEq => (h.valued retired hMem hEq.symm).symm)
      (hTracked.valued retired hMem)
  · intro retired hMem i hi
    rw [Timeline.submit, Timeline.setBuffer_values]
    exact hTracked.next retired hMem i (buffers_of_update hBuffer hi).2
  · intro destroyed hMem
    obtain ⟨hKnown, hBound, hNone, hBuffers⟩ := hTracked.gone destroyed hMem
    refine ⟨hKnown, ?_, ?_, fun i hi => hBuffers i (buffers_of_update hBuffer hi).2⟩
    · show _ ≤ (t.submissions ++ [_]).length
      rw [List.length_append]
      exact Nat.le_add_right_of_le hBound
    -- what was destroyed is no part of the recording that is submitted
    · rw [Timeline.submit, List.drop_append_of_le_length hBound]
      exact forall_mem_append_one (h.kept destroyed hMem).symm hNone

/-- A drain up to a value that every unfinished recording is above. -/
theorem drain (h : Tracked t) {completedValue : UInt64} (hAbove : t.Above completedValue) :
    Tracked (t.drain completedValue) := by
  refine { h with known := ?_, valued := ?_, next := ?_, gone := ?_ }
  · exact fun retired hMem => h.known retired (List.mem_of_mem_filter hMem)
  · exact fun retired hMem => h.valued retired (List.mem_of_mem_filter hMem)
  · exact fun retired hMem => h.next retired (List.mem_of_mem_filter hMem)
  · intro destroyed hMem
    rcases List.mem_append.mp hMem with hOld | hNew
    · exact h.gone destroyed hOld
    · obtain ⟨retired, hRetired, hObject⟩ := List.mem_flatMap.mp hNew
      obtain ⟨object, -, rfl⟩ := List.mem_map.mp hObject
      obtain ⟨hIn, hDue⟩ := List.mem_filter.mp hRetired
      have hDue : ¬completedValue < retired.entry.timelineValue := of_decide_eq_true hDue
      obtain ⟨hSubmitted, hRecorded⟩ := hAbove retired hIn
      refine ⟨h.known retired hIn, h.bound, fun submission hUnfinished hEq => hDue ?_,
        fun i hi => hDue ?_⟩
      · rw [← h.valued retired hIn submission (List.mem_of_mem_drop hUnfinished) hEq]
        exact hSubmitted submission hUnfinished hEq
      · rw [h.next retired hIn i hi]
        exact hRecorded i hi

/-- A drain of everything when nothing is unfinished. -/
theorem drainAll (h : Tracked t) (hSettled : t.Settled) (completedValue : UInt64) :
    Tracked (t.idle.drain completedValue) := by
  refine h.idle.drain fun retired hMem => ⟨fun submission hUnfinished => ?_, fun i hi => ?_⟩
  · rw [Timeline.unfinished, Timeline.idle, List.drop_length] at hUnfinished
    exact absurd hUnfinished List.not_mem_nil
  · exact absurd hi (hSettled retired hMem i)

/-- An object of the recording in progress is retired with the next value. -/
theorem push (h : Tracked t) (hBuffer : t.buffers t.frameIndex = .recording retired.recording)
    (hValue : retired.entry.timelineValue = t.values t.frameIndex + 1) :
    Tracked (t.push retired) := by
  obtain ⟨hKnown, hFresh⟩ := h.recorded _ _ hBuffer
  refine { h with known := ?_, valued := ?_, next := ?_ }
  · exact forall_mem_append_one hKnown h.known
  · exact forall_mem_append_one (fun submission hMem hEq => absurd hEq (hFresh submission hMem))
      h.valued
  · refine forall_mem_append_one (fun i hi => ?_) h.next
    obtain rfl := h.apart _ _ _ hi hBuffer
    exact hValue

end Tracked

end Ithax.Vulkan
