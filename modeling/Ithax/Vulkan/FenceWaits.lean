import Ithax.Lib.RunHistory
import Ithax.Vulkan.FrameSync

/-!
# Waiting for fences

`BeginFrame` resets the fence of its frame context, and the submission of `EndFrame` signals it
again. What fails in between leaves a fence that nobody signals, and the next `BeginFrame` on the
context waits for it without a limit.

## Results

* `fence_step`           — the calls that reset a fence, and those that submit it.
* `waitsForSignal_iff`   — the runs in which every fence that is waited for gets its signal.
-/

namespace Ithax.Vulkan

open Ithax.Lib

/-- The fence is signalled, or there is a submitted batch that signals it. -/
def VulkanContext.HasSignal (s : VulkanContext) : Fence → Prop
  | .signalled => True
  | .unsignalled => False
  | .submitted submission => submission < s.submissions.length

/-- Every `vkWaitForFences` of a run is on a fence that gets its signal. -/
def WaitsForSignal (start : VulkanContext) (calls : List Call) : Prop :=
  ∀ before answers after s t, calls = before ++ .beginFrame answers :: after →
    runEvents step start before = some s → enterFrame { s with answers } = .ok () t →
    t.HasSignal t.frame.inFlightFence

/-- The call begins a frame on the context, and resets its fence. -/
def ResetsFence (context : FrameIndex) (s : VulkanContext) : Call → Prop
  | .beginFrame answers => s.frameIndex = context ∧ ∃ t, armFrame { s with answers } = .ok true t
  | _ => False

/-- The call submits the frame of the context. -/
def SubmitsFrame (context : FrameIndex) (s : VulkanContext) : Call → Prop
  | .endFrame answers => s.frameIndex = context ∧ Submits { s with answers }
  | _ => False

/-- Whenever `BeginFrame` gets to its fence, the frame that has reset it before has been
submitted since. -/
def FramesSubmitted (start : VulkanContext) (calls : List Call) : Prop :=
  ∀ before answers after s t, calls = before ++ .beginFrame answers :: after →
    runEvents step start before = some s → enterFrame { s with answers } = .ok () t →
    ¬Since step (ResetsFence s.frameIndex) (SubmitsFrame s.frameIndex) start before

-- ---------------------------------------------------------------------------
-- What the calls do to a fence
-- ---------------------------------------------------------------------------

section Fence

variable {s next : VulkanContext} {answers : Answers} {result : ALResult}

/-- The fence is reset when an image has been acquired, and only then. -/
theorem hoare_armFrame (start : VulkanContext) :
    Hoare (OnSync fun fences _ submissions i =>
        fences = start.fence ∧ submissions = start.submissions ∧ i = start.frameIndex) armFrame
      (fun armed => OnSync fun fences _ submissions _ => submissions = start.submissions ∧
        fences = if armed then Function.update start.fence start.frameIndex .unsignalled
          else start.fence)
      (OnSync fun fences _ submissions _ => submissions = start.submissions ∧
        fences = start.fence) := by
  have hWeaken : ∀ {α : Type} {m : Vk α}, Keeps (OnSync fun fences _ submissions i =>
      fences = start.fence ∧ submissions = start.submissions ∧ i = start.frameIndex) m →
      Hoare (OnSync fun fences _ submissions i =>
        fences = start.fence ∧ submissions = start.submissions ∧ i = start.frameIndex) m
        (fun _ => OnSync fun fences _ submissions i =>
          fences = start.fence ∧ submissions = start.submissions ∧ i = start.frameIndex)
        (OnSync fun fences _ submissions _ => submissions = start.submissions ∧
          fences = start.fence) :=
    fun h => h.weaken (fun _ _ h => h) fun _ h => ⟨h.2.1, h.1⟩
  refine Hoare.bind (hWeaken keeps_prepareFrame) fun acquires => ?_
  refine Hoare.ite (fun _ => ?_) fun _ => hoare_pure fun s h => ⟨h.2.1, h.1⟩
  refine Hoare.bind (hWeaken (keeps_acquireImage fun frames context _ h => ?_)) fun _ => ?_
  · refine ⟨?_, h.2⟩
    rw [← h.1]
    funext other
    by_cases hOther : other = context
    · subst hOther
      rw [Function.update_self]
    · rw [Function.update_of_ne hOther]
  refine Hoare.bind (Q := fun _ => OnSync fun fences _ submissions _ =>
    submissions = start.submissions ∧
      fences = Function.update start.fence start.frameIndex .unsignalled) ?_ fun _ =>
    hoare_pure fun s h => h
  refine (hoare_checked (by decide) fun s h => ?_).weaken (fun _ _ h => h) fun _ h => ⟨h.2.1, h.1⟩
  obtain ⟨hFences, hSubmissions, hIndex⟩ := h
  refine ⟨hSubmissions, ?_⟩
  rw [← hFences, ← hIndex]
  exact fence_setFrame

/-- What `BeginFrame` does to the fences, in whichever way it ends. -/
theorem fence_beginFrame (hRun : invoke beginFrame answers s = some (result, next)) :
    next.submissions = s.submissions ∧
      ((∃ t, armFrame { s with answers } = .ok true t) ∧
        next.fence = Function.update s.fence s.frameIndex .unsignalled ∨
      (¬∃ t, armFrame { s with answers } = .ok true t) ∧ next.fence = s.fence) := by
  have hEnd := finalState_of_resultOf (invoke_eq_some_iff.mp hRun)
  have hArm := hoare_armFrame s { s with answers } ⟨rfl, rfl, rfl⟩
  rw [beginFrame_eq] at hEnd
  cases hArmed : armFrame { s with answers } with
  | ok armed t =>
    rw [hArmed] at hArm
    rw [bind_of_ok hArmed] at hEnd
    obtain ⟨hSubmissions, hFence⟩ := hArm
    have hSame : SameSync t next := by
      rw [← hEnd]
      exact sameSync_of_keeps keeps_onSync_beginRecording
    refine ⟨hSame.submissions.trans hSubmissions, ?_⟩
    cases armed with
    | true => exact .inl ⟨⟨t, rfl⟩, hSame.fence.trans hFence⟩
    | false => exact .inr ⟨(fun ⟨_, hNo⟩ => nomatch hNo), hSame.fence.trans hFence⟩
  | error exit t =>
    rw [hArmed] at hArm
    rw [bind_of_error hArmed] at hEnd
    obtain rfl : t = next := hEnd
    exact ⟨hArm.1, .inr ⟨(fun ⟨_, hNo⟩ => nomatch hNo), hArm.2⟩⟩

/-- What `EndFrame` does to the fences. -/
theorem fence_endFrame (hRun : invoke endFrame answers s = some (result, next))
    (context : FrameIndex) : next.fence context = .unsignalled ↔
      s.fence context = .unsignalled ∧ ¬SubmitsFrame context s (.endFrame answers) := by
  have hEnd := finalState_of_resultOf (invoke_eq_some_iff.mp hRun)
  rcases sync_endFrame { s with answers } with ⟨hSubmits, hSync⟩ | ⟨hNot, hSame⟩
  · rw [hEnd] at hSync
    rw [hSync.fence]
    by_cases hContext : context = s.frameIndex
    · subst hContext
      rw [Function.update_self]
      exact iff_of_false nofun fun h => h.2 ⟨rfl, hSubmits⟩
    · rw [Function.update_of_ne hContext]
      exact ⟨fun h => ⟨h, fun hNo => hContext hNo.1.symm⟩, fun h => h.1⟩
  · rw [hEnd] at hSame
    rw [hSame.fence]
    exact ⟨fun h => ⟨h, fun hNo => hNot hNo.2⟩, fun h => h.1⟩

/-- What a call does to a fence. -/
theorem fence_step {call : Call} (hStep : step s call = some next) (context : FrameIndex) :
    next.fence context = .unsignalled ↔ ResetsFence context s call ∨
      s.fence context = .unsignalled ∧ ¬SubmitsFrame context s call := by
  by_cases hOther : call.IsOther
  · rw [(sync_of_other hOther hStep).fence]
    cases call with
    | beginFrame answers => exact hOther.elim
    | endFrame answers => exact hOther.elim
    | _ => simp only [ResetsFence, SubmitsFrame, not_false_eq_true, and_true, false_or]
  obtain ⟨⟨result, t⟩, hPerform, rfl⟩ := Option.map_eq_some_iff.mp hStep
  cases call with
  | beginFrame answers =>
    simp only [ResetsFence, SubmitsFrame, not_false_eq_true, and_true]
    rcases (fence_beginFrame hPerform).2 with ⟨hArmed, hFence⟩ | ⟨hNot, hFence⟩
    · rw [hFence]
      by_cases hContext : context = s.frameIndex
      · subst hContext
        rw [Function.update_self]
        exact iff_of_true rfl (.inl ⟨rfl, hArmed⟩)
      · rw [Function.update_of_ne hContext]
        exact ⟨.inr, fun h => h.elim (fun hReset => absurd hReset.1.symm hContext) id⟩
    · rw [hFence]
      exact ⟨.inr, fun h => h.elim (fun hReset => absurd hReset.2 hNot) id⟩
  | endFrame answers =>
    rw [fence_endFrame hPerform]
    simp only [ResetsFence, false_or]
  | _ => exact absurd trivial hOther

end Fence

-- ---------------------------------------------------------------------------
-- Runs
-- ---------------------------------------------------------------------------

/-- The batch that signals a fence has been submitted. -/
def VulkanContext.FencesSubmitted (s : VulkanContext) : Prop :=
  ∀ context submission, s.fence context = .submitted submission →
    submission < s.submissions.length

theorem fencesSubmitted_step {s next : VulkanContext} {call : Call} (h : s.FencesSubmitted)
    (hStep : step s call = some next) : next.FencesSubmitted := by
  intro context submission hFence
  by_cases hOther : call.IsOther
  · have hSame := sync_of_other hOther hStep
    rw [hSame.fence] at hFence
    rw [hSame.submissions]
    exact h context submission hFence
  obtain ⟨⟨result, t⟩, hPerform, rfl⟩ := Option.map_eq_some_iff.mp hStep
  cases call with
  | beginFrame answers =>
    obtain ⟨hSubmissions, hFences⟩ := fence_beginFrame hPerform
    rw [hSubmissions]
    rcases hFences with ⟨-, hFences⟩ | ⟨-, hFences⟩
    · rw [hFences] at hFence
      by_cases hContext : context = s.frameIndex
      · subst hContext
        rw [Function.update_self] at hFence
        cases hFence
      · rw [Function.update_of_ne hContext] at hFence
        exact h context submission hFence
    · rw [hFences] at hFence
      exact h context submission hFence
  | endFrame answers =>
    have hEnd := finalState_of_resultOf (invoke_eq_some_iff.mp hPerform)
    rcases sync_endFrame { s with answers } with ⟨-, hSync⟩ | ⟨-, hSame⟩
    · rw [hEnd] at hSync
      rw [hSync.fence] at hFence
      rw [hSync.submissions]
      by_cases hContext : context = s.frameIndex
      · subst hContext
        rw [Function.update_self] at hFence
        cases hFence
        exact Nat.lt_succ_self _
      · rw [Function.update_of_ne hContext] at hFence
        exact Nat.lt_succ_of_lt (h context submission hFence)
    · rw [hEnd] at hSame
      rw [hSame.fence] at hFence
      rw [hSame.submissions]
      exact h context submission hFence
  | _ => exact absurd trivial hOther

section Run

variable {windowless : Bool} {mode : VkExtent2D} {depthFormats : List VkFormat} {answers : Answers}
  {start : VulkanContext}

/-- The fences of a new device are signalled. -/
theorem fence_createDevice (h : createDevice windowless mode depthFormats answers = some start)
    (context : FrameIndex) : start.fence context = .signalled := by
  have hFirst : OnSync (fun fences _ _ _ => ∀ context, fences context = .signalled)
      { windowless, mode, depthFormats } :=
    fun _ => rfl
  exact aside_createDevice hFirst h context

/-- In every run on a new device, each fence that is waited for gets its signal exactly when
the frames whose fences are reset are submitted. -/
theorem waitsForSignal_iff (hStart : createDevice windowless mode depthFormats answers = some start)
    (calls : List Call) : WaitsForSignal start calls ↔ FramesSubmitted start calls := by
  have hFirst : start.FencesSubmitted := by
    intro context submission hFence
    rw [fence_createDevice hStart context] at hFence
    cases hFence
  have hOne : ∀ {before : List Call} {s t : VulkanContext} {answers : Answers},
      runEvents step start before = some s → enterFrame { s with answers } = .ok () t →
      (t.HasSignal t.frame.inFlightFence ↔
        ¬Since step (ResetsFence s.frameIndex) (SubmitsFrame s.frameIndex) start before) := by
    intro before s t answers hRun hEnter
    have hKept : Keeps (OnFrames fun frames i submissions =>
        frames = s.frames ∧ i = s.frameIndex ∧ submissions = s.submissions) enterFrame :=
      keeps_enterFrame
    have hSame := hKept { s with answers } ⟨rfl, rfl, rfl⟩
    rw [hEnter] at hSame
    obtain ⟨hFrames, hIndex, hSubmissions⟩ := hSame
    have hFence : t.frame.inFlightFence = s.fence s.frameIndex := by
      show (t.frames t.frameIndex).inFlightFence = _
      rw [hFrames, hIndex]
      rfl
    have hBound := runEvents_invariant fencesSubmitted_step hFirst hRun
    have hHistory := flag_iff_since (fun hStep => fence_step hStep s.frameIndex) hRun
    rw [fence_createDevice hStart, or_iff_left (fun hNo => nomatch hNo.1)] at hHistory
    rw [hFence, ← hHistory]
    cases hNow : s.fence s.frameIndex with
    | signalled => exact iff_of_true trivial nofun
    | unsignalled => exact iff_of_false id fun hNo => hNo rfl
    | submitted submission =>
      refine iff_of_true ?_ nofun
      show submission < t.submissions.length
      rw [hSubmissions]
      exact hBound s.frameIndex submission hNow
  constructor
  · intro hAll before answers after s t hSplit hRun hEnter
    exact (hOne hRun hEnter).mp (hAll before answers after s t hSplit hRun hEnter)
  · intro hAll before answers after s t hSplit hRun hEnter
    exact (hOne hRun hEnter).mpr (hAll before answers after s t hSplit hRun hEnter)

/-- A call that begins a frame finds its fence signalled or submitted. -/
def findsFence (s : VulkanContext) : Call → Bool
  | .beginFrame _ => s.frame.inFlightFence ≠ .unsignalled
  | _ => true

/-- A fence that is not reset has been submitted since its last reset, so the state of the fence
tells what the history of the run asks for. -/
theorem framesSubmitted_of_findsFence {calls : List Call}
    (h : checkAlong step findsFence start calls = true) : FramesSubmitted start calls := by
  intro before answers after s t hSplit hRun _ hSince
  have hFence := checkAlong_iff.mp h before _ after s hSplit hRun
  have hReset := (flag_iff_since (fun hStep => fence_step hStep s.frameIndex) hRun).mpr (.inl hSince)
  exact of_decide_eq_true hFence hReset

/-- A frame of each context, where every Vulkan function succeeds. The GPU completes the first. -/
def twoFrames : List Call :=
  [.beginFrame fun _ => [], .endFrame fun _ => [], .present fun _ => [],
    .beginFrame fun _ => [], .endFrame fun _ => [], .present fun _ => [], .complete]

/-- The third frame waits for the fence that the first has reset and submitted. -/
theorem waitsForSignal_thirdFrame : ∃ start s t,
    createDevice false ⟨640, 480⟩ [.VK_FORMAT_D32_SFLOAT] (fun _ => []) = some start ∧
    runEvents step start twoFrames = some s ∧
    enterFrame { s with answers := fun _ => [] } = .ok () t ∧
    t.frame.inFlightFence = .submitted 0 ∧
    WaitsForSignal start (twoFrames ++ [.beginFrame fun _ => []]) := by
  have hFirst : (createDevice false ⟨640, 480⟩ [.VK_FORMAT_D32_SFLOAT] fun _ => []).any
      fun start => checkAlong step findsFence start (twoFrames ++ [.beginFrame fun _ => []]) &&
        (runEvents step start twoFrames).any fun s =>
          Returns (fun _ t => t.frame.inFlightFence = .submitted 0) enterFrame
            { s with answers := fun _ => [] } := by
    decide +kernel
  obtain ⟨start, hStart, hBoth⟩ := (Option.any_eq_true _ _).mp hFirst
  obtain ⟨hChecked, hSecond⟩ := Bool.and_eq_true_iff.mp hBoth
  obtain ⟨s, hRun, hThird⟩ := (Option.any_eq_true _ _).mp hSecond
  obtain ⟨_, t, hEnter, hFence⟩ := of_decide_eq_true hThird
  exact ⟨start, s, t, hStart, hRun, hEnter, hFence,
    (waitsForSignal_iff hStart _).mpr (framesSubmitted_of_findsFence hChecked)⟩

/-- The command pool of the first frame cannot be reset once its fence has been. -/
def failedReset : Answers
  | .vkResetCommandPool => [{ result := .outOfHostMemory }]
  | _ => []

/-- The frame that follows waits for a fence that nobody signals. -/
theorem not_waitsForSignal_failedReset : ∃ start,
    createDevice false ⟨640, 480⟩ [.VK_FORMAT_D32_SFLOAT] (fun _ => []) = some start ∧
    ¬WaitsForSignal start [.beginFrame failedReset, .beginFrame fun _ => []] := by
  have hFirst : (createDevice false ⟨640, 480⟩ [.VK_FORMAT_D32_SFLOAT] fun _ => []).any
      fun start => (step start (.beginFrame failedReset)).any fun s =>
        match enterFrame { s with answers := fun _ => [] } with
        | .ok () t => t.frame.inFlightFence = .unsignalled
        | .error _ _ => false := by
    decide +kernel
  obtain ⟨start, hStart, hSecond⟩ := (Option.any_eq_true _ _).mp hFirst
  obtain ⟨s, hStep, hThird⟩ := (Option.any_eq_true _ _).mp hSecond
  refine ⟨start, hStart, fun hAll => ?_⟩
  have hRun : runEvents step start [.beginFrame failedReset] = some s :=
    runEvents_cons_eq_some.mpr ⟨s, hStep, rfl⟩
  cases hEnter : enterFrame { s with answers := fun _ => [] } with
  | ok _ t =>
    rw [hEnter] at hThird
    have hSignal := hAll [.beginFrame failedReset] (fun _ => []) [] s t rfl hRun hEnter
    rw [of_decide_eq_true hThird] at hSignal
    exact hSignal
  | error exit t =>
    rw [hEnter] at hThird
    cases hThird

end Run

end Ithax.Vulkan
