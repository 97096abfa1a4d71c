import Ithax.Vulkan.BeginFrame

/-!
# Recording after `BeginFrame`

`BeginFrame` ends by beginning the command buffer of its frame context, unless it returns
before. Where it returns `S_OK` before, the scene goes on to record into a command buffer that
nobody has begun.

## Results

* `returnsEarly_iff`               — where `BeginFrame` returns `S_OK` without a command buffer.
* `recordsAfterBegin_iff`          — the frames that begin their command buffers.
-/

namespace Ithax.Vulkan

open Ithax.Lib

/-- Whenever `BeginFrame` returns `S_OK`, the command buffer is being recorded. -/
def RecordsAfterBegin (start : VulkanContext) (calls : List Call) : Prop :=
  ∀ before answers after s next, calls = before ++ .beginFrame answers :: after →
    runEvents step start before = some s →
    Call.perform (.beginFrame answers) s = some (.S_OK, next) → next.IsRecording

-- ---------------------------------------------------------------------------
-- Where `BeginFrame` returns early
-- ---------------------------------------------------------------------------

/-- A lost surface is replaced, up to the call of `RecreateSwapchain`. -/
def replaceSurface (reason : String) : Vk Unit := do
  modify fun s => { s with surfaceLossReason := reason }
  crReturnHr do
    whenever (← get).windowless (giveUp .E_INVALIDCALL)
    modify fun s => { s with surfaceLossReason := "" }
    waitIdle
    destroySwapchain
    crReturnHr createSurface
    crReturnHr pickPhysicalDevice

/-- `BeginFrame` comes to a `return S_OK` before the command pool is reset. Either `VK_CHECK`
takes `VK_SUBOPTIMAL_KHR` for an error, which `MapVkResult` makes `S_OK`, or an image is not
to be had because the window has been minimized since. -/
inductive ReturnsEarly (s : VulkanContext) : Prop
  | wait {t : VulkanContext} (hEnter : enterFrame s = .ok () t)
      (hAnswer : (t.next .vkWaitForFences).result = .suboptimal)
  | counter {t u : VulkanContext} (hEnter : enterFrame s = .ok () t)
      (hWait : vkWaitForFences t = .ok () u)
      (hAnswer : (u.next .vkGetSemaphoreCounterValue).result = .suboptimal)
  | outOfDate {t u : VulkanContext} {result : VkResult} (hPrepare : prepareFrame s = .ok true t)
      (hAcquire : vkAcquireNextImageKHR t = .ok result u)
      (hResult : result = .outOfDate ∨ result = .suboptimal) (hMinimized : u.Minimized)
  | surfaceLost {t u v : VulkanContext} (hPrepare : prepareFrame s = .ok true t)
      (hAcquire : acquireTwice t = .ok .surfaceLost u)
      (hReplace : replaceSurface "acquire returned VK_ERROR_SURFACE_LOST_KHR" u = .ok () v)
      (hMinimized : v.Minimized)
  | fence {t u : VulkanContext} (hPrepare : prepareFrame s = .ok true t)
      (hAcquire : acquireImage t = .ok () u)
      (hAnswer : (u.next .vkResetFences).result = .suboptimal)
  | pool {t : VulkanContext} {acquired : Bool} (hArm : armFrame s = .ok acquired t)
      (hAnswer : (t.next .vkResetCommandPool).result = .suboptimal)

/-- `BeginFrame` comes to begin the command buffer, or finds it recorded already. -/
structure BeginsRecording (s : VulkanContext) : Prop where
  early : ReturnsEarly s → s.IsRecording
  /-- Not even the last call answers `VK_SUBOPTIMAL_KHR`. -/
  begins : ∀ acquired t u, armFrame s = .ok acquired t → vkResetCommandPool t = .ok () u →
    (u.next .vkBeginCommandBuffer).result ≠ .suboptimal

-- ---------------------------------------------------------------------------
-- The parts of `BeginFrame` that stop early
-- ---------------------------------------------------------------------------

section Parts

variable {s t : VulkanContext}

/-- Nothing before the wait for the fence returns early without an error. -/
theorem quiet_enterFrame : Quiet enterFrame := by
  unfold enterFrame
  refine quiet_get.bind fun start => ?_
  refine (quiet_whenever (quiet_giveUp (by decide))).bind fun _ => ?_
  exact quiet_whenever (quiet_crReturnHr _)

/-- Nor does the acquire. -/
theorem quiet_vkAcquireNextImageKHR : Quiet vkAcquireNextImageKHR := by
  unfold vkAcquireNextImageKHR
  refine quiet_get.bind fun start => (quiet_modify _).bind fun _ => ?_
  refine (quiet_ask _).bind fun answer => ?_
  exact (quiet_whenever (quiet_modify _)).bind fun _ => quiet_pure _

/-- Nor does the recreation of a lost surface. -/
theorem quiet_loseSurface (reason : String) : Quiet (loseSurface reason) :=
  (quiet_modify _).bind fun _ => quiet_crReturnHr _

/-- Nor does the way out of a suspended swapchain. -/
theorem quiet_resumeFrame : Quiet resumeFrame := by
  have hVisible : Quiet (do return !(← get).swapchain.suspended : Vk Bool) :=
    quiet_get.bind fun _ => quiet_pure _
  unfold resumeFrame
  refine (quiet_ask _).bind fun caps => Quiet.ite ?_ (Quiet.ite ?_ (quiet_pure _))
  · exact (quiet_loseSurface _).bind fun _ => hVisible
  · exact (quiet_crReturnHr _).bind fun _ => hVisible

/-- The wait for the fence returns early where its answer is neither an error nor a success. -/
theorem stopsOk_vkWaitForFences_iff :
    StopsOk vkWaitForFences s ↔ (s.next .vkWaitForFences).result = .suboptimal := by
  refine stopsOk_checked_iff (quiet_get.bind fun start => Quiet.ite (quiet_pure ()) ?_)
  exact fun u hStops => nomatch throws_throw_iff.mp hStops

/-- So does the read of the counter. -/
theorem stopsOk_vkGetSemaphoreCounterValue_iff : StopsOk vkGetSemaphoreCounterValue s ↔
    (s.next .vkGetSemaphoreCounterValue).result = .suboptimal :=
  stopsOk_checked_iff (quiet_get.bind fun _ => quiet_pure _)

/-- So does the reset of the fence. -/
theorem stopsOk_vkResetFences_iff :
    StopsOk vkResetFences s ↔ (s.next .vkResetFences).result = .suboptimal :=
  stopsOk_checked_iff (quiet_modify _)

/-- So does the reset of the command pool. -/
theorem stopsOk_vkResetCommandPool_iff :
    StopsOk vkResetCommandPool s ↔ (s.next .vkResetCommandPool).result = .suboptimal :=
  stopsOk_checked_iff (quiet_modify _)

/-- So does the begin of the command buffer. -/
theorem stopsOk_vkBeginCommandBuffer_iff :
    StopsOk vkBeginCommandBuffer s ↔ (s.next .vkBeginCommandBuffer).result = .suboptimal :=
  stopsOk_checked_iff (quiet_modify _)

/-- Before the acquire it is one of the first two. -/
theorem stopsOk_prepareFrame_iff : StopsOk prepareFrame s ↔
    (∃ t, enterFrame s = .ok () t ∧ (t.next .vkWaitForFences).result = .suboptimal) ∨
    ∃ t u, enterFrame s = .ok () t ∧ vkWaitForFences t = .ok () u ∧
      (u.next .vkGetSemaphoreCounterValue).result = .suboptimal := by
  have hRest : ∀ completedValue, Quiet (do
      drainDeferred completedValue
      if (← get).swapchain.suspended then resumeFrame else return true) := by
    intro completedValue
    refine (quiet_modify _).bind fun _ => quiet_get.bind fun start => ?_
    exact Quiet.ite quiet_resumeFrame (quiet_pure _)
  unfold prepareFrame
  rw [StopsOk, throws_bind_iff]
  constructor
  · rintro (hEnter | ⟨_, t, hEnter, hStops⟩)
    · exact absurd hEnter (quiet_enterFrame s)
    rcases throws_bind_iff.mp hStops with hWait | ⟨_, u, hWait, hStops⟩
    · exact .inl ⟨t, hEnter, stopsOk_vkWaitForFences_iff.mp hWait⟩
    rcases throws_bind_iff.mp hStops with hCounter | ⟨completedValue, v, -, hStops⟩
    · exact .inr ⟨t, u, hEnter, hWait, stopsOk_vkGetSemaphoreCounterValue_iff.mp hCounter⟩
    · exact absurd hStops (hRest completedValue v)
  · rintro (⟨t, hEnter, hAnswer⟩ | ⟨t, u, hEnter, hWait, hAnswer⟩)
    · refine .inr ⟨(), t, hEnter, throws_bind_iff.mpr (.inl ?_)⟩
      exact stopsOk_vkWaitForFences_iff.mpr hAnswer
    · refine .inr ⟨(), t, hEnter, throws_bind_iff.mpr (.inr ⟨(), u, hWait, ?_⟩)⟩
      exact throws_bind_iff.mpr (.inl (stopsOk_vkGetSemaphoreCounterValue_iff.mpr hAnswer))

/-- An acquire is not made again when the swapchain has been suspended. -/
theorem stopsOk_acquireAgain_iff {again : Prop} [Decidable again] {recreate : Vk Unit}
    {result : VkResult} (hRecreate : Quiet recreate) :
    StopsOk (acquireAgain again recreate result) s ↔
      again ∧ ∃ t, recreate s = .ok () t ∧ t.swapchain.suspended = true := by
  have hSuspended : ∀ t, StopsOk returnIfSuspended t ↔ t.swapchain.suspended = true := by
    intro t
    rw [returnIfSuspended, StopsOk, throws_bind_of_ok (get_run t), ← StopsOk]
    rw [stopsOk_whenever_iff, stopsOk_giveUp_iff, eq_self, and_true]
  unfold acquireAgain
  by_cases hAgain : again
  · rw [if_pos hAgain, StopsOk, throws_bind_iff]
    constructor
    · rintro (hFirst | ⟨_, t, hDone, hStops⟩)
      · exact absurd hFirst (hRecreate s)
      rcases throws_bind_iff.mp hStops with hReturn | ⟨_, u, -, hStops⟩
      · exact ⟨hAgain, t, hDone, (hSuspended t).mp hReturn⟩
      · exact absurd hStops (quiet_vkAcquireNextImageKHR u)
    · rintro ⟨-, t, hDone, hTrue⟩
      exact .inr ⟨(), t, hDone, throws_bind_iff.mpr (.inl ((hSuspended t).mpr hTrue))⟩
  · rw [if_neg hAgain]
    exact iff_of_false (not_throws_pure result) fun h => hAgain h.1

/-- Once the surface has been replaced, `RecreateSwapchain` decides. -/
theorem loseSurface_eq_ok_iff {reason : String} : loseSurface reason s = .ok () t ↔
    ∃ u, replaceSurface reason s = .ok () u ∧ crReturnHr recreateSwapchain u = .ok () t := by
  have hOk : ∀ {m : Vk Unit} {u v : VulkanContext}, Quiet m →
      (crReturnHr m u = .ok () v ↔ m u = .ok () v) := by
    intro m u v hQuiet
    refine ⟨crReturnHr_eq_ok_of_quiet hQuiet, fun hDone => ?_⟩
    exact crReturnHr_eq_ok_iff.mpr (resultOf_eq_S_OK_iff.mpr (.inl hDone))
  let lost : VulkanContext := { s with surfaceLossReason := reason }
  have hLose : loseSurface reason s = crReturnHr recreateSurface lost := rfl
  have hFirst : replaceSurface reason s = crReturnHr renewSurface lost := rfl
  rw [hLose, hFirst, hOk quiet_recreateSurface, recreateSurface_eq, bind_eq_ok_iff]
  constructor
  · rintro ⟨_, u, hDone, hRest⟩
    exact ⟨u, (hOk quiet_renewSurface).mpr hDone, hRest⟩
  · rintro ⟨u, hDone, hRest⟩
    exact ⟨(), u, (hOk quiet_renewSurface).mp hDone, hRest⟩

/-- An acquire finds that the window has been minimized. -/
theorem stopsOk_acquireImage_iff : StopsOk acquireImage s ↔
    (∃ result t, vkAcquireNextImageKHR s = .ok result t ∧
      (result = .outOfDate ∨ result = .suboptimal) ∧ t.Minimized) ∨
    ∃ t u, acquireTwice s = .ok .surfaceLost t ∧
      replaceSurface "acquire returned VK_ERROR_SURFACE_LOST_KHR" t = .ok () u ∧ u.Minimized := by
  have hTwice : StopsOk acquireTwice s ↔ ∃ result t, vkAcquireNextImageKHR s = .ok result t ∧
      (result = .outOfDate ∨ result = .suboptimal) ∧ t.Minimized := by
    unfold acquireTwice
    rw [StopsOk, throws_bind_iff]
    constructor
    · rintro (hFirst | ⟨result, t, hAcquire, hStops⟩)
      · exact absurd hFirst (quiet_vkAcquireNextImageKHR s)
      · obtain ⟨hResult, hSuspends⟩ := (stopsOk_acquireAgain_iff (quiet_crReturnHr _)).mp hStops
        exact ⟨result, t, hAcquire, hResult, recreateSwapchain_suspends_iff.mp hSuspends⟩
    · rintro ⟨result, t, hAcquire, hResult, hMinimized⟩
      refine .inr ⟨result, t, hAcquire, (stopsOk_acquireAgain_iff (quiet_crReturnHr _)).mpr ?_⟩
      exact ⟨hResult, recreateSwapchain_suspends_iff.mpr hMinimized⟩
  have hLost : ∀ {result : VkResult} {t : VulkanContext}, StopsOk (acquireAgain (result = .surfaceLost)
      (loseSurface "acquire returned VK_ERROR_SURFACE_LOST_KHR") result) t ↔
      result = .surfaceLost ∧ ∃ u,
        replaceSurface "acquire returned VK_ERROR_SURFACE_LOST_KHR" t = .ok () u ∧ u.Minimized := by
    intro result t
    rw [stopsOk_acquireAgain_iff (quiet_loseSurface _)]
    refine and_congr_right fun _ => ?_
    constructor
    · rintro ⟨v, hLose, hSuspended⟩
      obtain ⟨u, hReplace, hRecreate⟩ := loseSurface_eq_ok_iff.mp hLose
      exact ⟨u, hReplace, recreateSwapchain_suspends_iff.mp ⟨v, hRecreate, hSuspended⟩⟩
    · rintro ⟨u, hReplace, hMinimized⟩
      obtain ⟨v, hRecreate, hSuspended⟩ := recreateSwapchain_suspends_iff.mpr hMinimized
      exact ⟨v, loseSurface_eq_ok_iff.mpr ⟨u, hReplace, hRecreate⟩, hSuspended⟩
  have hRest : ∀ result : VkResult, Quiet (do
      whenever (result = .deviceLost) loseDevice
      whenever (result ≠ .success) (giveUp .E_FAIL)) := by
    intro result
    refine (quiet_whenever ((quiet_modify _).bind fun _ => quiet_giveUp (by decide))).bind fun _ => ?_
    exact quiet_whenever (quiet_giveUp (by decide))
  unfold acquireImage
  rw [StopsOk, throws_bind_iff]
  constructor
  · rintro (hFirst | ⟨result, t, hAcquire, hStops⟩)
    · exact .inl (hTwice.mp hFirst)
    rcases throws_bind_iff.mp hStops with hAgain | ⟨last, u, -, hStops⟩
    · obtain ⟨rfl, u, hReplace, hMinimized⟩ := hLost.mp hAgain
      exact .inr ⟨t, u, hAcquire, hReplace, hMinimized⟩
    · exact absurd hStops (hRest last u)
  · rintro (hFirst | ⟨t, u, hAcquire, hReplace, hMinimized⟩)
    · exact .inl (hTwice.mpr hFirst)
    · refine .inr ⟨.surfaceLost, t, hAcquire, throws_bind_iff.mpr (.inl ?_)⟩
      exact hLost.mpr ⟨rfl, u, hReplace, hMinimized⟩

/-- `BeginFrame` before it begins the command buffer. -/
def resetFrame : Vk Unit := do
  let _ ← armFrame
  vkResetCommandPool

/-- The last call of `BeginFrame` begins the command buffer. -/
theorem beginFrame_eq_resetFrame : beginFrame = (do resetFrame; vkBeginCommandBuffer) := by
  rw [beginFrame_eq]
  simp only [resetFrame, beginRecording, bind_assoc]

/-- These are all the places where `BeginFrame` returns `S_OK` before. -/
theorem returnsEarly_iff : ReturnsEarly s ↔ StopsOk resetFrame s := by
  have hArm : ∀ {t : VulkanContext}, StopsOk (do
      acquireImage
      vkResetFences
      return true : Vk Bool) t ↔ StopsOk acquireImage t ∨
      ∃ u, acquireImage t = .ok () u ∧ (u.next .vkResetFences).result = .suboptimal := by
    intro t
    rw [StopsOk, throws_bind_iff]
    refine or_congr_right ⟨?_, ?_⟩
    · rintro ⟨_, u, hAcquire, hStops⟩
      rcases throws_bind_iff.mp hStops with hReset | ⟨_, v, -, hStops⟩
      · exact ⟨u, hAcquire, stopsOk_vkResetFences_iff.mp hReset⟩
      · exact absurd hStops (not_throws_pure true)
    · rintro ⟨u, hAcquire, hAnswer⟩
      exact ⟨(), u, hAcquire, throws_bind_iff.mpr (.inl (stopsOk_vkResetFences_iff.mpr hAnswer))⟩
  have hStop : StopsOk resetFrame s ↔ StopsOk prepareFrame s ∨
      (∃ t, prepareFrame s = .ok true t ∧ (StopsOk acquireImage t ∨
        ∃ u, acquireImage t = .ok () u ∧ (u.next .vkResetFences).result = .suboptimal)) ∨
      ∃ acquired t, armFrame s = .ok acquired t ∧
        (t.next .vkResetCommandPool).result = .suboptimal := by
    rw [StopsOk, resetFrame, throws_bind_iff, ← or_assoc]
    refine or_congr ?_ ?_
    · rw [armFrame, throws_bind_iff]
      refine or_congr_right ⟨?_, ?_⟩
      · rintro ⟨acquires, t, hPrepare, hStops⟩
        cases acquires with
        | true => exact ⟨t, hPrepare, hArm.mp hStops⟩
        | false => exact absurd hStops (not_throws_pure false)
      · rintro ⟨t, hPrepare, hStops⟩
        exact ⟨true, t, hPrepare, hArm.mpr hStops⟩
    · refine exists_congr fun acquired => exists_congr fun t => and_congr_right fun _ => ?_
      exact stopsOk_vkResetCommandPool_iff
  rw [hStop, stopsOk_prepareFrame_iff]
  constructor
  · intro hEarly
    cases hEarly with
    | wait hEnter hAnswer => exact .inl (.inl ⟨_, hEnter, hAnswer⟩)
    | counter hEnter hWait hAnswer => exact .inl (.inr ⟨_, _, hEnter, hWait, hAnswer⟩)
    | outOfDate hPrepare hAcquire hResult hMinimized =>
      refine .inr (.inl ⟨_, hPrepare, .inl (stopsOk_acquireImage_iff.mpr (.inl ?_))⟩)
      exact ⟨_, _, hAcquire, hResult, hMinimized⟩
    | surfaceLost hPrepare hAcquire hReplace hMinimized =>
      refine .inr (.inl ⟨_, hPrepare, .inl (stopsOk_acquireImage_iff.mpr (.inr ?_))⟩)
      exact ⟨_, _, hAcquire, hReplace, hMinimized⟩
    | fence hPrepare hAcquire hAnswer =>
      exact .inr (.inl ⟨_, hPrepare, .inr ⟨_, hAcquire, hAnswer⟩⟩)
    | pool hArmed hAnswer => exact .inr (.inr ⟨_, _, hArmed, hAnswer⟩)
  · rintro ((⟨t, hEnter, hAnswer⟩ | ⟨t, u, hEnter, hWait, hAnswer⟩) | ⟨t, hPrepare, hStops⟩ |
      ⟨acquired, t, hArmed, hAnswer⟩)
    · exact .wait hEnter hAnswer
    · exact .counter hEnter hWait hAnswer
    · rcases hStops with hStops | ⟨u, hAcquire, hAnswer⟩
      · rcases stopsOk_acquireImage_iff.mp hStops with
          ⟨result, u, hAcquire, hResult, hMinimized⟩ | ⟨u, v, hAcquire, hReplace, hMinimized⟩
        · exact .outOfDate hPrepare hAcquire hResult hMinimized
        · exact .surfaceLost hPrepare hAcquire hReplace hMinimized
      · exact .fence hPrepare hAcquire hAnswer
    · exact .pool hArmed hAnswer

end Parts

-- ---------------------------------------------------------------------------
-- The command buffer
-- ---------------------------------------------------------------------------

/-- The command buffer of the current context. -/
abbrev OnBuffer (buffer : CommandBuffer) : VulkanContext → Prop :=
  OnFrames fun frames i _ => (frames i).commandBuffer = buffer

/-- Until the pool is reset the command buffer is what it was. -/
theorem hoare_resetFrame (buffer : CommandBuffer) :
    Hoare (OnBuffer buffer) resetFrame (fun _ => OnBuffer .initial) (OnBuffer buffer) := by
  have hSet : ∀ {s : VulkanContext} {frame : VulkanFrameContext},
      frame.commandBuffer = buffer → OnBuffer buffer (s.setFrame frame) := by
    intro s frame hFrame
    show (Function.update s.frames s.frameIndex frame s.frameIndex).commandBuffer = buffer
    rw [Function.update_self]
    exact hFrame
  have hArm : Keeps (OnBuffer buffer) armFrame := by
    refine Keeps.seq keeps_prepareFrame fun acquires => Hoare.ite (fun _ => ?_) fun _ => keeps_pure _
    refine Keeps.seq (keeps_acquireImage fun frames i _ h => ?_) fun _ => ?_
    · rw [Function.update_self]
      exact h
    exact Keeps.seq (hoare_checked (by decide) fun s h => hSet h) fun _ => keeps_pure _
  refine Hoare.bind hArm fun _ => hoare_checked (by decide) fun s h => ?_
  show (Function.update s.frames s.frameIndex _ s.frameIndex).commandBuffer = .initial
  rw [Function.update_self]

/-- The command buffer is being recorded once it has begun. -/
theorem vkBeginCommandBuffer_ok {s t : VulkanContext} (h : vkBeginCommandBuffer s = .ok () t) :
    t.IsRecording := by
  obtain ⟨answer, u, hAsk, hRest⟩ := bind_eq_ok_iff.mp h
  obtain ⟨_, v, -, hDone⟩ := bind_eq_ok_iff.mp hRest
  cases hDone
  refine ⟨v.recordings, ?_⟩
  show (Function.update v.frames v.frameIndex _ v.frameIndex).commandBuffer = _
  rw [Function.update_self]

/-- The frames that begin their command buffers, one by one. -/
theorem beginFrame_records_iff {s : VulkanContext} :
    (∀ t, resultOf beginFrame s = .ok .S_OK t → t.IsRecording) ↔ BeginsRecording s := by
  have hFrame : ∀ {t : VulkanContext}, resetFrame s = .error (.returned .S_OK) t →
      (t.IsRecording ↔ s.IsRecording) := by
    intro t hStop
    have hKept := hoare_resetFrame s.frame.commandBuffer s rfl
    rw [hStop] at hKept
    unfold VulkanContext.IsRecording
    rw [show t.frame.commandBuffer = s.frame.commandBuffer from hKept]
  rw [beginFrame_eq_resetFrame]
  constructor
  · intro hAll
    refine ⟨fun hEarly => ?_, fun acquired t u hArm hPool hAnswer => ?_⟩
    · obtain ⟨exit, t, hStop, rfl⟩ := returnsEarly_iff.mp hEarly
      exact (hFrame hStop).mp (hAll t (resultOf_eq_S_OK_iff.mpr (.inr (bind_of_error hStop))))
    · have hReset : resetFrame s = .ok () u := by
        rw [resetFrame, bind_of_ok hArm]
        exact hPool
      obtain ⟨exit, v, hStop, rfl⟩ := stopsOk_vkBeginCommandBuffer_iff.mpr hAnswer
      obtain ⟨recording, hRecording⟩ := hAll v (resultOf_eq_S_OK_iff.mpr (.inr (by
        rw [bind_of_ok hReset]
        exact hStop)))
      -- the pool has just been reset
      have hInitial := hoare_resetFrame s.frame.commandBuffer s rfl
      rw [hReset] at hInitial
      have hKept : Hoare (OnBuffer .initial) vkBeginCommandBuffer (fun _ _ => True)
          (OnBuffer .initial) :=
        hoare_checked (by decide) fun _ _ => trivial
      have hLast := hKept u hInitial
      rw [hStop] at hLast
      have hBoth := hLast.symm.trans hRecording
      cases hBoth
  · intro hBegins t hRun
    rcases resultOf_eq_S_OK_iff.mp hRun with hDone | hStop
    · obtain ⟨_, u, -, hBegin⟩ := bind_eq_ok_iff.mp hDone
      exact vkBeginCommandBuffer_ok hBegin
    · cases hReset : resetFrame s with
      | ok _ u =>
        rw [bind_of_ok hReset] at hStop
        obtain ⟨acquired, v, hArm, hPool⟩ := bind_eq_ok_iff.mp hReset
        refine absurd (stopsOk_vkBeginCommandBuffer_iff.mp ⟨_, t, hStop, rfl⟩) ?_
        exact hBegins.begins acquired v u hArm hPool
      | error exit u =>
        rw [bind_of_error hReset] at hStop
        cases hStop
        exact (hFrame hReset).mpr (hBegins.early (returnsEarly_iff.mpr ⟨_, t, hReset, rfl⟩))

-- ---------------------------------------------------------------------------
-- Runs
-- ---------------------------------------------------------------------------

/-- In every run, the command buffers are recorded after `BeginFrame` exactly when every frame
of the run begins its own. -/
theorem recordsAfterBegin_iff (start : VulkanContext) (calls : List Call) :
    RecordsAfterBegin start calls ↔
      ∀ before answers after s, calls = before ++ .beginFrame answers :: after →
        runEvents step start before = some s → BeginsRecording { s with answers } := by
  have hOne : ∀ {s : VulkanContext} {answers : Answers},
      (∀ next, Call.perform (.beginFrame answers) s = some (.S_OK, next) → next.IsRecording) ↔
        BeginsRecording { s with answers } := by
    intro s answers
    rw [← beginFrame_records_iff]
    exact forall_congr' fun next => imp_congr_left invoke_eq_some_iff
  constructor
  · intro hAll before answers after s hSplit hRun
    exact hOne.mp fun next hPerform => hAll before answers after s next hSplit hRun hPerform
  · intro hAll before answers after s next hSplit hRun hPerform
    exact hOne.mpr (hAll before answers after s hSplit hRun) next hPerform

/-- The window is minimized after it has been resized, and before the next frame begins. -/
def minimizedAnswers : Answers
  | .vkAcquireNextImageKHR => [{ result := .outOfDate }]
  | .vkGetPhysicalDeviceSurfaceCapabilitiesKHR => [{ currentExtent := ⟨0, 0⟩ }]
  | _ => []

/-- The first frame of a new device is not recorded, although `BeginFrame` returns `S_OK`. -/
theorem not_recordsAfterBegin_minimized : ∃ start,
    createDevice false ⟨640, 480⟩ [.VK_FORMAT_D32_SFLOAT] (fun _ => []) = some start ∧
    ¬RecordsAfterBegin start [.beginFrame minimizedAnswers] := by
  have hFirst : (createDevice false ⟨640, 480⟩ [.VK_FORMAT_D32_SFLOAT] fun _ => []).any
      fun start => (Call.perform (.beginFrame minimizedAnswers) start).any
        fun after => after.1 = .S_OK ∧ after.2.frame.commandBuffer = .initial := by
    decide +kernel
  obtain ⟨start, hStart, hSecond⟩ := (Option.any_eq_true _ _).mp hFirst
  obtain ⟨⟨result, next⟩, hPerform, hBoth⟩ := (Option.any_eq_true _ _).mp hSecond
  obtain ⟨rfl, hInitial⟩ := of_decide_eq_true hBoth
  refine ⟨start, hStart, fun hAll => ?_⟩
  obtain ⟨recording, hRecording⟩ := hAll [] minimizedAnswers [] start next rfl rfl hPerform
  have hBoth := hInitial.symm.trans hRecording
  cases hBoth

end Ithax.Vulkan
