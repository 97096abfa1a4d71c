import Ithax.Vulkan.Spared

/-!
# Making and suspending the swapchain

`CreateSwapchainInternal` in parts: the capabilities of the surface, and, unless the window is
minimized, a new swapchain and what belongs to it. A function that returns early with `S_OK`
counts as a success for its caller.

## Results

* `createSwapchainInternal_eq`     — `CreateSwapchainInternal` is put together from the parts.
* `recreateSwapchain_suspends_iff` — when a recreated swapchain is suspended.
-/

namespace Ithax.Vulkan

open Ithax.Lib

/-- The answer that a function gives when it is called next. -/
def VulkanContext.next (s : VulkanContext) (function : VkFunction) : Answer :=
  (s.answers function).head?.getD {}

-- ---------------------------------------------------------------------------
-- Early returns
-- ---------------------------------------------------------------------------

/-- A function comes to a `return S_OK` in its middle. -/
abbrev StopsOk {α : Type} (m : Vk α) (s : VulkanContext) : Prop :=
  Throws (fun exit => exit = .returned .S_OK) m s

section Stops

variable {α β : Type} {m : Vk Unit} {s t : VulkanContext} {result : VkResult}

/-- `return S_OK`. -/
theorem stopsOk_giveUp_iff {result : ALResult} :
    StopsOk (giveUp result : Vk α) s ↔ result = .S_OK := by
  rw [giveUp, StopsOk, throws_throw_iff, Exit.returned.injEq]

/-- A step that may be left out. -/
theorem stopsOk_whenever_iff {c : Prop} [Decidable c] :
    StopsOk (whenever c m) s ↔ c ∧ StopsOk m s := by
  unfold whenever
  by_cases hc : c
  · rw [if_pos hc]
    exact ⟨fun h => ⟨hc, h⟩, fun h => h.2⟩
  · rw [if_neg hc]
    exact iff_of_false (not_throws_pure ()) fun h => hc h.1

/-- The results that count as a success. -/
theorem mapVkResult_eq_S_OK_iff : mapVkResult result = .S_OK ↔
    result = .success ∨ result = .suboptimal := by
  cases result <;> simp [mapVkResult]

/-- `VK_CHECK` returns in the middle at `VK_SUBOPTIMAL_KHR`, and with `S_OK`. -/
theorem stopsOk_vkCheck_iff : StopsOk (vkCheck result) s ↔ result = .suboptimal := by
  rw [vkCheck, stopsOk_whenever_iff, stopsOk_giveUp_iff, mapVkResult_eq_S_OK_iff]
  constructor
  · rintro ⟨hNot, hOk | hSuboptimal⟩
    · exact absurd hOk hNot
    · exact hSuboptimal
  · rintro rfl
    exact ⟨nofun, .inr rfl⟩

/-- An answer is taken. -/
theorem ask_run (function : VkFunction) (s : VulkanContext) : ask function s =
    .ok (s.next function)
      { s with answers := Function.update s.answers function (s.answers function).tail } := rfl

/-- A caller sees a success when the function gets to its end or returns `S_OK` before. -/
theorem resultOf_eq_S_OK_iff : resultOf m s = .ok .S_OK t ↔
    m s = .ok () t ∨ m s = .error (.returned .S_OK) t := by
  unfold resultOf
  rcases hm : m s with ⟨u, t'⟩ | ⟨exit, t'⟩
  · simp
  · cases exit <;> simp

/-- The state that a call leaves is the one in which the function ends. -/
theorem finalState_of_resultOf {result : ALResult} (h : resultOf m s = .ok result t) :
    finalState (m s) = t := by
  unfold resultOf at h
  rcases hm : m s with ⟨u, t'⟩ | ⟨exit, t'⟩
  · rw [hm] at h
    cases h
    rfl
  · rw [hm] at h
    cases exit <;> cases h
    rfl

/-- `CR_RETURN_HR` goes on after `S_OK` only. -/
theorem crReturnHr_eq_ok_iff : crReturnHr m s = .ok () t ↔ resultOf m s = .ok .S_OK t := by
  unfold crReturnHr
  rw [bind_eq_ok_iff]
  constructor
  · rintro ⟨result, u, hResult, hRest⟩
    by_cases hFailed : result.failed = true
    · rw [whenever, if_pos hFailed] at hRest
      cases hRest
    · rw [whenever, if_neg hFailed] at hRest
      cases hRest
      obtain rfl : result = .S_OK := by
        by_contra hNot
        exact hFailed (decide_eq_true hNot)
      exact hResult
  · exact fun h => ⟨.S_OK, t, h, rfl⟩

/-- What a function returns is a result and not an exit. -/
theorem not_returned_resultOf {result : ALResult} :
    resultOf m s ≠ .error (.returned result) t := by
  intro hError
  unfold resultOf at hError
  rcases hm : m s with ⟨u, t'⟩ | ⟨exit, t'⟩
  · rw [hm] at hError
    cases hError
  · rw [hm] at hError
    cases exit <;> cases hError

/-- A function that returns an error or gets to its end. -/
def Quiet (m : Vk α) : Prop := ∀ s, ¬StopsOk m s

/-- A result. -/
theorem quiet_pure (a : α) : Quiet (pure a : Vk α) := neverThrows_pure a

/-- The state is looked at. -/
theorem quiet_get : Quiet (get : Vk VulkanContext) := neverThrows_get

/-- An answer is taken. -/
theorem quiet_ask (function : VkFunction) : Quiet (ask function) :=
  fun s => not_throws_of_ok (ask_run function s)

/-- The state is changed. -/
theorem quiet_modify (f : VulkanContext → VulkanContext) : Quiet (modify f : Vk Unit) :=
  neverThrows_modify f

/-- A failure is returned. -/
theorem quiet_giveUp {result : ALResult} (h : result ≠ .S_OK) : Quiet (giveUp result : Vk α) :=
  fun _ hStops => h (stopsOk_giveUp_iff.mp hStops)

/-- One program after another. -/
theorem Quiet.bind {m : Vk α} {f : α → Vk β} (hm : Quiet m) (hf : ∀ a, Quiet (f a)) :
    Quiet (m >>= f) :=
  NeverThrows.bind hm hf

/-- Each branch. -/
theorem Quiet.ite {c : Prop} [Decidable c] {m m' : Vk α} (h : Quiet m) (h' : Quiet m') :
    Quiet (if c then m else m') :=
  NeverThrows.ite h h'

/-- A step that may be left out. -/
theorem quiet_whenever {c : Prop} [Decidable c] (h : Quiet m) : Quiet (whenever c m) :=
  h.ite (quiet_pure ())

/-- `if (FAILED(result)) return result;` -/
theorem quiet_giveUp_failed (result : ALResult) : Quiet (whenever result.failed (giveUp result)) := by
  intro s hStops
  obtain ⟨hFailed, hReturned⟩ := stopsOk_whenever_iff.mp hStops
  obtain rfl := stopsOk_giveUp_iff.mp hReturned
  cases hFailed

/-- `CR_RETURN_HR` never returns `S_OK`. -/
theorem quiet_crReturnHr (m : Vk Unit) : Quiet (crReturnHr m) := by
  refine Quiet.bind (fun s => ?_) quiet_giveUp_failed
  rintro ⟨exit, t, hError, rfl⟩
  exact not_returned_resultOf hError

/-- A function that does not stop early has succeeded when its caller goes on. -/
theorem crReturnHr_eq_ok_of_quiet (hQuiet : Quiet m) (h : crReturnHr m s = .ok () t) :
    m s = .ok () t := by
  rcases resultOf_eq_S_OK_iff.mp (crReturnHr_eq_ok_iff.mp h) with hDone | hEarly
  · exact hDone
  · exact absurd ⟨_, t, hEarly, rfl⟩ (hQuiet s)

/-- What the caller gets of a function that ends early, but not with `S_OK`. -/
theorem resultOf_of_error {exit : Exit} (hExit : exit ≠ .returned .S_OK) (h : m s = .error exit t) :
    (∃ result : ALResult, result.failed = true ∧ resultOf m s = .ok result t) ∨
      ∃ exit, resultOf m s = .error exit t := by
  unfold resultOf
  rw [h]
  cases exit with
  | returned result =>
    refine .inl ⟨result, decide_eq_true fun hOk => hExit ?_, rfl⟩
    rw [hOk]
  | blocked => exact .inr ⟨_, rfl⟩
  | undefined => exact .inr ⟨_, rfl⟩

/-- What a call ensures, where it cannot stop in its middle. -/
theorem hoare_crReturnHr_of_quiet {P Q E : VulkanContext → Prop} (hQuiet : Quiet m)
    (h : Hoare P m (fun _ => Q) E) : Hoare P (crReturnHr m) (fun _ => Q) E := by
  intro s hs
  have hRun := h s hs
  cases hm : m s with
  | ok _ u =>
    rw [hm] at hRun
    rw [crReturnHr_eq_ok_iff.mpr (resultOf_eq_S_OK_iff.mpr (.inl hm))]
    exact hRun
  | error exit u =>
    rw [hm] at hRun
    have hSame : Hoare (fun t => t = s) m (fun _ t => t = u) (fun t => t = u) := by
      rintro t rfl
      rw [hm]
    have hEnd := hoare_crReturnHr hSame s rfl
    cases hReturn : crReturnHr m s with
    | ok _ t =>
      have hOk := crReturnHr_eq_ok_of_quiet hQuiet hReturn
      rw [hm] at hOk
      cases hOk
    | error exit' t =>
      rw [hReturn] at hEnd
      rw [hEnd]
      exact hRun

/-- A function whose result goes through `VK_CHECK` first. -/
theorem stopsOk_checked_iff {function : VkFunction} {rest : Vk α} (hRest : Quiet rest) :
    StopsOk (do vkCheck (← ask function).result; rest) s ↔
      (s.next function).result = .suboptimal := by
  rw [StopsOk, throws_bind_of_ok (ask_run function s), throws_bind_iff]
  constructor
  · rintro (hCheck | ⟨-, t, -, hNo⟩)
    · exact stopsOk_vkCheck_iff.mp hCheck
    · exact absurd hNo (hRest t)
  · exact fun hAnswer => .inl (stopsOk_vkCheck_iff.mpr hAnswer)

end Stops

-- ---------------------------------------------------------------------------
-- What the window is like
-- ---------------------------------------------------------------------------

/-- All that a program does is to ask Vulkan. -/
def OnlyAsks {α : Type} (m : Vk α) : Prop :=
  ∀ answers, ∃ a rest, ∀ s : VulkanContext, s.answers = answers → m s = .ok a { s with answers := rest }

section OnlyAsks

variable {α β : Type}

/-- A result. -/
theorem onlyAsks_pure (a : α) : OnlyAsks (pure a : Vk α) := by
  intro answers
  refine ⟨a, answers, fun s hs => ?_⟩
  subst hs
  rfl

/-- An answer is taken. -/
theorem onlyAsks_ask (function : VkFunction) : OnlyAsks (ask function) := by
  intro answers
  refine ⟨(answers function).head?.getD {},
    Function.update answers function (answers function).tail, fun s hs => ?_⟩
  subst hs
  rfl

/-- One program after another. -/
theorem OnlyAsks.bind {m : Vk α} {f : α → Vk β} (hm : OnlyAsks m) (hf : ∀ a, OnlyAsks (f a)) :
    OnlyAsks (m >>= f) := by
  intro answers
  obtain ⟨a, rest, hFirst⟩ := hm answers
  obtain ⟨b, last, hSecond⟩ := hf a rest
  refine ⟨b, last, fun s hs => ?_⟩
  rw [bind_of_ok (hFirst s hs)]
  exact hSecond _ rfl

/-- Each branch. -/
theorem OnlyAsks.ite {c : Prop} [Decidable c] {m m' : Vk α} (h : OnlyAsks m) (h' : OnlyAsks m') :
    OnlyAsks (if c then m else m') := by
  by_cases hc : c
  · rw [if_pos hc]
    exact h
  · rw [if_neg hc]
    exact h'

/-- The surface is asked for its capabilities. -/
theorem onlyAsks_querySurfaceCapabilities : OnlyAsks querySurfaceCapabilities := by
  unfold querySurfaceCapabilities
  refine (onlyAsks_ask _).bind fun caps => (onlyAsks_pure _).ite ?_
  refine (onlyAsks_ask _).bind fun counted => (onlyAsks_pure _).ite ?_
  refine (onlyAsks_ask _).bind fun formats => (onlyAsks_pure _).ite ?_
  refine (onlyAsks_ask _).bind fun modeCount => (onlyAsks_pure _).ite ?_
  exact (onlyAsks_ask _).bind fun modes => onlyAsks_pure _

end OnlyAsks

/-- The surface has capabilities, and they leave the swapchain an extent of zero. -/
def VulkanContext.Minimized (s : VulkanContext) : Prop :=
  ∃ result caps formats t, querySurfaceCapabilities s = .ok (result, caps, formats) t ∧
    result.failed = false ∧
    ((selectExtent s.mode caps).width = 0 ∨ (selectExtent s.mode caps).height = 0)

/-- What the query of `s` gives, also in another state with its answers and its mode. -/
theorem query_run (s : VulkanContext) : ∃ result caps formats rest,
    querySurfaceCapabilities s = .ok (result, caps, formats) { s with answers := rest } ∧
    ∀ t : VulkanContext, t.answers = s.answers → t.mode = s.mode →
      (t.Minimized ↔ result.failed = false ∧
        ((selectExtent s.mode caps).width = 0 ∨ (selectExtent s.mode caps).height = 0)) := by
  obtain ⟨⟨result, caps, formats⟩, rest, hQuery⟩ := onlyAsks_querySurfaceCapabilities s.answers
  refine ⟨result, caps, formats, rest, hQuery s rfl, fun t hAnswers hMode => ?_⟩
  unfold VulkanContext.Minimized
  rw [hQuery t hAnswers, hMode]
  constructor
  · rintro ⟨result', caps', formats', t', hEq, hExtent⟩
    cases hEq
    exact hExtent
  · exact fun hExtent => ⟨result, caps, formats, _, rfl, hExtent⟩

/-- Only the mode and the answers to come matter for the extent. -/
theorem minimized_congr {s t : VulkanContext} (hAnswers : t.answers = s.answers)
    (hMode : t.mode = s.mode) : t.Minimized ↔ s.Minimized := by
  obtain ⟨result, caps, formats, rest, -, hOne⟩ := query_run s
  rw [hOne t hAnswers hMode, hOne s rfl rfl]

-- ---------------------------------------------------------------------------
-- Making a swapchain
-- ---------------------------------------------------------------------------

/-- What belongs to a swapchain that has been created. -/
def fillSwapchain : Vk Unit := do
  log (.getSwapchainImages (← get).swapchain.swapchain)
  let counted ← ask .vkGetSwapchainImagesKHR
  vkCheck counted.result
  modifySwapchain fun swapchain => { swapchain with imageCount := counted.count }
  log (.getSwapchainImages (← get).swapchain.swapchain)
  let images ← ask .vkGetSwapchainImagesKHR
  vkCheck images.result
  modifySwapchain fun swapchain => { swapchain with
    imageCount := images.count, imageViews := List.replicate images.count VK_NULL_HANDLE }
  createImageViews 0 images.count
  crReturnHr createDepthResources

/-- A new swapchain takes the place of the one before. -/
def makeSwapchain (surfaceFormat : VkSurfaceFormat) (extent : VkExtent2D)
    (oldSwapchain : Handle) : Vk Unit := do
  modifySwapchain fun swapchain => { swapchain with suspended := false }
  log (.replaceSwapchain oldSwapchain)
  whenever ((← ask .vkCreateSwapchainKHR).result ≠ .success) (giveUp .E_FAIL)
  let handle ← newHandle
  log (.createSwapchain handle)
  modifySwapchain fun swapchain => { swapchain with
    swapchain := handle, format := surfaceFormat.format, colorSpace := surfaceFormat.colorSpace
    extent, currentImageIndex := 0 }
  fillSwapchain

/-- `CreateSwapchainInternal` up to `vkCreateSwapchainKHR`: whether it has created a swapchain. -/
def openSwapchain (oldSwapchain : Handle) : Vk Bool := do
  let (result, caps, formats) ← querySurfaceCapabilities
  whenever result.failed (giveUp result)
  let surfaceFormat := selectSurfaceFormat formats
  modify fun s => { s with surfaceFormat }
  let extent := selectExtent (← get).mode caps
  if extent.width = 0 ∨ extent.height = 0 then
    suspend extent oldSwapchain
    return false
  else
    modifySwapchain fun swapchain => { swapchain with suspended := false }
    log (.replaceSwapchain oldSwapchain)
    whenever ((← ask .vkCreateSwapchainKHR).result ≠ .success) (giveUp .E_FAIL)
    let handle ← newHandle
    log (.createSwapchain handle)
    modifySwapchain fun swapchain => { swapchain with
      swapchain := handle, format := surfaceFormat.format, colorSpace := surfaceFormat.colorSpace
      extent, currentImageIndex := 0 }
    return true

/-- Making a swapchain, up to where its images are asked for, returns errors only. -/
theorem quiet_openSwapchain (oldSwapchain : Handle) : Quiet (openSwapchain oldSwapchain) := by
  have hQuery : Quiet querySurfaceCapabilities := by
    refine neverThrows_of_ok fun s => ?_
    obtain ⟨answer, rest, hRun⟩ := onlyAsks_querySurfaceCapabilities s.answers
    exact ⟨answer, _, hRun s rfl⟩
  unfold openSwapchain suspend
  refine hQuery.bind fun answer => (quiet_giveUp_failed _).bind fun _ => ?_
  refine (quiet_modify _).bind fun _ => quiet_get.bind fun start => Quiet.ite ?_ ?_
  · refine Quiet.bind ?_ fun _ => quiet_pure _
    refine (quiet_modify _).bind fun _ => ?_
    exact (quiet_whenever (quiet_modify _)).bind fun _ => quiet_modify _
  · refine (quiet_modify _).bind fun _ => (quiet_modify _).bind fun _ => ?_
    refine (quiet_ask _).bind fun answer => (quiet_whenever (quiet_giveUp (by decide))).bind fun _ => ?_
    refine Quiet.bind (neverThrows_of_ok fun s => ⟨_, _, rfl⟩) fun handle => ?_
    refine (quiet_modify _).bind fun _ => (quiet_modify _).bind fun _ => quiet_pure _

/-- The two parts of `CreateSwapchainInternal`. -/
theorem createSwapchainInternal_eq_open (oldSwapchain : Handle) :
    createSwapchainInternal oldSwapchain = (do
      if ← openSwapchain oldSwapchain then fillSwapchain) := by
  have hEq : createSwapchainInternal oldSwapchain = (do
      let (result, caps, formats) ← querySurfaceCapabilities
      whenever result.failed (giveUp result)
      modify fun s => { s with surfaceFormat := selectSurfaceFormat formats }
      let extent := selectExtent (← get).mode caps
      if extent.width = 0 ∨ extent.height = 0 then suspend extent oldSwapchain
      else makeSwapchain (selectSurfaceFormat formats) extent oldSwapchain) := rfl
  rw [hEq]
  unfold openSwapchain
  simp only [bind_assoc]
  congr 1
  funext answer
  congr 1
  funext _
  congr 1
  funext _
  congr 1
  funext s
  split_ifs with hZero
  · simp
  · simp [makeSwapchain, bind_assoc]

/-- The first part, with the suspension. -/
theorem createSwapchainInternal_eq (oldSwapchain : Handle) :
    createSwapchainInternal oldSwapchain = (do
      let (result, caps, formats) ← querySurfaceCapabilities
      whenever result.failed (giveUp result)
      modify fun s => { s with surfaceFormat := selectSurfaceFormat formats }
      let extent := selectExtent (← get).mode caps
      if extent.width = 0 ∨ extent.height = 0 then suspend extent oldSwapchain
      else makeSwapchain (selectSurfaceFormat formats) extent oldSwapchain) := rfl

/-- `CreateSwapchainInternal` has ended, one way or the other, with its query, and the window
suspends the swapchain or a new one is made. -/
theorem createSwapchainInternal_run (oldSwapchain : Handle) (s : VulkanContext) :
    ∃ result caps formats rest,
      (∀ t : VulkanContext, t.answers = s.answers → t.mode = s.mode →
        (t.Minimized ↔ result.failed = false ∧
          ((selectExtent s.mode caps).width = 0 ∨ (selectExtent s.mode caps).height = 0))) ∧
      createSwapchainInternal oldSwapchain s =
        if result.failed then .error (.returned result) { s with answers := rest }
        else (if (selectExtent s.mode caps).width = 0 ∨ (selectExtent s.mode caps).height = 0
          then suspend (selectExtent s.mode caps) oldSwapchain
          else makeSwapchain (selectSurfaceFormat formats) (selectExtent s.mode caps) oldSwapchain)
            { s with answers := rest, surfaceFormat := selectSurfaceFormat formats } := by
  obtain ⟨result, caps, formats, rest, hQuery, hMinimized⟩ := query_run s
  refine ⟨result, caps, formats, rest, hMinimized, ?_⟩
  rw [createSwapchainInternal_eq, bind_of_ok hQuery]
  dsimp only
  cases hFailed : result.failed with
  | true => rfl
  | false => rfl

-- ---------------------------------------------------------------------------
-- Suspending it
-- ---------------------------------------------------------------------------

section Suspends

variable {s t : VulkanContext} {oldSwapchain : Handle}

/-- A suspension cannot fail. -/
theorem suspend_run (extent : VkExtent2D) (s : VulkanContext) :
    ∃ t, suspend extent oldSwapchain s = .ok () t ∧ t.swapchain.suspended = true := by
  unfold suspend whenever
  by_cases hOld : oldSwapchain ≠ VK_NULL_HANDLE
  · rw [if_pos hOld]
    exact ⟨_, rfl, rfl⟩
  · rw [if_neg hOld]
    exact ⟨_, rfl, rfl⟩

/-- The swapchain is not suspended. -/
def Visible (s : VulkanContext) : Prop := s.swapchain.suspended = false

/-- The invariant does not depend on what belongs to the swapchain. -/
class Fills (I : VulkanContext → Prop) : Prop where
  ask : ∀ {s : VulkanContext} {answers : Answers}, I s → I { s with answers }
  handles : ∀ {s : VulkanContext}, I s → I { s with handles := s.handles + 1 }
  swapchain : ∀ {s : VulkanContext} {swapchain : VulkanSwapchainState},
    swapchain.swapchain = s.swapchain.swapchain → swapchain.suspended = s.swapchain.suspended →
    I s → I { s with swapchain }
  images : ∀ {s : VulkanContext}, I s →
    I { s with trace := s.trace ++ [.getSwapchainImages s.swapchain.swapchain] }

section Fills

variable {I : VulkanContext → Prop} [Fills I]

/-- The views of the images. -/
theorem fills_createImageViews : ∀ (left i : Nat), Keeps I (createImageViews i left)
  | 0, _ => keeps_pure ()
  | left + 1, i => by
    unfold createImageViews
    refine Keeps.seq (fun _ h => Fills.ask h) fun _ => Keeps.seq (keeps_vkCheck _) fun _ => ?_
    refine Keeps.seq (fun _ h => Fills.handles h) fun _ => ?_
    refine Keeps.seq (fun _ h => Fills.swapchain rfl rfl h) fun _ => ?_
    exact fills_createImageViews left (i + 1)

/-- The depth image and its view. -/
theorem fills_createDepthResources : Keeps I createDepthResources := by
  unfold createDepthResources
  refine Keeps.seq keeps_get fun _ => ?_
  refine Keeps.seq (fun _ h => Fills.swapchain rfl rfl h) fun _ => ?_
  refine Keeps.seq (fun _ h => Fills.ask h) fun _ => ?_
  refine Keeps.seq (keeps_whenever fun _ => keeps_giveUp _) fun _ => ?_
  refine Keeps.seq (fun _ h => Fills.handles h) fun _ => ?_
  refine Keeps.seq (fun _ h => Fills.swapchain rfl rfl h) fun _ => ?_
  refine Keeps.seq (fun _ h => Fills.ask h) fun _ => Keeps.seq (keeps_vkCheck _) fun _ => ?_
  exact Keeps.seq (fun _ h => Fills.handles h) fun _ => fun _ h => Fills.swapchain rfl rfl h

/-- All that belongs to the swapchain. -/
theorem fills_fillSwapchain : Keeps I fillSwapchain := by
  have hImages : Keeps I (do log (.getSwapchainImages (← get).swapchain.swapchain)) :=
    fun _ h => Fills.images h
  unfold fillSwapchain
  rw [← bind_assoc]
  refine Keeps.seq hImages fun _ => ?_
  refine Keeps.seq (fun _ h => Fills.ask h) fun _ => Keeps.seq (keeps_vkCheck _) fun _ => ?_
  refine Keeps.seq (fun _ h => Fills.swapchain rfl rfl h) fun _ => ?_
  rw [← bind_assoc]
  refine Keeps.seq hImages fun _ => ?_
  refine Keeps.seq (fun _ h => Fills.ask h) fun _ => Keeps.seq (keeps_vkCheck _) fun _ => ?_
  refine Keeps.seq (fun _ h => Fills.swapchain rfl rfl h) fun _ => ?_
  exact Keeps.seq (fills_createImageViews _ _) fun _ => hoare_crReturnHr fills_createDepthResources

end Fills

instance : Fills Visible where
  ask h := h
  handles h := h
  swapchain _ hSuspended h := hSuspended.trans h
  images h := h

/-- A swapchain that is made is not suspended. -/
theorem hoare_visible_makeSwapchain (surfaceFormat : VkSurfaceFormat) (extent : VkExtent2D)
    (oldSwapchain : Handle) :
    Hoare (fun _ => True) (makeSwapchain surfaceFormat extent oldSwapchain) (fun _ => Visible)
      Visible := by
  unfold makeSwapchain
  refine Hoare.bind (Q := fun _ => Visible) (hoare_modify fun s _ => rfl) fun _ => ?_
  refine Keeps.seq (fun _ h => h) fun _ => Keeps.seq (fun _ h => h) fun _ => ?_
  refine Keeps.seq (keeps_whenever fun _ => keeps_giveUp _) fun _ => ?_
  refine Keeps.seq (fun _ h => h) fun _ => Keeps.seq (fun _ h => h) fun _ => ?_
  exact Keeps.seq (fun _ h => h) fun _ => fills_fillSwapchain

/-- A minimized window suspends the swapchain, and nothing else does. -/
theorem createSwapchainInternal_suspends (oldSwapchain : Handle) (s : VulkanContext) :
    (s.Minimized → ∃ t, createSwapchainInternal oldSwapchain s = .ok () t ∧
      t.swapchain.suspended = true) ∧
    (¬s.Minimized → ∀ t, resultOf (createSwapchainInternal oldSwapchain) s = .ok .S_OK t →
      Visible t) := by
  obtain ⟨result, caps, formats, rest, hMinimized, hRun⟩ := createSwapchainInternal_run oldSwapchain s
  rw [hMinimized s rfl rfl]
  cases hFailed : result.failed with
  | true =>
    rw [hFailed, if_pos rfl] at hRun
    refine ⟨fun hNo => Bool.noConfusion hNo.1, fun _ t hOk => ?_⟩
    rcases resultOf_eq_S_OK_iff.mp hOk with hDone | hEarly
    · rw [hRun] at hDone
      cases hDone
    · rw [hRun] at hEarly
      cases hEarly
      cases hFailed
  | false =>
    rw [hFailed, if_neg Bool.false_ne_true] at hRun
    by_cases hZero : (selectExtent s.mode caps).width = 0 ∨ (selectExtent s.mode caps).height = 0
    · rw [if_pos hZero] at hRun
      refine ⟨fun _ => ?_, fun hNot => absurd ⟨rfl, hZero⟩ hNot⟩
      rw [hRun]
      exact suspend_run _ _
    · rw [if_neg hZero] at hRun
      refine ⟨fun hNo => absurd hNo.2 hZero, fun _ t hOk => ?_⟩
      have hMade := hoare_visible_makeSwapchain (selectSurfaceFormat formats)
        (selectExtent s.mode caps) oldSwapchain
        { s with answers := rest, surfaceFormat := selectSurfaceFormat formats } trivial
      rw [← hRun] at hMade
      rcases resultOf_eq_S_OK_iff.mp hOk with hDone | hEarly
      · rw [hDone] at hMade
        exact hMade
      · rw [hEarly] at hMade
        exact hMade

/-- The state in which `RecreateSwapchain` calls `CreateSwapchainInternal`. -/
def VulkanContext.cleared (s : VulkanContext) : VulkanContext :=
  { s with
    completed := s.submissions.length
    swapchain := { s.swapchain with
      depthView := VK_NULL_HANDLE, depthImage := VK_NULL_HANDLE, imageViews := [] } }

/-- `RecreateSwapchain` once `CreateSwapchainInternal` has returned. -/
def settleSwapchain (oldSwapchain : Handle) (result : ALResult) : Vk Unit := do
  let swapchain := (← get).swapchain.swapchain
  whenever result.failed do
    whenever (swapchain ≠ oldSwapchain) (vkDestroySwapchainKHR oldSwapchain)
    modifySwapchain fun swapchain => { swapchain with swapchain := VK_NULL_HANDLE }
    giveUp result
  whenever (swapchain ≠ VK_NULL_HANDLE ∧ swapchain ≠ oldSwapchain)
    (vkDestroySwapchainKHR oldSwapchain)

/-- `RecreateSwapchain`: it clears, creates and settles. -/
theorem recreateSwapchain_eq (s : VulkanContext) : recreateSwapchain s =
    (resultOf (createSwapchainInternal s.swapchain.swapchain) >>= fun result =>
      settleSwapchain s.swapchain.swapchain result) s.cleared := rfl

/-- After a success the new swapchain stays. -/
theorem settleSwapchain_of_ok (oldSwapchain : Handle) (s : VulkanContext) :
    ∃ t, settleSwapchain oldSwapchain .S_OK s = .ok () t ∧ t.swapchain = s.swapchain := by
  unfold settleSwapchain
  rw [bind_of_ok (get_run s)]
  unfold whenever
  rw [if_neg (by decide)]
  by_cases hNew : s.swapchain.swapchain ≠ VK_NULL_HANDLE ∧ s.swapchain.swapchain ≠ oldSwapchain
  · rw [if_pos hNew]
    exact ⟨_, rfl, rfl⟩
  · rw [if_neg hNew]
    exact ⟨_, rfl, rfl⟩

/-- Where `CreateSwapchainInternal` has failed, its result is returned. -/
theorem settleSwapchain_of_failed {result : ALResult} (hFailed : result.failed = true)
    (oldSwapchain : Handle) (s : VulkanContext) :
    ∃ t, settleSwapchain oldSwapchain result s = .error (.returned result) t := by
  unfold settleSwapchain
  rw [bind_of_ok (get_run s)]
  unfold whenever
  rw [if_pos hFailed]
  by_cases hOther : s.swapchain.swapchain ≠ oldSwapchain
  · rw [if_pos hOther]
    exact ⟨_, rfl⟩
  · rw [if_neg hOther]
    exact ⟨_, rfl⟩

/-- `RecreateSwapchain` succeeds when `CreateSwapchainInternal` does. -/
theorem recreateSwapchain_eq_ok_iff : recreateSwapchain s = .ok () t ↔
    ∃ u, resultOf (createSwapchainInternal s.swapchain.swapchain) s.cleared = .ok .S_OK u ∧
      settleSwapchain s.swapchain.swapchain .S_OK u = .ok () t := by
  rw [recreateSwapchain_eq, bind_eq_ok_iff]
  constructor
  · rintro ⟨result, u, hCreate, hSettle⟩
    by_cases hFailed : result.failed = true
    · obtain ⟨v, hError⟩ := settleSwapchain_of_failed hFailed s.swapchain.swapchain u
      rw [hError] at hSettle
      cases hSettle
    · obtain rfl : result = .S_OK := by
        by_contra hNot
        exact hFailed (decide_eq_true hNot)
      exact ⟨u, hCreate, hSettle⟩
  · rintro ⟨u, hCreate, hSettle⟩
    exact ⟨.S_OK, u, hCreate, hSettle⟩

/-- `RecreateSwapchain` gets to its end or returns an error. -/
theorem quiet_recreateSwapchain : Quiet recreateSwapchain := by
  intro s
  rw [StopsOk, Throws, recreateSwapchain_eq]
  rintro ⟨exit, t, hError, rfl⟩
  rcases hResult : resultOf (createSwapchainInternal s.swapchain.swapchain) s.cleared with
    ⟨result, u⟩ | ⟨exit, u⟩
  · rw [bind_of_ok hResult] at hError
    by_cases hFailed : result.failed = true
    · obtain ⟨v, hReturned⟩ := settleSwapchain_of_failed hFailed s.swapchain.swapchain u
      rw [hReturned] at hError
      cases hError
      cases hFailed
    · obtain rfl : result = .S_OK := by
        by_contra hNot
        exact hFailed (decide_eq_true hNot)
      obtain ⟨v, hDone, -⟩ := settleSwapchain_of_ok s.swapchain.swapchain u
      rw [hDone] at hError
      cases hError
  · rw [bind_of_error hResult] at hError
    cases hError
    exact not_returned_resultOf hResult

/-- A recreated swapchain is suspended when the window is minimized. -/
theorem recreateSwapchain_suspends_iff :
    (∃ t, crReturnHr recreateSwapchain s = .ok () t ∧ t.swapchain.suspended = true) ↔
      s.Minimized := by
  obtain ⟨hSuspends, hOnly⟩ := createSwapchainInternal_suspends s.swapchain.swapchain s.cleared
  have hSame : s.cleared.Minimized ↔ s.Minimized := minimized_congr rfl rfl
  rw [hSame] at hSuspends hOnly
  constructor
  · rintro ⟨t, hRun, hSuspended⟩
    have hDone := crReturnHr_eq_ok_of_quiet quiet_recreateSwapchain hRun
    obtain ⟨u, hCreate, hSettle⟩ := recreateSwapchain_eq_ok_iff.mp hDone
    obtain ⟨v, hSettled, hKept⟩ := settleSwapchain_of_ok s.swapchain.swapchain u
    obtain rfl : v = t := by
      rw [hSettled] at hSettle
      exact (EStateM.Result.ok.inj hSettle).2
    by_contra hNot
    have hVisible := hOnly hNot u hCreate
    rw [Visible, ← hKept, hSuspended] at hVisible
    cases hVisible
  · intro hMinimized
    obtain ⟨u, hCreate, hSuspended⟩ := hSuspends hMinimized
    obtain ⟨t, hSettle, hKept⟩ := settleSwapchain_of_ok s.swapchain.swapchain u
    refine ⟨t, crReturnHr_eq_ok_iff.mpr (resultOf_eq_S_OK_iff.mpr (.inl ?_)), ?_⟩
    · exact recreateSwapchain_eq_ok_iff.mpr ⟨u, resultOf_eq_S_OK_iff.mpr (.inl hCreate), hSettle⟩
    · rw [hKept]
      exact hSuspended

end Suspends

-- ---------------------------------------------------------------------------
-- A new surface
-- ---------------------------------------------------------------------------

/-- `RecreateSurface` before it calls `RecreateSwapchain`. -/
def renewSurface : Vk Unit := do
  whenever (← get).windowless (giveUp .E_INVALIDCALL)
  modify fun s => { s with surfaceLossReason := "" }
  waitIdle
  destroySwapchain
  crReturnHr createSurface
  crReturnHr pickPhysicalDevice

/-- The two parts of `RecreateSurface`. -/
theorem recreateSurface_eq : recreateSurface = (do
    renewSurface
    crReturnHr recreateSwapchain) := by
  simp only [recreateSurface, renewSurface, bind_assoc]

/-- The first part gets to its end or returns an error. -/
theorem quiet_renewSurface : Quiet renewSurface := by
  have hDestroy : Quiet destroySwapchain := by
    refine (quiet_modify _).bind fun _ => (quiet_modify _).bind fun _ => ?_
    refine quiet_get.bind fun start => quiet_whenever ?_
    exact (quiet_modify _).bind fun _ => quiet_modify _
  refine quiet_get.bind fun start => ?_
  refine (quiet_whenever (quiet_giveUp (by decide))).bind fun _ => ?_
  refine (quiet_modify _).bind fun _ => (quiet_modify _).bind fun _ => ?_
  refine hDestroy.bind fun _ => ?_
  exact (quiet_crReturnHr _).bind fun _ => quiet_crReturnHr _

/-- So does the whole. -/
theorem quiet_recreateSurface : Quiet recreateSurface := by
  rw [recreateSurface_eq]
  exact quiet_renewSurface.bind fun _ => quiet_crReturnHr _

end Ithax.Vulkan
