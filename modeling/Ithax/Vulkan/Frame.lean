import Ithax.Lib.Interleaving
import Ithax.Vulkan.Device

/-!
# Frames

`VulkanContext` of `trinityal-vulkan/Tr2VulkanContext.cpp`: the swapchain, the two frame
contexts with `BeginFrame`, `EndFrame` and `Present`, and the objects that are destroyed
later. A function that returns early does so by `giveUp`.
-/

namespace Ithax.Vulkan

open Ithax.Lib

/-- How many entries wait before a retirement waits for the GPU. -/
def MAX_DEFERRED_ENTRIES : Nat := 4096

-- ---------------------------------------------------------------------------
-- Deferred destruction
-- ---------------------------------------------------------------------------

/-- `GetCurrentTimelineValue`, of the current context. -/
def getCurrentTimelineValue : Vk UInt64 := do return (← get).frame.timelineValue

/-- What the objects of an entry are destroyed as. -/
def Retired.destroyedAt (retired : Retired) (completed : Nat) : List Destroyed :=
  retired.entry.objects.map fun object => { object, recording := retired.recording, completed }

/-- `DrainDeferred`: the entries whose value is completed. -/
def drainDeferred (completedValue : UInt64) : Vk Unit :=
  modify fun s => { s with
    deferred := s.deferred.filter fun retired => retired.entry.timelineValue > completedValue
    destroyed := s.destroyed ++
      (s.deferred.filter fun retired => ¬retired.entry.timelineValue > completedValue).flatMap
        fun retired => retired.destroyedAt s.completed }

/-- `Retire` of an entry whose objects are used by the given recording. -/
def retire (entry : VulkanDeferredDestroy) (recording : Nat) : Vk Unit := do
  let s ← get
  whenever (s.deferred.length ≥ MAX_DEFERRED_ENTRIES) do
    waitIdle
    drainDeferred 0xffffffffffffffff
  modify fun s => { s with deferred := s.deferred ++ [{ entry, recording }] }

/-- A command that uses the objects of an entry, and the retirement of the entry with the
value of the frame being recorded. -/
def recordAndRetire (entry : VulkanDeferredDestroy) : Vk Unit := do
  let recording ← vkCmd
  let timelineValue := (← getCurrentTimelineValue) + 1
  retire { entry with timelineValue } recording

/-- A buffer, as far as `UpdateBuffer` looks at it. -/
structure Tr2BufferAL where
  sizeBytes : UInt64
  /-- `VK_MEMORY_PROPERTY_HOST_VISIBLE_BIT` in `m_memoryFlags`. -/
  hostVisible : Bool
  isMapped : Bool := false
  deriving DecidableEq, Repr

/-- What `UpdateBuffer` writes: a range of the buffer, and whether it gets the bytes of
`data` or whatever is in the staging buffer. -/
structure BufferWrite where
  offset : UInt32
  size : UInt32
  filled : Bool
  deriving DecidableEq, Repr

/-- `Tr2BufferAL::UpdateBuffer`, with whether `data` is not null. -/
def updateBuffer (buffer : Tr2BufferAL) (offset size : UInt32) (data : Bool) :
    Vk BufferWrite := do
  -- the sum of the two is one of 32 bits
  whenever (¬data ∨ (offset + size).toUInt64 > buffer.sizeBytes) (giveUp .E_INVALIDARG)
  if buffer.hostVisible then
    whenever ((← ask .vmaMapMemory).result ≠ .success) (giveUp .E_FAIL)
    return { offset, size, filled := true }
  else
    whenever ((← ask .vmaCreateBuffer).result ≠ .success) (giveUp .E_OUTOFMEMORY)
    let stagingBuffer ← newHandle
    -- the copy is skipped when the memory cannot be mapped
    let mapped ← ask .vmaMapMemory
    recordAndRetire { buffer := stagingBuffer }
    return { offset, size, filled := mapped.result = .success }

-- ---------------------------------------------------------------------------
-- The swapchain
-- ---------------------------------------------------------------------------

/-- `QuerySurfaceCapabilities` with its two output parameters. -/
def querySurfaceCapabilities : Vk (ALResult × Answer × List VkSurfaceFormat) := do
  let caps ← ask .vkGetPhysicalDeviceSurfaceCapabilitiesKHR
  if caps.result ≠ .success then return (mapVkResult caps.result, caps, [])
  else
    let counted ← ask .vkGetPhysicalDeviceSurfaceFormatsKHR
    if counted.result ≠ .success then return (mapVkResult counted.result, caps, [])
    else
      let formats ← ask .vkGetPhysicalDeviceSurfaceFormatsKHR
      if formats.result ≠ .success then
        return (mapVkResult formats.result, caps, formats.formats)
      else
        let modeCount ← ask .vkGetPhysicalDeviceSurfacePresentModesKHR
        if modeCount.result ≠ .success then
          return (mapVkResult modeCount.result, caps, formats.formats)
        else
          let modes ← ask .vkGetPhysicalDeviceSurfacePresentModesKHR
          return (mapVkResult modes.result, caps, formats.formats)

/-- `SelectSurfaceFormat`. -/
def selectSurfaceFormat (formats : List VkSurfaceFormat) : VkSurfaceFormat :=
  match formats.find? fun format => format = ⟨.VK_FORMAT_B8G8R8A8_UNORM,
      .VK_COLOR_SPACE_SRGB_NONLINEAR_KHR⟩ with
  | some format => format
  | none =>
    match formats.find? fun format => format = ⟨.VK_FORMAT_B8G8R8A8_SRGB,
        .VK_COLOR_SPACE_SRGB_NONLINEAR_KHR⟩ with
    | some format => format
    | none => formats.head?.getD {}

/-- `std::clamp`. -/
def clamp (value low high : UInt32) : UInt32 :=
  if value < low then low else if high < value then high else value

/-- `SelectExtent`: the surface's own extent, unless it leaves the choice. -/
def selectExtent (mode : VkExtent2D) (caps : Answer) : VkExtent2D :=
  if caps.currentExtent.width ≠ 0xffffffff then caps.currentExtent
  else
    { width := clamp mode.width caps.minImageExtent.width caps.maxImageExtent.width
      height := clamp mode.height caps.minImageExtent.height caps.maxImageExtent.height }

/-- `FindSupportedFormat`. -/
def findSupportedFormat (supported candidates : List VkFormat) : VkFormat :=
  (candidates.find? fun format => format ∈ supported).getD .VK_FORMAT_UNDEFINED

/-- `FindDepthFormat`. -/
def findDepthFormat (supported : List VkFormat) : VkFormat :=
  findSupportedFormat supported
    [.VK_FORMAT_D32_SFLOAT, .VK_FORMAT_D32_SFLOAT_S8_UINT, .VK_FORMAT_D24_UNORM_S8_UINT]

/-- `CreateDepthResources`. -/
def createDepthResources : Vk Unit := do
  let depthFormat := findDepthFormat (← get).depthFormats
  modifySwapchain fun swapchain => { swapchain with depthFormat }
  whenever ((← ask .vmaCreateImage).result ≠ .success) (giveUp .E_FAIL)
  let depthImage ← newHandle
  modifySwapchain fun swapchain => { swapchain with depthImage }
  vkCheck (← ask .vkCreateImageView).result
  let depthView ← newHandle
  modifySwapchain fun swapchain => { swapchain with depthView }

/-- `DestroyDepthResources`. -/
def destroyDepthResources : Vk Unit :=
  modifySwapchain fun swapchain =>
    { swapchain with depthView := VK_NULL_HANDLE, depthImage := VK_NULL_HANDLE }

/-- The loop over `imageViews`, from the view `i` on. -/
def createImageViews (i : Nat) : Nat → Vk Unit
  | 0 => pure ()
  | left + 1 => do
    vkCheck (← ask .vkCreateImageView).result
    let view ← newHandle
    modifySwapchain fun swapchain => { swapchain with imageViews := swapchain.imageViews.set i view }
    createImageViews (i + 1) left

/-- The window is minimized. -/
def suspend (extent : VkExtent2D) (oldSwapchain : Handle) : Vk Unit := do
  modifySwapchain fun swapchain => { swapchain with
    suspended := true, extent, imageCount := 0, imageViews := [] }
  whenever (oldSwapchain ≠ VK_NULL_HANDLE) (vkDestroySwapchainKHR oldSwapchain)
  modifySwapchain fun swapchain => { swapchain with swapchain := VK_NULL_HANDLE }

/-- `CreateSwapchainInternal`. A return in the middle leaves what was written so far. -/
def createSwapchainInternal (oldSwapchain : Handle) : Vk Unit := do
  let (result, caps, formats) ← querySurfaceCapabilities
  whenever result.failed (giveUp result)
  let surfaceFormat := selectSurfaceFormat formats
  modify fun s => { s with surfaceFormat }
  let extent := selectExtent (← get).mode caps
  if extent.width = 0 ∨ extent.height = 0 then suspend extent oldSwapchain
  else
    modifySwapchain fun swapchain => { swapchain with suspended := false }
    log (.replaceSwapchain oldSwapchain)
    whenever ((← ask .vkCreateSwapchainKHR).result ≠ .success) (giveUp .E_FAIL)
    let handle ← newHandle
    log (.createSwapchain handle)
    modifySwapchain fun swapchain => { swapchain with
      swapchain := handle, format := surfaceFormat.format, colorSpace := surfaceFormat.colorSpace
      extent, currentImageIndex := 0 }
    log (.getSwapchainImages (← get).swapchain.swapchain)
    let counted ← ask .vkGetSwapchainImagesKHR
    vkCheck counted.result
    modifySwapchain fun swapchain => { swapchain with imageCount := counted.count }
    log (.getSwapchainImages (← get).swapchain.swapchain)
    let images ← ask .vkGetSwapchainImagesKHR
    vkCheck images.result
    modifySwapchain fun swapchain => { swapchain with
      imageCount := images.count, imageViews := List.replicate images.count VK_NULL_HANDLE }
    createImageViews 0 images.count
    crReturnHr createDepthResources

/-- `CreateSwapchain`. -/
def createSwapchain : Vk Unit := createSwapchainInternal VK_NULL_HANDLE

/-- `DestroyImageViews`. -/
def destroyImageViews : Vk Unit :=
  modifySwapchain fun swapchain => { swapchain with imageViews := [] }

/-- `RecreateSwapchain`. -/
def recreateSwapchain : Vk Unit := do
  waitIdle
  let oldSwapchain := (← get).swapchain.swapchain
  destroyDepthResources
  destroyImageViews
  let result ← resultOf (createSwapchainInternal oldSwapchain)
  let swapchain := (← get).swapchain.swapchain
  whenever result.failed do
    whenever (swapchain ≠ oldSwapchain) (vkDestroySwapchainKHR oldSwapchain)
    modifySwapchain fun swapchain => { swapchain with swapchain := VK_NULL_HANDLE }
    giveUp result
  -- the suspended path has destroyed the old swapchain already
  whenever (swapchain ≠ VK_NULL_HANDLE ∧ swapchain ≠ oldSwapchain)
    (vkDestroySwapchainKHR oldSwapchain)

/-- `DestroySwapchain`. -/
def destroySwapchain : Vk Unit := do
  destroyDepthResources
  destroyImageViews
  let swapchain := (← get).swapchain.swapchain
  whenever (swapchain ≠ VK_NULL_HANDLE) do
    vkDestroySwapchainKHR swapchain
    modifySwapchain fun swapchain => { swapchain with swapchain := VK_NULL_HANDLE }

/-- `CreateSurface`. -/
def createSurface : Vk Unit := do
  let result := mapVkResult (← ask .vkCreateWin32SurfaceKHR).result
  whenever result.failed (giveUp result)

/-- `PickPhysicalDevice`. -/
def pickPhysicalDevice : Vk Unit := do
  let result := (← ask .pickPhysicalDevice).picked
  whenever result.failed (giveUp result)

/-- `RecreateSurface`. -/
def recreateSurface : Vk Unit := do
  whenever (← get).windowless (giveUp .E_INVALIDCALL)
  modify fun s => { s with surfaceLossReason := "" }
  waitIdle
  destroySwapchain
  crReturnHr createSurface
  crReturnHr pickPhysicalDevice
  crReturnHr recreateSwapchain

-- ---------------------------------------------------------------------------
-- Frames
-- ---------------------------------------------------------------------------

/-- The command buffer of the frame is begun anew. -/
def beginRecording : Vk Unit := do
  vkResetCommandPool
  vkBeginCommandBuffer

/-- `return S_OK` when the swapchain is suspended. -/
def returnIfSuspended : Vk Unit := do
  whenever (← get).swapchain.suspended (giveUp .S_OK)

/-- The surface is lost: the reason is noted, and the surface recreated. -/
def loseSurface (reason : String) : Vk Unit := do
  modify fun s => { s with surfaceLossReason := reason }
  crReturnHr recreateSurface

/-- The device is lost, and stays lost. -/
def loseDevice : Vk Unit := do
  modify fun s => { s with deviceLost := true }
  giveUp .E_DEVICELOST

/-- The image is acquired again after the swapchain or the surface was recreated. -/
def acquireAgain (again : Prop) [Decidable again] (recreate : Vk Unit)
    (acquireResult : VkResult) : Vk VkResult :=
  if again then do
    recreate
    returnIfSuspended
    vkAcquireNextImageKHR
  else pure acquireResult

/-- `BeginFrame` from its first acquire on. -/
def acquireAndBegin : Vk Unit := do
  let acquireResult ← vkAcquireNextImageKHR
  let acquireResult ← acquireAgain (acquireResult = .outOfDate ∨ acquireResult = .suboptimal)
    (crReturnHr recreateSwapchain) acquireResult
  let acquireResult ← acquireAgain (acquireResult = .surfaceLost)
    (loseSurface "acquire returned VK_ERROR_SURFACE_LOST_KHR") acquireResult
  whenever (acquireResult = .deviceLost) loseDevice
  whenever (acquireResult ≠ .success) (giveUp .E_FAIL)
  vkResetFences
  beginRecording

/-- `BeginFrame` while the swapchain is suspended: the extent is checked again. -/
def beginSuspended : Vk Unit := do
  let caps ← ask .vkGetPhysicalDeviceSurfaceCapabilitiesKHR
  if caps.result = .surfaceLost then
    loseSurface "surface caps returned VK_ERROR_SURFACE_LOST_KHR"
    if (← get).swapchain.suspended then beginRecording else acquireAndBegin
  else if caps.result = .success ∧ caps.currentExtent.width ≠ 0 ∧ caps.currentExtent.height ≠ 0 then
    crReturnHr recreateSwapchain
    if (← get).swapchain.suspended then beginRecording else acquireAndBegin
  else beginRecording

/-- A present has reported that the surface is lost. -/
def VulkanContext.surfacePending (s : VulkanContext) : Bool :=
  s.surfaceLossReason ≠ "" ∧ s.swapchain.swapchain ≠ VK_NULL_HANDLE

/-- `BeginFrame`: the wait for the context's fence, the drain, and then the next image. -/
def beginFrame : Vk Unit := do
  let s ← get
  whenever s.deviceLost (giveUp .E_DEVICELOST)
  whenever s.surfacePending (crReturnHr recreateSurface)
  vkWaitForFences
  let completedValue ← vkGetSemaphoreCounterValue
  drainDeferred completedValue
  if (← get).swapchain.suspended then beginSuspended else acquireAndBegin

/-- `++m_frameNumber`. -/
def countFrame : Vk Unit := modify fun s => { s with frameNumber := s.frameNumber + 1 }

/-- `EndFrame`. A suspended frame is counted, and not submitted. -/
def endFrame : Vk Unit := do
  if (← get).swapchain.suspended then
    vkResetCommandPool
    countFrame
  else
    vkEndCommandBuffer
    modify fun s => s.setFrame { s.frame with timelineValue := s.frame.timelineValue + 1 }
    let result ← vkQueueSubmit2
    whenever (result = .deviceLost) loseDevice
    whenever (result ≠ .success) (giveUp .E_FAIL)
    countFrame

/-- The other context is the current one. -/
def nextFrame : Vk Unit := modify fun s => { s with frameIndex := s.frameIndex + 1 }

/-- `Present`. Only an error that nobody recovers from is returned. -/
def present : Vk Unit := do
  if (← get).swapchain.suspended then nextFrame
  else
    log (.queuePresent (← get).swapchain.swapchain)
    let result := (← ask .vkQueuePresentKHR).result
    modify fun s => { s with
      renderedFrameNumber := s.frameNumber
      lastPresentedImageIndex := s.swapchain.currentImageIndex }
    whenever (¬(result = .outOfDate ∨ result = .suboptimal)) <|
      if result = .surfaceLost then
        modify fun s => { s with surfaceLossReason := "present returned VK_ERROR_SURFACE_LOST_KHR" }
      else if result = .deviceLost then loseDevice
      else whenever (result ≠ .success) (giveUp .E_FAIL)
    nextFrame

-- ---------------------------------------------------------------------------
-- Runs
-- ---------------------------------------------------------------------------

/-- The calls of the owner of the context, and what the GPU does meanwhile. -/
inductive Call where
  | beginFrame (answers : Answers)
  | endFrame (answers : Answers)
  | present (answers : Answers)
  | updateBuffer (buffer : Tr2BufferAL) (offset size : UInt32) (data : Bool) (answers : Answers)
  /-- A function such as `UpdateSubresource` retires an entry of its own. -/
  | retire (entry : VulkanDeferredDestroy)
  | recreateSwapchain (answers : Answers)
  /-- The GPU completes the next submission. -/
  | complete

/-- A call of a function, up to where it waits or is not defined. -/
def invoke (body : Vk Unit) (answers : Answers) (s : VulkanContext) :
    Option (ALResult × VulkanContext) :=
  match resultOf body { s with answers } with
  | .ok result s => some (result, s)
  | .error _ _ => none

/-- A call, with its result. There is none where it waits or is undefined. -/
def Call.perform (call : Call) (s : VulkanContext) : Option (ALResult × VulkanContext) :=
  match call with
  | .beginFrame answers => invoke Vulkan.beginFrame answers s
  | .endFrame answers => invoke Vulkan.endFrame answers s
  | .present answers => invoke Vulkan.present answers s
  | .updateBuffer buffer offset size data answers =>
    invoke (do let _ ← Vulkan.updateBuffer buffer offset size data) answers s
  | .retire entry => invoke (recordAndRetire entry) (fun _ => []) s
  | .recreateSwapchain answers => invoke Vulkan.recreateSwapchain answers s
  | .complete =>
    if s.completed < s.submissions.length then some (.S_OK, { s with completed := s.completed + 1 })
    else none

/-- The context after a call. -/
def step (s : VulkanContext) (call : Call) : Option VulkanContext := (call.perform s).map Prod.snd

/-- The context that `CreateDevice` leaves behind. -/
def createDevice (windowless : Bool) (mode : VkExtent2D) (depthFormats : List VkFormat)
    (answers : Answers) : Option VulkanContext :=
  let s : VulkanContext := { windowless, mode, depthFormats }
  if windowless then some s
  else
    match invoke createSwapchain answers s with
    | some (.S_OK, s) => some s
    | _ => none

end Ithax.Vulkan
