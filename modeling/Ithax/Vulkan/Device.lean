import Ithax.Lib.Exceptional
import Mathlib.Algebra.GroupWithZero.Nat
import Mathlib.Logic.Function.Basic

/-!
# The Vulkan device

What `trinityal-vulkan/Tr2VulkanContext.cpp` keeps of the device, and the Vulkan
functions that it calls. The results of Vulkan are a script of answers: each function
takes the next of its own, and succeeds when none is left. The GPU completes the
submissions in the order in which they were made.

Every time a command buffer is begun counts as a recording of its own, so that an object
can be told by the recording that uses it.
-/

namespace Ithax.Vulkan

open Ithax.Lib

-- ---------------------------------------------------------------------------
-- Results
-- ---------------------------------------------------------------------------

/-- `VkResult`, by the results that the source tells apart. -/
inductive VkResult where
  | success | notReady | timeout | incomplete | suboptimal
  | outOfHostMemory | outOfDeviceMemory | deviceLost | surfaceLost | outOfDate
  | other (code : Int)
  deriving DecidableEq, Repr

/-- `ALResult`, as far as it is returned here. -/
inductive ALResult where
  | S_OK | E_FAIL | E_INVALIDARG | E_INVALIDCALL | E_OUTOFMEMORY | E_DEVICELOST
  deriving DecidableEq, Repr

/-- `FAILED`. -/
def ALResult.failed (result : ALResult) : Bool := result ≠ .S_OK

/-- `MapVkResult`. -/
def mapVkResult : VkResult → ALResult
  | .success | .suboptimal => .S_OK
  | .outOfHostMemory | .outOfDeviceMemory => .E_OUTOFMEMORY
  | .deviceLost => .E_DEVICELOST
  | .surfaceLost => .E_INVALIDCALL
  | .outOfDate => .E_INVALIDCALL
  | _ => .E_FAIL

/-- How a function ends before its last line. -/
inductive Exit where
  | returned (result : ALResult)
  /-- It waits on a fence that is not signalled. -/
  | blocked
  /-- It has called Vulkan in a way that is undefined. -/
  | undefined
  deriving DecidableEq, Repr

-- ---------------------------------------------------------------------------
-- Vulkan objects
-- ---------------------------------------------------------------------------

/-- A Vulkan handle, of whatever type. -/
abbrev Handle := Nat

/-- The handle of no object. -/
def VK_NULL_HANDLE : Handle := 0

/-- `VkExtent2D`. -/
structure VkExtent2D where
  width : UInt32
  height : UInt32
  deriving DecidableEq, Repr

/-- `VkFormat`, by the formats that the source names. -/
inductive VkFormat where
  | VK_FORMAT_UNDEFINED | VK_FORMAT_R32G32B32A32_SFLOAT | VK_FORMAT_R32G32B32A32_UINT
  | VK_FORMAT_R32G32B32A32_SINT | VK_FORMAT_R32G32B32_SFLOAT | VK_FORMAT_R32G32B32_UINT
  | VK_FORMAT_R32G32B32_SINT | VK_FORMAT_R16G16B16A16_SFLOAT | VK_FORMAT_R16G16B16A16_UNORM
  | VK_FORMAT_R16G16B16A16_UINT | VK_FORMAT_R16G16B16A16_SNORM | VK_FORMAT_R16G16B16A16_SINT
  | VK_FORMAT_R32G32_SFLOAT | VK_FORMAT_R32G32_UINT | VK_FORMAT_R32G32_SINT
  | VK_FORMAT_A2B10G10R10_UNORM_PACK32 | VK_FORMAT_A2B10G10R10_UINT_PACK32
  | VK_FORMAT_B10G11R11_UFLOAT_PACK32 | VK_FORMAT_R8G8B8A8_UNORM | VK_FORMAT_R8G8B8A8_SRGB
  | VK_FORMAT_R8G8B8A8_UINT | VK_FORMAT_R8G8B8A8_SNORM | VK_FORMAT_R8G8B8A8_SINT
  | VK_FORMAT_R16G16_SFLOAT | VK_FORMAT_R16G16_UNORM | VK_FORMAT_R16G16_UINT
  | VK_FORMAT_R16G16_SNORM | VK_FORMAT_R16G16_SINT | VK_FORMAT_R32_SFLOAT | VK_FORMAT_D32_SFLOAT
  | VK_FORMAT_R32_UINT | VK_FORMAT_R32_SINT | VK_FORMAT_D24_UNORM_S8_UINT | VK_FORMAT_R8G8_UNORM
  | VK_FORMAT_R8G8_UINT | VK_FORMAT_R8G8_SNORM | VK_FORMAT_R8G8_SINT | VK_FORMAT_R16_SFLOAT
  | VK_FORMAT_D16_UNORM | VK_FORMAT_R16_UNORM | VK_FORMAT_R16_UINT | VK_FORMAT_R16_SNORM
  | VK_FORMAT_R16_SINT | VK_FORMAT_R8_UNORM | VK_FORMAT_R8_UINT | VK_FORMAT_R8_SNORM
  | VK_FORMAT_R8_SINT | VK_FORMAT_BC1_RGBA_UNORM_BLOCK | VK_FORMAT_BC1_RGBA_SRGB_BLOCK
  | VK_FORMAT_BC2_UNORM_BLOCK | VK_FORMAT_BC2_SRGB_BLOCK | VK_FORMAT_BC3_UNORM_BLOCK
  | VK_FORMAT_BC3_SRGB_BLOCK | VK_FORMAT_BC4_UNORM_BLOCK | VK_FORMAT_BC4_SNORM_BLOCK
  | VK_FORMAT_BC5_UNORM_BLOCK | VK_FORMAT_BC5_SNORM_BLOCK | VK_FORMAT_B5G6R5_UNORM_PACK16
  | VK_FORMAT_B5G5R5A1_UNORM_PACK16 | VK_FORMAT_B8G8R8A8_UNORM | VK_FORMAT_B8G8R8A8_SRGB
  | VK_FORMAT_BC6H_UFLOAT_BLOCK | VK_FORMAT_BC6H_SFLOAT_BLOCK | VK_FORMAT_BC7_UNORM_BLOCK
  | VK_FORMAT_BC7_SRGB_BLOCK | VK_FORMAT_D16_UNORM_S8_UINT | VK_FORMAT_D32_SFLOAT_S8_UINT
  | other (code : Nat)
  deriving DecidableEq, Repr

/-- `VkColorSpaceKHR`. -/
inductive VkColorSpace where
  | VK_COLOR_SPACE_SRGB_NONLINEAR_KHR
  | other (code : Nat)
  deriving DecidableEq, Repr

/-- `VkSurfaceFormatKHR`. -/
structure VkSurfaceFormat where
  format : VkFormat := .VK_FORMAT_UNDEFINED
  colorSpace : VkColorSpace := .VK_COLOR_SPACE_SRGB_NONLINEAR_KHR
  deriving DecidableEq, Repr

/-- The types of the objects that a frame retires. -/
inductive VkObjectType where
  | imageView | image | buffer | descriptorSetLayout | pipelineLayout | pipeline | sampler
  | queryPool | swapchain | semaphore | fence | commandPool
  deriving DecidableEq, Repr

/-- An object by its handle. -/
structure VkObject where
  type : VkObjectType
  handle : Handle
  deriving DecidableEq, Repr

/-- The states of a command buffer, with the recording in it. -/
inductive CommandBuffer where
  | initial
  | recording (recording : Nat)
  | executable (recording : Nat)
  /-- Pending, and invalid as soon as the submission has completed. -/
  | submitted (submission : Nat)
  | invalid
  deriving DecidableEq, Repr

/-- The states of the fence of a frame. -/
inductive Fence where
  | signalled
  | unsignalled
  /-- The submission signals it. -/
  | submitted (submission : Nat)
  deriving DecidableEq, Repr

/-- `VULKAN_FRAME_CONTEXT_COUNT`: the contexts take turns. -/
abbrev VULKAN_FRAME_CONTEXT_COUNT : Nat := 2

instance : NeZero VULKAN_FRAME_CONTEXT_COUNT := ⟨by decide⟩

/-- The index of a context. -/
abbrev FrameIndex := Fin VULKAN_FRAME_CONTEXT_COUNT

/-- A batch on the graphics queue: the context it came from, the recording in its command
buffer, and the value that it gives to the timeline semaphore of the context. -/
structure Submission where
  context : FrameIndex
  recording : Nat
  value : UInt64
  deriving DecidableEq, Repr

-- ---------------------------------------------------------------------------
-- The context
-- ---------------------------------------------------------------------------

/-- `VulkanFrameContext`. -/
structure VulkanFrameContext where
  commandBuffer : CommandBuffer := .initial
  /-- Whether `acquireSemaphore` has a signal that no submission has waited for. -/
  acquireSemaphore : Bool := false
  inFlightFence : Fence := .signalled
  timelineValue : UInt64 := 0
  deriving DecidableEq, Repr

/-- `VulkanSwapchainState`. -/
structure VulkanSwapchainState where
  swapchain : Handle := VK_NULL_HANDLE
  format : VkFormat := .VK_FORMAT_UNDEFINED
  colorSpace : VkColorSpace := .VK_COLOR_SPACE_SRGB_NONLINEAR_KHR
  extent : VkExtent2D := ⟨0, 0⟩
  imageCount : Nat := 0
  imageViews : List Handle := []
  depthImage : Handle := VK_NULL_HANDLE
  depthView : Handle := VK_NULL_HANDLE
  depthFormat : VkFormat := .VK_FORMAT_D32_SFLOAT
  currentImageIndex : Nat := 0
  suspended : Bool := false
  deriving DecidableEq, Repr

/-- `VulkanDeferredDestroy`: an entry has the value at which its objects are done with. -/
structure VulkanDeferredDestroy where
  timelineValue : UInt64 := 0
  image : Handle := VK_NULL_HANDLE
  imageView : Handle := VK_NULL_HANDLE
  buffer : Handle := VK_NULL_HANDLE
  descriptorSetLayout : Handle := VK_NULL_HANDLE
  pipelineLayout : Handle := VK_NULL_HANDLE
  pipeline : Handle := VK_NULL_HANDLE
  sampler : Handle := VK_NULL_HANDLE
  queryPool : Handle := VK_NULL_HANDLE
  swapchain : Handle := VK_NULL_HANDLE
  semaphore : Handle := VK_NULL_HANDLE
  fence : Handle := VK_NULL_HANDLE
  commandPool : Handle := VK_NULL_HANDLE
  deriving DecidableEq, Repr

/-- What `DrainDeferred` destroys of an entry, in order. -/
def VulkanDeferredDestroy.objects (entry : VulkanDeferredDestroy) : List VkObject :=
  [⟨.imageView, entry.imageView⟩, ⟨.image, entry.image⟩, ⟨.buffer, entry.buffer⟩,
    ⟨.descriptorSetLayout, entry.descriptorSetLayout⟩, ⟨.pipelineLayout, entry.pipelineLayout⟩,
    ⟨.pipeline, entry.pipeline⟩, ⟨.sampler, entry.sampler⟩, ⟨.queryPool, entry.queryPool⟩,
    ⟨.swapchain, entry.swapchain⟩, ⟨.semaphore, entry.semaphore⟩, ⟨.fence, entry.fence⟩,
    ⟨.commandPool, entry.commandPool⟩].filter fun object => object.handle ≠ VK_NULL_HANDLE

/-- An entry of `m_deferred` with the recording that uses its objects. -/
structure Retired where
  entry : VulkanDeferredDestroy
  recording : Nat
  deriving DecidableEq, Repr

/-- An object that `DrainDeferred` has destroyed, with the number of submissions that had
completed by then. -/
structure Destroyed where
  object : VkObject
  recording : Nat
  completed : Nat
  deriving DecidableEq, Repr

/-- The functions whose answers are not in the model. -/
inductive VkFunction where
  | vkWaitForFences | vkGetSemaphoreCounterValue | vkResetFences
  | vkGetPhysicalDeviceSurfaceCapabilitiesKHR | vkGetPhysicalDeviceSurfaceFormatsKHR
  | vkGetPhysicalDeviceSurfacePresentModesKHR | vkCreateWin32SurfaceKHR
  /-- `PickPhysicalDevice` as a whole: nothing that it finds is kept here. -/
  | pickPhysicalDevice
  | vkCreateSwapchainKHR | vkGetSwapchainImagesKHR | vkCreateImageView | vmaCreateImage
  | vkAcquireNextImageKHR | vkResetCommandPool | vkBeginCommandBuffer | vkEndCommandBuffer
  | vkQueueSubmit2 | vkQueuePresentKHR | vmaCreateBuffer | vmaMapMemory
  deriving DecidableEq, Repr

/-- What a function answers, and where it has more than a result, that too. -/
structure Answer where
  result : VkResult := .success
  picked : ALResult := .S_OK
  currentExtent : VkExtent2D := ⟨1, 1⟩
  minImageExtent : VkExtent2D := ⟨1, 1⟩
  maxImageExtent : VkExtent2D := ⟨1, 1⟩
  formats : List VkSurfaceFormat := []
  count : Nat := 0
  imageIndex : Nat := 0
  deriving DecidableEq, Repr

/-- What each function will answer, first come first. -/
abbrev Answers := VkFunction → List Answer

/-- The calls that concern swapchains. -/
inductive VkEvent where
  | createSwapchain (swapchain : Handle)
  /-- The swapchain is given to `vkCreateSwapchainKHR` as the one to replace. -/
  | replaceSwapchain (oldSwapchain : Handle)
  | getSwapchainImages (swapchain : Handle)
  | destroySwapchain (swapchain : Handle)
  /-- With whether the semaphore had a signal already. -/
  | acquireNextImage (swapchain : Handle) (context : FrameIndex) (signalled : Bool)
  | queuePresent (swapchain : Handle)
  deriving DecidableEq, Repr

/-- `VulkanContext`, and below it what Vulkan and the GPU keep. -/
structure VulkanContext where
  windowless : Bool
  /-- The size in `presentParameters.mode`. -/
  mode : VkExtent2D
  /-- The formats that the device has for depth attachments. -/
  depthFormats : List VkFormat
  surfaceFormat : VkSurfaceFormat := {}
  swapchain : VulkanSwapchainState := {}
  frames : FrameIndex → VulkanFrameContext := fun _ => {}
  frameIndex : FrameIndex := 0
  lastPresentedImageIndex : Nat := 0
  frameNumber : UInt64 := 0
  renderedFrameNumber : UInt64 := 0
  deviceLost : Bool := false
  surfaceLossReason : String := ""
  deferred : List Retired := []
  -- Vulkan and the GPU
  answers : Answers := fun _ => []
  submissions : List Submission := []
  completed : Nat := 0
  recordings : Nat := 0
  handles : Nat := 0
  destroyed : List Destroyed := []
  trace : List VkEvent := []

namespace VulkanContext

/-- `m_frames[m_frameIndex]`. -/
def frame (s : VulkanContext) : VulkanFrameContext := s.frames s.frameIndex

/-- The current frame context is replaced. -/
def setFrame (s : VulkanContext) (frame : VulkanFrameContext) : VulkanContext :=
  { s with frames := Function.update s.frames s.frameIndex frame }

/-- What the timeline semaphore of a context holds. -/
def counterValue (s : VulkanContext) (context : FrameIndex) : UInt64 :=
  (((s.submissions.take s.completed).filter fun submission => submission.context = context).getLast?.map
    Submission.value).getD 0

/-- Whether `vkWaitForFences` would return. -/
def isSignalled (s : VulkanContext) : Fence → Bool
  | .signalled => true
  | .unsignalled => false
  | .submitted submission => submission < s.completed

end VulkanContext

-- ---------------------------------------------------------------------------
-- Calling Vulkan
-- ---------------------------------------------------------------------------

/-- A function of the context: it may leave early, and keeps what it did before. -/
abbrev Vk := EStateM Exit VulkanContext

/-- The next answer of a function. -/
def ask (function : VkFunction) : Vk Answer :=
  modifyGet fun s =>
    (((s.answers function).head?).getD {},
      { s with answers := Function.update s.answers function (s.answers function).tail })

/-- `return` in the middle of a function. -/
def giveUp {α : Type} (result : ALResult) : Vk α := throw (.returned result)

/-- `if` without `else`. -/
def whenever (condition : Prop) [Decidable condition] (body : Vk Unit) : Vk Unit :=
  if condition then body else pure ()

/-- `VK_CHECK`. -/
def vkCheck (result : VkResult) : Vk Unit :=
  whenever (result ≠ .success) (giveUp (mapVkResult result))

/-- What the caller of a function gets. -/
def resultOf (body : Vk Unit) : Vk ALResult := fun s =>
  match body s with
  | .ok () s => .ok .S_OK s
  | .error (.returned result) s => .ok result s
  | .error exit s => .error exit s

/-- `CR_RETURN_HR`. -/
def crReturnHr (body : Vk Unit) : Vk Unit := do
  let result ← resultOf body
  whenever result.failed (giveUp result)

/-- A handle for a new object. -/
def newHandle : Vk Handle :=
  modifyGet fun s => (s.handles + 1, { s with handles := s.handles + 1 })

/-- An event is traced. -/
def log (event : VkEvent) : Vk Unit := modify fun s => { s with trace := s.trace ++ [event] }

/-- A change of `m_swapchain`. -/
def modifySwapchain (f : VulkanSwapchainState → VulkanSwapchainState) : Vk Unit :=
  modify fun s => { s with swapchain := f s.swapchain }

/-- `vkDeviceWaitIdle`: all that was submitted has completed. -/
def waitIdle : Vk Unit := modify fun s => { s with completed := s.submissions.length }

/-- `vkDestroySwapchainKHR`. -/
def vkDestroySwapchainKHR (swapchain : Handle) : Vk Unit := log (.destroySwapchain swapchain)

/-- `vkWaitForFences` on the fence of the current context. -/
def vkWaitForFences : Vk Unit := do
  vkCheck (← ask .vkWaitForFences).result
  let s ← get
  if s.isSignalled s.frame.inFlightFence then pure () else throw .blocked

/-- `vkGetSemaphoreCounterValue` of the current context. -/
def vkGetSemaphoreCounterValue : Vk UInt64 := do
  vkCheck (← ask .vkGetSemaphoreCounterValue).result
  let s ← get
  pure (s.counterValue s.frameIndex)

/-- `vkResetFences`. -/
def vkResetFences : Vk Unit := do
  vkCheck (← ask .vkResetFences).result
  modify fun s => s.setFrame { s.frame with inFlightFence := .unsignalled }

/-- `vkResetCommandPool`: the command buffer is back in its first state. -/
def vkResetCommandPool : Vk Unit := do
  vkCheck (← ask .vkResetCommandPool).result
  modify fun s => s.setFrame { s.frame with commandBuffer := .initial }

/-- `vkBeginCommandBuffer`: the recording gets a number of its own. -/
def vkBeginCommandBuffer : Vk Unit := do
  vkCheck (← ask .vkBeginCommandBuffer).result
  modify fun s => { s.setFrame { s.frame with commandBuffer := .recording s.recordings } with
    recordings := s.recordings + 1 }

/-- `vkEndCommandBuffer`, which needs a command buffer that is being recorded. -/
def vkEndCommandBuffer : Vk Unit := do
  let s ← get
  match s.frame.commandBuffer with
  | .recording recording =>
    let result := (← ask .vkEndCommandBuffer).result
    let ended := if result = .success then .executable recording else .invalid
    modify fun s => s.setFrame { s.frame with commandBuffer := ended }
    vkCheck result
  | _ => throw .undefined

/-- `vkQueueSubmit2` of the current command buffer: it waits for the acquire semaphore,
signals the fence, and gives its timeline semaphore the current value of the context. -/
def vkQueueSubmit2 : Vk VkResult := do
  let s ← get
  match s.frame.commandBuffer with
  | .executable recording =>
    let result := (← ask .vkQueueSubmit2).result
    whenever (result = .success) <| modify fun s => { s.setFrame { s.frame with
        commandBuffer := .submitted s.submissions.length
        acquireSemaphore := false
        inFlightFence := .submitted s.submissions.length } with
      submissions := s.submissions ++
        [{ context := s.frameIndex, recording, value := s.frame.timelineValue }] }
    pure result
  | _ => throw .undefined

/-- `vkAcquireNextImageKHR`: when there is an image the semaphore gets a signal. -/
def vkAcquireNextImageKHR : Vk VkResult := do
  let s ← get
  log (.acquireNextImage s.swapchain.swapchain s.frameIndex s.frame.acquireSemaphore)
  let answer ← ask .vkAcquireNextImageKHR
  whenever (answer.result = .success ∨ answer.result = .suboptimal) <| modify fun s =>
    { s.setFrame { s.frame with acquireSemaphore := true } with
      swapchain := { s.swapchain with currentImageIndex := answer.imageIndex } }
  pure answer.result

/-- A command is recorded into the current command buffer. -/
def vkCmd : Vk Nat := do
  let s ← get
  match s.frame.commandBuffer with
  | .recording recording => pure recording
  | _ => throw .undefined

end Ithax.Vulkan
