import Ithax.Vulkan.Frame
import Ithax.Vulkan.VertexLayout
import Ithax.RenderGraph.Compile

/-!
# The render context

The part of `trinityal-vulkan/Tr2RenderContextVulkan.cpp` that draws go through: the state
that is set between draws, the frames and passes of a render graph, and
`BindFrameResources`, which every draw calls.

Vertex layouts are objects that outlive what they are set in, so they are kept by number.
A context keeps a record of the commands that it has bound, of the pipelines that were
destroyed, and of every time that it asked a layout for a pipeline.
-/

namespace Ithax.Vulkan

open Ithax.Lib
open Ithax.RenderGraph (CompileResult PassId ResourceId INVALID_PASS)

/-- A vertex layout, by a number for its address. -/
abbrev LayoutId := Nat

/-- The commands of a draw that concern pipelines and what they read. -/
inductive Command where
  | bindDescriptorSets (layout set : Handle)
  | bindPipeline (pipeline : VkPipeline)
  | bindVertexBuffers (stream : Fin 4) (buffer : Handle) (offset : UInt32)
  deriving DecidableEq, Repr

/-- A draw that has asked its layout for a pipeline: what was current then, and the
pipeline that it got. -/
structure Draw where
  layout : LayoutId
  current : PipelineState
  pipeline : Option VkPipeline
  deriving DecidableEq, Repr

/-- The context, and below its members what is kept of the layouts and of what was recorded. -/
structure Tr2RenderContextAL where
  vulkan : VulkanContext
  /-- Where the member `m_shaderProgram` lies. -/
  shaderProgramAddress : Address
  shaderProgram : Tr2ShaderProgramAL := {}
  topology : Topology := .TOP_TRIANGLES
  vertexLayout : Option LayoutId := none
  /-- The descriptor set of `m_resourceSet`, if that is valid. -/
  resourceSet : Option Handle := none
  /-- The valid buffers of `m_vertexBuffers`, with their offsets. -/
  vertexBuffers : Fin 4 → Option (Handle × UInt32) := fun _ => none
  graph : CompileResult := ⟨[], [], [], [], []⟩
  /-- Whether the textures and buffers of `m_graphTextures` and `m_graphBuffers` are valid. -/
  graphTextures : List Bool := []
  graphBuffers : List Bool := []
  graphActivePass : PassId
  graphFrameActive : Bool
  graphPassHasRendering : Bool
  layouts : LayoutId → Tr2VertexLayoutAL
  commands : List (CommandBuffer × Command) := []
  destroyed : List VkPipeline := []
  draws : List Draw := []

namespace Tr2RenderContextAL

-- ---------------------------------------------------------------------------
-- State
-- ---------------------------------------------------------------------------

/-- `SetTopology`. -/
def setTopology (s : Tr2RenderContextAL) (topology : Topology) : Tr2RenderContextAL :=
  { s with topology }

/-- `SetShaderProgram`: the program is copied into the member. -/
def setShaderProgram (s : Tr2RenderContextAL) (shaderProgram : Tr2ShaderProgramAL) :
    Tr2RenderContextAL :=
  { s with shaderProgram }

/-- `SetResourceSet`. -/
def setResourceSet (s : Tr2RenderContextAL) (resourceSet : Option Handle) : Tr2RenderContextAL :=
  { s with resourceSet }

/-- `SetVertexLayout`. -/
def setVertexLayout (s : Tr2RenderContextAL) (vertexLayout : Option LayoutId) :
    Tr2RenderContextAL :=
  { s with vertexLayout }

/-- `SetStreamSource`, for one of the four streams. -/
def setStreamSource (s : Tr2RenderContextAL) (stream : Nat) (buffer : Option Handle)
    (offset : UInt32) : ALResult × Tr2RenderContextAL :=
  if h : stream < 4 then
    (.S_OK, { s with vertexBuffers :=
      Function.update s.vertexBuffers ⟨stream, h⟩ (buffer.map fun handle => (handle, offset)) })
  else (.E_INVALIDARG, s)

-- ---------------------------------------------------------------------------
-- The render graph
-- ---------------------------------------------------------------------------

/-- `BeginGraphFrame`. -/
def beginGraphFrame (s : Tr2RenderContextAL) : Tr2RenderContextAL :=
  { s with
    graph := ⟨[], [], [], [], []⟩, graphTextures := [], graphBuffers := []
    graphActivePass := INVALID_PASS, graphFrameActive := true }

/-- `SetGraphResult`. -/
def setGraphResult (s : Tr2RenderContextAL) (graph : CompileResult) : Tr2RenderContextAL :=
  { s with graph }

/-- `std::vector::resize` where the vector is too short, with invalid resources. -/
def grow (resources : List Bool) (size : Nat) : List Bool :=
  resources ++ List.replicate (size - resources.length) false

/-- `RegisterGraphTexture`. -/
def registerGraphTexture (s : Tr2RenderContextAL) (resource : ResourceId) (isValid : Bool) :
    ALResult × Tr2RenderContextAL :=
  if s.graphFrameActive then
    (.S_OK, { s with
      graphTextures := (grow s.graphTextures (resource + 1)).set resource isValid
      graphBuffers := grow s.graphBuffers (resource + 1) })
  else (.E_INVALIDCALL, s)

/-- `RegisterGraphBuffer`. -/
def registerGraphBuffer (s : Tr2RenderContextAL) (resource : ResourceId) (isValid : Bool) :
    ALResult × Tr2RenderContextAL :=
  if s.graphFrameActive then
    (.S_OK, { s with
      graphTextures := grow s.graphTextures (resource + 1)
      graphBuffers := (grow s.graphBuffers (resource + 1)).set resource isValid })
  else (.E_INVALIDCALL, s)

/-- The resources that `BeginGraphPass` looks at, in its order, with whether they are
valid. -/
def passResources (s : Tr2RenderContextAL) (pass : PassId) : List (Option Bool) :=
  ((s.graph.imageBarriers.filter fun barrier => barrier.beforePass = pass).map fun barrier =>
    s.graphTextures[barrier.resource]?) ++
  ((s.graph.bufferBarriers.filter fun barrier => barrier.beforePass = pass).map fun barrier =>
    s.graphBuffers[barrier.resource]?) ++
  ((s.graph.passAttachments.filter fun attachment => attachment.pass = pass).map fun attachment =>
    s.graphTextures[attachment.image]?)

/-- `BeginGraphPass`, which is not defined when it looks for a resource beyond the end of
the vector. -/
def beginGraphPass (s : Tr2RenderContextAL) (pass : PassId) :
    Option (ALResult × Tr2RenderContextAL) :=
  if !s.graphFrameActive then some (.E_INVALIDCALL, s)
  else if s.graphActivePass ≠ INVALID_PASS then some (.E_INVALIDCALL, s)
  else
    match (s.passResources pass).find? fun isValid => isValid ≠ some true with
    | some none => none
    | some (some _) => some (.E_INVALIDCALL, s)
    | none => some (.S_OK, { s with
        graphPassHasRendering := s.graph.passAttachments.any fun attachment => attachment.pass = pass
        graphActivePass := pass })

/-- `EndGraphPass`. -/
def endGraphPass (s : Tr2RenderContextAL) : ALResult × Tr2RenderContextAL :=
  if s.graphActivePass = INVALID_PASS then (.E_INVALIDCALL, s)
  else (.S_OK, { s with graphActivePass := INVALID_PASS, graphPassHasRendering := false })

/-- `EndGraphFrame`, whose `EndGraphPass` cannot fail. -/
def endGraphFrame (s : Tr2RenderContextAL) : ALResult × Tr2RenderContextAL :=
  if !s.graphFrameActive then (.E_INVALIDCALL, s)
  else
    let s := if s.graphActivePass ≠ INVALID_PASS then s.endGraphPass.2 else s
    (.S_OK, { s with graphFrameActive := false, graphActivePass := INVALID_PASS })

/-- `passUsesDepth`. -/
def passUsesDepth (s : Tr2RenderContextAL) : Bool :=
  if s.graphFrameActive ∧ s.graphActivePass ≠ INVALID_PASS then
    s.graph.passAttachments.any fun attachment =>
      attachment.pass = s.graphActivePass ∧ attachment.isDepth
  else true

-- ---------------------------------------------------------------------------
-- Draws
-- ---------------------------------------------------------------------------

/-- A command goes into the current command buffer. -/
def record (s : Tr2RenderContextAL) (command : Command) : Tr2RenderContextAL :=
  { s with commands := s.commands ++ [(s.vulkan.frame.commandBuffer, command)] }

/-- The descriptor set is bound when it is valid. -/
def bindDescriptorSet (s : Tr2RenderContextAL) : Tr2RenderContextAL :=
  match s.resourceSet with
  | some set =>
    if set ≠ VK_NULL_HANDLE then s.record (.bindDescriptorSets s.shaderProgram.pipelineLayout set)
    else s
  | none => s

/-- The buffer of a stream is bound when it is valid. -/
def bindVertexBuffer (s : Tr2RenderContextAL) (stream : Fin 4) : Tr2RenderContextAL :=
  match s.vertexBuffers stream with
  | some (buffer, offset) => s.record (.bindVertexBuffers stream buffer offset)
  | none => s

/-- All of them, one after the other. -/
def bindVertexBuffers (s : Tr2RenderContextAL) : Tr2RenderContextAL :=
  (List.finRange 4).foldl bindVertexBuffer s

/-- The depth format that a draw needs. -/
def depthFormat (s : Tr2RenderContextAL) : VkFormat :=
  if s.passUsesDepth then s.vulkan.swapchain.depthFormat else .VK_FORMAT_UNDEFINED

/-- What a pipeline has to be made from now. -/
def current (s : Tr2RenderContextAL) : PipelineState where
  program := s.shaderProgram
  topology := s.topology
  colorFormat := s.vulkan.swapchain.format
  depthFormat := s.depthFormat

/-- The layout that is set, if it is one and valid. -/
def validLayout (s : Tr2RenderContextAL) : Option LayoutId :=
  s.vertexLayout.filter fun id => (s.layouts id).isValid

/-- The reference to `m_shaderProgram`. -/
def programReference (s : Tr2RenderContextAL) : Reference Tr2ShaderProgramAL :=
  ⟨s.shaderProgramAddress, s.shaderProgram⟩

/-- The call of `GetPipeline` or of `GetPipelineNoDepth`. -/
def callGetPipeline (s : Tr2RenderContextAL) (id : LayoutId) (created : Option Handle) :
    Option (Option VkPipeline × Tr2VertexLayoutAL) :=
  if s.passUsesDepth then
    (s.layouts id).getPipeline s.programReference s.topology s.vulkan.swapchain.format
      s.vulkan.swapchain.depthFormat created
  else
    (s.layouts id).getPipelineNoDepth s.programReference s.topology s.vulkan.swapchain.format
      created

/-- The context after a layout was asked for a pipeline. -/
def asked (s : Tr2RenderContextAL) (id : LayoutId) (pipeline : Option VkPipeline)
    (layout : Tr2VertexLayoutAL) : Tr2RenderContextAL :=
  { s with
    vulkan := { s.vulkan with handles := s.vulkan.handles + 1 }
    layouts := Function.update s.layouts id layout
    destroyed := s.destroyed ++
      ((s.layouts id).replaced s.programReference s.topology s.vulkan.swapchain.format
        s.depthFormat).toList
    draws := s.draws ++ [{ layout := id, current := s.current, pipeline }] }

/-- `BindFrameResources`, where `answer` is what `vkCreateGraphicsPipelines` answers if it
is called. -/
def bindFrameResources (s : Tr2RenderContextAL) (answer : VkResult) :
    Option (ALResult × Tr2RenderContextAL) :=
  if !s.shaderProgram.isValid then some (.E_INVALIDCALL, s)
  else
    let s := s.bindDescriptorSet
    match s.validLayout with
    | none => some (.S_OK, s.bindVertexBuffers)
    | some id =>
      let created := if answer = .success then some (s.vulkan.handles + 1) else none
      match s.callGetPipeline id created with
      | none => none
      | some (none, layout) => some (.E_FAIL, s.asked id none layout)
      | some (some pipeline, layout) =>
        let s := s.asked id (some pipeline) layout
        some (.S_OK, (s.record (.bindPipeline pipeline)).bindVertexBuffers)

end Tr2RenderContextAL

-- ---------------------------------------------------------------------------
-- Runs
-- ---------------------------------------------------------------------------

/-- The public calls, and what the device does in between. -/
inductive Action where
  | setTopology (topology : Topology)
  | setShaderProgram (shaderProgram : Tr2ShaderProgramAL)
  | setResourceSet (resourceSet : Option Handle)
  | setVertexLayout (vertexLayout : Option LayoutId)
  | setStreamSource (stream : Nat) (buffer : Option Handle) (offset : UInt32)
  | beginGraphFrame
  | setGraphResult (graph : CompileResult)
  | registerGraphTexture (resource : ResourceId) (isValid : Bool)
  | registerGraphBuffer (resource : ResourceId) (isValid : Bool)
  | beginGraphPass (pass : PassId)
  | endGraphPass
  | endGraphFrame
  /-- A draw, as far as `BindFrameResources`. -/
  | draw (answer : VkResult)
  /-- A call on `m_vulkan`. -/
  | vulkan (call : Call)
  /-- The swapchain has got other formats. -/
  | changeFormats (format depthFormat : VkFormat)

/-- A call, with its result. -/
def Action.perform (action : Action) (s : Tr2RenderContextAL) :
    Option (ALResult × Tr2RenderContextAL) :=
  match action with
  | .setTopology topology => some (.S_OK, s.setTopology topology)
  | .setShaderProgram shaderProgram => some (.S_OK, s.setShaderProgram shaderProgram)
  | .setResourceSet resourceSet => some (.S_OK, s.setResourceSet resourceSet)
  | .setVertexLayout vertexLayout => some (.S_OK, s.setVertexLayout vertexLayout)
  | .setStreamSource stream buffer offset => some (s.setStreamSource stream buffer offset)
  | .beginGraphFrame => some (.S_OK, s.beginGraphFrame)
  | .setGraphResult graph => some (.S_OK, s.setGraphResult graph)
  | .registerGraphTexture resource isValid => some (s.registerGraphTexture resource isValid)
  | .registerGraphBuffer resource isValid => some (s.registerGraphBuffer resource isValid)
  | .beginGraphPass pass => s.beginGraphPass pass
  | .endGraphPass => some s.endGraphPass
  | .endGraphFrame => some s.endGraphFrame
  | .draw answer => s.bindFrameResources answer
  | .vulkan call =>
    (call.perform s.vulkan).map fun performed => (performed.1, { s with vulkan := performed.2 })
  | .changeFormats format depthFormat =>
    some (.S_OK, { s with vulkan := { s.vulkan with
      swapchain := { s.vulkan.swapchain with format, depthFormat } } })

/-- The context after a call. -/
def Tr2RenderContextAL.step (s : Tr2RenderContextAL) (action : Action) :
    Option Tr2RenderContextAL :=
  (action.perform s).map Prod.snd

/-- A new context, and the layouts that there are to draw with: a layout is valid when its
`Create` has got through. The constructor does not initialise the members of the render
graph, so these can be anything. -/
def Tr2RenderContextAL.construct (vulkan : VulkanContext) (shaderProgramAddress : Address)
    (vertexInputs : LayoutId → Option VertexInput) (graphActivePass : PassId)
    (graphFrameActive graphPassHasRendering : Bool) : Tr2RenderContextAL where
  vulkan := vulkan
  shaderProgramAddress := shaderProgramAddress
  graphActivePass := graphActivePass
  graphFrameActive := graphFrameActive
  graphPassHasRendering := graphPassHasRendering
  layouts id :=
    match vertexInputs id with
    | some vertexInput => { isValid := true, vertexInput }
    | none => {}

end Ithax.Vulkan
