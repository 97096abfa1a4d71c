import Ithax.Vulkan.Device

/-!
# Vertex layouts and their pipelines

`trinityal-vulkan/Tr2VertexLayoutALVulkan.cpp`: a vertex layout keeps the pipeline that it
made last, with what it was made for. The shader program is told by where the wrapper lies
that `GetPipeline` was given, and not by the program in it.

Wrappers and the objects that they share are in a header of the engine that is not part of
the repository. A wrapper is its object here, with its address where a function looks at it.
What `vkCreateGraphicsPipelines` is given for a pipeline is the same for all pipelines or follows
from what is kept of it here.
-/

namespace Ithax.Vulkan

-- ---------------------------------------------------------------------------
-- Shader programs
-- ---------------------------------------------------------------------------

/-- `Tr2RenderContextEnum::Topology`. -/
inductive Topology where
  | TOP_INVALID | TOP_TRIANGLES | TOP_TRIANGLE_STRIP | TOP_LINES | TOP_LINE_STRIP | TOP_POINTS
  | other (value : Int)
  deriving DecidableEq, Repr

/-- `VkPipelineShaderStageCreateInfo`. -/
structure ShaderStage where
  stage : UInt32
  module : Handle
  deriving DecidableEq, Repr

/-- The object of a shader program. Every program has a pipeline layout of its own. -/
structure Tr2ShaderProgramAL where
  isValid : Bool := false
  pipelineLayout : Handle := VK_NULL_HANDLE
  /-- `m_stages` and `m_modules`. -/
  stages : List ShaderStage := []
  deriving DecidableEq, Repr

/-- Where a value lies. -/
abbrev Address := Nat

/-- A reference: where a value lies, and the value. -/
structure Reference (α : Type) where
  address : Address
  value : α
  deriving DecidableEq, Repr

-- ---------------------------------------------------------------------------
-- Pipelines
-- ---------------------------------------------------------------------------

/-- `VkVertexInputBindingDescription`. -/
structure VertexBinding where
  binding : UInt32
  stride : UInt32
  deriving DecidableEq, Repr

/-- `VkVertexInputAttributeDescription`. -/
structure VertexAttribute where
  location : UInt32
  binding : UInt32
  format : VkFormat
  offset : UInt32
  deriving DecidableEq, Repr

/-- What `Create` leaves behind in a layout. -/
structure VertexInput where
  bindings : List VertexBinding := []
  attributes : List VertexAttribute := []
  deriving DecidableEq, Repr

/-- What a pipeline is made from, apart from the layout. -/
@[ext]
structure PipelineState where
  program : Tr2ShaderProgramAL
  topology : Topology
  colorFormat : VkFormat
  depthFormat : VkFormat
  deriving DecidableEq, Repr

/-- There is a depth attachment. -/
def PipelineState.usesDepth (state : PipelineState) : Bool :=
  state.depthFormat ≠ .VK_FORMAT_UNDEFINED

/-- A pipeline, with what it was created from. -/
structure VkPipeline where
  handle : Handle
  vertexInput : VertexInput
  createdFrom : PipelineState
  deriving DecidableEq, Repr

/-- The room in the array `stages`. -/
def STAGE_COUNT : Nat := 6

-- ---------------------------------------------------------------------------
-- Layouts
-- ---------------------------------------------------------------------------

/-- `Tr2VertexLayoutAL`, with the pipeline that it made last. -/
structure Tr2VertexLayoutAL where
  isValid : Bool := false
  vertexInput : VertexInput := {}
  cachedPipeline : Option VkPipeline := none
  cachedProgram : Option Address := none
  cachedTopology : Topology := .TOP_INVALID
  cachedColorFormat : VkFormat := .VK_FORMAT_UNDEFINED
  cachedDepthFormat : VkFormat := .VK_FORMAT_UNDEFINED
  cachedUsesDepth : Bool := false
  deriving DecidableEq, Repr

namespace Tr2VertexLayoutAL

/-- The condition of the cache hit. -/
def hits (layout : Tr2VertexLayoutAL) (program : Reference Tr2ShaderProgramAL) (topology : Topology)
    (colorFormat depthFormat : VkFormat) : Bool :=
  layout.cachedPipeline ≠ none ∧
  layout.cachedProgram = some program.address ∧
  layout.cachedTopology = topology ∧
  layout.cachedColorFormat = colorFormat ∧
  layout.cachedDepthFormat = depthFormat ∧
  layout.cachedUsesDepth = decide (depthFormat ≠ .VK_FORMAT_UNDEFINED)

/-- `GetPipeline`: the pipeline, and the layout after it. `created` is the handle that
`vkCreateGraphicsPipelines` gives out, if it succeeds. A program with more stages than the
array has room for is not defined. -/
def getPipeline (layout : Tr2VertexLayoutAL) (program : Reference Tr2ShaderProgramAL)
    (topology : Topology) (colorFormat depthFormat : VkFormat) (created : Option Handle) :
    Option (Option VkPipeline × Tr2VertexLayoutAL) :=
  if layout.hits program topology colorFormat depthFormat then some (layout.cachedPipeline, layout)
  else if STAGE_COUNT < program.value.stages.length then none
  else
    match created with
    | none => some (none, { layout with cachedPipeline := none })
    | some handle =>
      let state : PipelineState := { program := program.value, topology, colorFormat, depthFormat }
      let pipeline : VkPipeline :=
        { handle, vertexInput := layout.vertexInput, createdFrom := state }
      some (some pipeline, { layout with
        cachedPipeline := some pipeline
        cachedProgram := some program.address
        cachedTopology := topology
        cachedColorFormat := colorFormat
        cachedDepthFormat := depthFormat
        cachedUsesDepth := state.usesDepth })

/-- `GetPipelineNoDepth`. -/
def getPipelineNoDepth (layout : Tr2VertexLayoutAL) (program : Reference Tr2ShaderProgramAL)
    (topology : Topology) (colorFormat : VkFormat) (created : Option Handle) :
    Option (Option VkPipeline × Tr2VertexLayoutAL) :=
  layout.getPipeline program topology colorFormat .VK_FORMAT_UNDEFINED created

/-- The pipeline that `GetPipeline` destroys: on a miss, the one that it had. -/
def replaced (layout : Tr2VertexLayoutAL) (program : Reference Tr2ShaderProgramAL)
    (topology : Topology) (colorFormat depthFormat : VkFormat) : Option VkPipeline :=
  if layout.hits program topology colorFormat depthFormat then none else layout.cachedPipeline

end Tr2VertexLayoutAL

end Ithax.Vulkan
