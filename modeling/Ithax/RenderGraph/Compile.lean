import Ithax.Lib.Kahn
import Ithax.RenderGraph.Graph

/-!
# Compiling a render graph

`Tr2RenderGraphAL::Compile`: checks, execution order, dead-pass culling, lifetimes,
attachments and barriers.
-/

namespace Ithax.RenderGraph

open Ithax.Lib

-- ---------------------------------------------------------------------------
-- The result
-- ---------------------------------------------------------------------------

/-- `ImageBarrier`, with stages and accesses as Vulkan's bits. -/
structure ImageBarrier where
  beforePass : PassId := INVALID_PASS
  resource : ResourceId := INVALID_RESOURCE
  srcStage : UInt64 := 0
  srcAccess : UInt64 := 0
  dstStage : UInt64 := 0
  dstAccess : UInt64 := 0
  oldLayout : ImageLayout := .undefined
  newLayout : ImageLayout := .undefined
  deriving DecidableEq, Repr

/-- `BufferBarrier`. -/
structure BufferBarrier where
  beforePass : PassId := INVALID_PASS
  resource : ResourceId := INVALID_RESOURCE
  srcStage : UInt64 := 0
  srcAccess : UInt64 := 0
  dstStage : UInt64 := 0
  dstAccess : UInt64 := 0
  deriving DecidableEq, Repr

/-- `ResourceLifetime`: the passes of the first and the last surviving use. -/
structure ResourceLifetime where
  resource : ResourceId := INVALID_RESOURCE
  isImage : Bool := false
  used : Bool := false
  firstPass : PassId := INVALID_PASS
  lastPass : PassId := INVALID_PASS
  deriving DecidableEq, Repr

/-- `PassAttachment`. -/
structure PassAttachment where
  pass : PassId := INVALID_PASS
  image : ResourceId := INVALID_RESOURCE
  attachmentSlot : Nat := 0
  isDepth : Bool := false
  loadOp : LoadOp := .load
  storeOp : StoreOp := .store
  clearValue : ClearValue := {}
  deriving DecidableEq, Repr

/-- `CompiledPass`; `orderIndex` is `UINT32_MAX` for a culled pass. -/
structure CompiledPass where
  passId : PassId := INVALID_PASS
  name : String := ""
  queue : Queue := .graphics
  culled : Bool := false
  orderIndex : Nat := 0
  deriving DecidableEq, Repr

/-- `CompileResult`. -/
structure CompileResult where
  passes : List CompiledPass
  imageBarriers : List ImageBarrier
  bufferBarriers : List BufferBarrier
  lifetimes : List ResourceLifetime
  passAttachments : List PassAttachment
  deriving DecidableEq, Repr

-- ---------------------------------------------------------------------------
-- Access kinds
-- ---------------------------------------------------------------------------

/-- What a barrier says of an image access. -/
structure ImageAccessInfo where
  stage : UInt64
  access : UInt64
  layout : ImageLayout

/-- The table of the image accesses. -/
def getImageAccessInfo : ImageAccess → ImageAccessInfo
  | .colorAttachment => ⟨0x400, 0x100, .colorAttachmentOptimal⟩
  | .depthAttachment => ⟨0x100 ||| 0x200, 0x200 ||| 0x400, .depthStencilAttachmentOptimal⟩
  | .shaderRead => ⟨0x8 ||| 0x80, 0x100000000, .shaderReadOnlyOptimal⟩
  | .transferWrite => ⟨0x1000, 0x1000, .transferDstOptimal⟩
  | .transferRead => ⟨0x1000, 0x800, .transferSrcOptimal⟩

/-- What a barrier says of a buffer access. -/
structure BufferAccessInfo where
  stage : UInt64
  access : UInt64

/-- The table of the buffer accesses. -/
def getBufferAccessInfo : BufferAccess → BufferAccessInfo
  | .vertexRead => ⟨0x4, 0x4⟩
  | .indexRead => ⟨0x4, 0x2⟩
  | .shaderRead => ⟨0x8 ||| 0x80, 0x8 ||| 0x200000000⟩
  | .transferWrite => ⟨0x1000, 0x1000⟩
  | .transferRead => ⟨0x1000, 0x800⟩

/-- The layout an access needs. -/
def ImageAccess.layout (access : ImageAccess) : ImageLayout := (getImageAccessInfo access).layout

-- ---------------------------------------------------------------------------
-- Checks and ordering
-- ---------------------------------------------------------------------------

/-- The checks of one resource. Buffers have none. -/
def validateResource (resource : Resource) : Except String Unit :=
  if resource.isImage then
    if resource.presented ∧ resource.imageUses = [] then
      .error s!"presented image '{resource.name}' has no declared uses"
    else
      match resource.imageUses with
      | [] => .ok ()
      | use :: _ =>
        if resource.initialLayout = .undefined ∧ use.isRead then
          .error s!"image '{resource.name}' is read before its first write"
        else .ok ()
  else .ok ()

/-- The edges between consecutive uses of one resource; two reads get none. -/
def useEdges : List UseMark → List (PassId × PassId)
  | previous :: current :: rest =>
    if previous.isRead ∧ current.isRead then useEdges (current :: rest)
    else (previous.pass, current.pass) :: useEdges (current :: rest)
  | _ => []

/-- All ordering edges, resource by resource. -/
def orderingEdges (g : Graph) : List (PassId × PassId) :=
  g.resources.flatMap fun resource => useEdges resource.uses

/-- The first edge from a pass to itself is reported under the pass's name. -/
def checkSelfEdges (g : Graph) : Except String Unit :=
  match (orderingEdges g).find? fun edge => edge.1 = edge.2 with
  | none => .ok ()
  | some edge =>
    let name := (g.passes[edge.1]?.map Pass.name).getD ""
    .error s!"pass '{name}' reads and writes the same resource"

/-- The passes in topological order, ties broken by the smaller id. -/
def topologicalOrder (g : Graph) : List PassId :=
  (kahn g.passes.length (orderingEdges g)).order

-- ---------------------------------------------------------------------------
-- Culling
-- ---------------------------------------------------------------------------

/-- The pass writes a presented image. -/
def writesPresented (resource : Resource) (pass : PassId) : Bool :=
  resource.presented && resource.isImage &&
    resource.imageUses.any fun use => !use.isRead && use.pass == pass

/-- The pass writes what another surviving pass reads. -/
def feedsSurvivor (uses : List UseMark) (surviving : PassId → Bool) (pass : PassId) : Bool :=
  uses.any fun use => use.pass == pass && !use.isRead &&
    uses.any fun reader => reader.pass != pass && reader.isRead && surviving reader.pass

/-- Why a pass is kept: it may not be culled, or something that it writes is wanted. -/
def hasReasonToSurvive (g : Graph) (surviving : PassId → Bool) (pass : PassId) : Bool :=
  !(g.passes[pass]?.any Pass.cullable) ||
    g.resources.any fun resource =>
      writesPresented resource pass ||
      feedsSurvivor (resource.imageUses.map ImageUse.mark) surviving pass ||
      feedsSurvivor (resource.bufferUses.map BufferUse.mark) surviving pass

/-- The passes are visited from the last to the first. -/
def cullStep (g : Graph) (surviving : PassId → Bool) (pass : PassId) : PassId → Bool :=
  if hasReasonToSurvive g surviving pass then Function.update surviving pass true else surviving

/-- The passes that are kept by the one sweep. -/
def survivors (g : Graph) (order : List PassId) : PassId → Bool :=
  order.reverse.foldl (cullStep g) fun _ => false

-- ---------------------------------------------------------------------------
-- Numbering
-- ---------------------------------------------------------------------------

/-- The entry of the next pass in the order. Only the survivors are counted. -/
def numberPass (g : Graph) (surviving : PassId → Bool) (s : List CompiledPass × Nat)
    (pass : PassId) : List CompiledPass × Nat :=
  let declared := g.passes[pass]?.getD { name := "" }
  let culled := !surviving pass
  (s.1.set pass {
      passId := pass
      name := declared.name
      queue := declared.queue
      culled
      orderIndex := if culled then UINT32_MAX else s.2 },
    if culled then s.2 else s.2 + 1)

/-- The entries of all passes. -/
def compiledPasses (g : Graph) (surviving : PassId → Bool) (order : List PassId) :
    List CompiledPass :=
  (order.foldl (numberPass g surviving) (List.replicate g.passes.length {}, 0)).1

-- ---------------------------------------------------------------------------
-- Lifetimes and attachments
-- ---------------------------------------------------------------------------

/-- One surviving use more. The first one sets `firstPass`, every one `lastPass`. -/
def extendLifetime (lifetime : ResourceLifetime) (use : UseMark) : ResourceLifetime :=
  { lifetime with
    used := true
    firstPass := if lifetime.firstPass = INVALID_PASS then use.pass else lifetime.firstPass
    lastPass := use.pass }

/-- The lifetime of a resource, along its declared uses. -/
def lifetimeOf (surviving : PassId → Bool) (resource : Resource) (r : ResourceId) :
    ResourceLifetime :=
  (resource.uses.filter fun use => surviving use.pass).foldl extendLifetime
    { resource := r, isImage := resource.isImage }

/-- One image use of `pass`: its attachments so far and the next color slot. -/
def attachUse (pass : PassId) (r : ResourceId) (s : List PassAttachment × Nat)
    (use : ImageUse) : List PassAttachment × Nat :=
  if use.pass ≠ pass ∨ use.isRead then s
  else
    let attachment : PassAttachment := {
      pass
      image := r
      loadOp := use.loadOp
      storeOp := use.storeOp
      clearValue := use.clearValue }
    if use.access = .depthAttachment then
      (s.1 ++ [{ attachment with attachmentSlot := 4, isDepth := true }], s.2)
    else if use.access = .colorAttachment ∧ s.2 < 4 then
      (s.1 ++ [{ attachment with attachmentSlot := s.2, isDepth := false }], s.2 + 1)
    else s

/-- The attachments of a pass, image by image; the color slots go on from one to the next. -/
def attachmentsOf (g : Graph) (pass : PassId) : List PassAttachment :=
  (g.resources.zipIdx.foldl (fun s (resource, r) =>
    if resource.isImage then resource.imageUses.foldl (attachUse pass r) s else s) ([], 0)).1

-- ---------------------------------------------------------------------------
-- Barriers
-- ---------------------------------------------------------------------------

/-- What the walk over the uses of an image carries along. -/
structure ImageScan where
  currentLayout : ImageLayout
  previousStage : UInt64 := 0
  previousAccess : UInt64 := 0
  previousWasWrite : Bool := true
  havePrevious : Bool := false
  barriers : List ImageBarrier := []

/-- No barrier stands before the first use when it finds its layout, nor between two reads in
one. -/
def ImageScan.needsBarrier (s : ImageScan) (use : ImageUse) : Bool :=
  if s.havePrevious then
    use.access.layout != s.currentLayout || s.previousWasWrite || !use.isRead
  else use.access.layout != s.currentLayout

/-- One surviving use. -/
def ImageScan.use (r : ResourceId) (s : ImageScan) (use : ImageUse) : ImageScan :=
  let info := getImageAccessInfo use.access
  { currentLayout := info.layout
    previousStage := info.stage
    previousAccess := info.access
    previousWasWrite := !use.isRead
    havePrevious := true
    barriers :=
      if s.needsBarrier use then
        s.barriers ++ [{
          beforePass := use.pass
          resource := r
          srcStage := if s.havePrevious then s.previousStage else 0x1
          srcAccess := if s.havePrevious then s.previousAccess else 0
          dstStage := info.stage
          dstAccess := info.access
          oldLayout := s.currentLayout
          newLayout := info.layout }]
      else s.barriers }

/-- The transition of a presented image after its last use. -/
def ImageScan.present (r : ResourceId) (s : ImageScan) : ImageBarrier where
  beforePass := INVALID_PASS
  resource := r
  srcStage := s.previousStage
  srcAccess := s.previousAccess
  dstStage := 0x10000
  dstAccess := 0x8000 ||| 0x10000
  oldLayout := s.currentLayout
  newLayout := .presentSrc

/-- The walk over the surviving uses of an image. -/
def scanImage (surviving : PassId → Bool) (resource : Resource) (r : ResourceId) : ImageScan :=
  (resource.imageUses.filter fun use => surviving use.pass).foldl (ImageScan.use r)
    { currentLayout := resource.initialLayout }

/-- The barriers of an image. -/
def imageBarriersOf (surviving : PassId → Bool) (resource : Resource) (r : ResourceId) :
    List ImageBarrier :=
  if resource.isImage = false ∨ resource.imageUses = [] then []
  else
    let s := scanImage surviving resource r
    s.barriers ++ if resource.presented then [s.present r] else []

/-- What the walk over the uses of a buffer carries along. -/
structure BufferScan where
  previousStage : UInt64 := 0
  previousAccess : UInt64 := 0
  previousWasWrite : Bool := true
  havePrevious : Bool := false
  barriers : List BufferBarrier := []

/-- One surviving use. -/
def BufferScan.use (r : ResourceId) (s : BufferScan) (use : BufferUse) : BufferScan :=
  let info := getBufferAccessInfo use.access
  { previousStage := info.stage
    previousAccess := info.access
    previousWasWrite := !use.isRead
    havePrevious := true
    barriers :=
      if s.havePrevious && (s.previousWasWrite || !use.isRead ||
          info.stage != s.previousStage || info.access != s.previousAccess) then
        s.barriers ++ [{
          beforePass := use.pass
          resource := r
          srcStage := s.previousStage
          srcAccess := s.previousAccess
          dstStage := info.stage
          dstAccess := info.access }]
      else s.barriers }

/-- The barriers of a buffer. -/
def bufferBarriersOf (surviving : PassId → Bool) (resource : Resource) (r : ResourceId) :
    List BufferBarrier :=
  if resource.isImage ∨ resource.bufferUses = [] then []
  else ((resource.bufferUses.filter fun use => surviving use.pass).foldl (BufferScan.use r) {}).barriers

-- ---------------------------------------------------------------------------
-- Compile
-- ---------------------------------------------------------------------------

/-- The result for an order that holds every pass. -/
def assemble (g : Graph) (order : List PassId) : CompileResult :=
  let surviving := survivors g order
  { passes := compiledPasses g surviving order
    lifetimes := g.resources.zipIdx.map fun (resource, r) => lifetimeOf surviving resource r
    passAttachments := (List.range g.passes.length).flatMap fun pass =>
      if surviving pass then attachmentsOf g pass else []
    imageBarriers := g.resources.zipIdx.flatMap fun (resource, r) =>
      imageBarriersOf surviving resource r
    bufferBarriers := g.resources.zipIdx.flatMap fun (resource, r) =>
      bufferBarriersOf surviving resource r }

/-- `Compile`, with the error message of an `E_INVALIDCALL`. -/
def compile (g : Graph) : Except String CompileResult := do
  if g.passes = [] then throw "render graph has no passes"
  if g.resources = [] then throw "render graph has no resources"
  g.resources.forM validateResource
  checkSelfEdges g
  let order := topologicalOrder g
  if order.length ≠ g.passes.length then throw "render graph contains a cycle"
  return assemble g order

end Ithax.RenderGraph
