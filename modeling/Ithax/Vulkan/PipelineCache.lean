import Ithax.Vulkan.RecordingUse
import Ithax.Vulkan.RenderContext
import Ithax.Lib.Interleaving
import Ithax.Lib.OneEntryCache

/-!
# The pipeline of a draw

A layout is a cache of one pipeline. What a draw wants of it is a pipeline made from the
shader program, the topology and the formats that are current; the key of the cache has the
topology and the formats, and in place of the program the address of a member of the
context, which never changes. So a pipeline is made anew when the topology or a format is
another one than at the last draw with the layout, and not when the program is.

## Results

* `draws_match_iff` — when all draws of a run get a pipeline that was made from what was
  current.
-/

namespace Ithax.Vulkan

open Ithax.Lib
open Ithax.Lib.OneEntryCache
open Ithax.RenderGraph (PassId ResourceId INVALID_PASS)

-- ---------------------------------------------------------------------------
-- A layout as a cache
-- ---------------------------------------------------------------------------

/-- What `GetPipeline` compares. -/
structure PipelineKey where
  program : Address
  topology : Topology
  colorFormat : VkFormat
  depthFormat : VkFormat
  deriving DecidableEq, Repr

/-- The key of what a draw wants. The program is not in it, but where the context keeps it. -/
def PipelineState.key (program : Address) (state : PipelineState) : PipelineKey where
  program := program
  topology := state.topology
  colorFormat := state.colorFormat
  depthFormat := state.depthFormat

namespace Tr2VertexLayoutAL

/-- What is in the cache of a layout. -/
def Holds (layout : Tr2VertexLayoutAL) : Option (PipelineKey × VkPipeline) → Prop
  | none => layout.cachedPipeline = none
  | some (key, pipeline) =>
    layout.cachedPipeline = some pipeline ∧
    layout.cachedProgram = some key.program ∧
    layout.cachedTopology = key.topology ∧
    layout.cachedColorFormat = key.colorFormat ∧
    layout.cachedDepthFormat = key.depthFormat ∧
    layout.cachedUsesDepth = decide (key.depthFormat ≠ .VK_FORMAT_UNDEFINED)

variable {layout next : Tr2VertexLayoutAL} {cached : Option (PipelineKey × VkPipeline)}
  {program : Reference Tr2ShaderProgramAL} {topology : Topology}
  {colorFormat depthFormat : VkFormat} {created : Option Handle} {pipeline : Option VkPipeline}

/-- There is a hit exactly when the keys agree. -/
theorem Holds.hits_iff (h : layout.Holds cached) :
    layout.hits program topology colorFormat depthFormat = true ↔
      ∃ pipeline, cached =
        some (⟨program.address, topology, colorFormat, depthFormat⟩, pipeline) := by
  unfold hits
  rw [decide_eq_true_iff]
  match cached, h with
  | none, hNone =>
    constructor
    · rintro ⟨hSome, -⟩
      exact absurd hNone hSome
    · rintro ⟨pipeline, hNo⟩
      exact nomatch hNo
  | some (key, pipeline), ⟨hPipeline, hProgram, hTopology, hColor, hDepth, hUses⟩ =>
    rw [hProgram, hTopology, hColor, hDepth, hUses, hPipeline]
    constructor
    · rintro ⟨-, hAddress, rfl, rfl, rfl, -⟩
      exact ⟨pipeline, by rw [← Option.some.inj hAddress]⟩
    · rintro ⟨pipeline', hEq⟩
      obtain ⟨rfl, -⟩ := Prod.mk.inj (Option.some.inj hEq)
      exact ⟨Option.some_ne_none _, rfl, rfl, rfl, rfl, rfl⟩

/-- `GetPipeline` is a lookup, and leaves in the cache what it has found. -/
theorem Holds.getPipeline (h : layout.Holds cached)
    (hGet : layout.getPipeline program topology colorFormat depthFormat created =
      some (pipeline, next)) :
    ∃ made : Option VkPipeline,
      (∀ p ∈ made, p.createdFrom = ⟨program.value, topology, colorFormat, depthFormat⟩) ∧
      pipeline = find ⟨program.address, topology, colorFormat, depthFormat⟩ made cached ∧
      next.Holds (pipeline.map fun p =>
        (⟨program.address, topology, colorFormat, depthFormat⟩, p)) := by
  unfold Tr2VertexLayoutAL.getPipeline at hGet
  by_cases hHit : layout.hits program topology colorFormat depthFormat = true
  · rw [if_pos hHit] at hGet
    obtain ⟨rfl, rfl⟩ := Prod.mk.inj (Option.some.inj hGet)
    obtain ⟨p, rfl⟩ := h.hits_iff.mp hHit
    refine ⟨none, fun _ hNo => absurd hNo (Option.not_mem_none _), ?_, ?_⟩
    · rw [h.1, find_self]
    · rw [h.1]
      exact h
  · rw [if_neg hHit] at hGet
    -- on a miss the cache finds what is made
    have hFind : ∀ made : Option VkPipeline,
        find ⟨program.address, topology, colorFormat, depthFormat⟩ made cached = made := by
      intro made
      match cached, h with
      | none, _ => rfl
      | some (key, p), h =>
        refine find_of_ne _ _ fun hKey => hHit (h.hits_iff.mpr ⟨p, ?_⟩)
        rw [hKey]
    split at hGet
    · exact nomatch hGet
    · cases created with
      | none =>
        obtain ⟨rfl, rfl⟩ := Prod.mk.inj (Option.some.inj hGet)
        exact ⟨none, fun _ hNo => absurd hNo (Option.not_mem_none _), (hFind none).symm, rfl⟩
      | some handle =>
        obtain ⟨rfl, rfl⟩ := Prod.mk.inj (Option.some.inj hGet)
        refine ⟨_, ?_, (hFind _).symm, rfl, rfl, rfl, rfl, rfl, rfl⟩
        intro p hMade
        rw [← Option.some.inj hMade]

end Tr2VertexLayoutAL

-- ---------------------------------------------------------------------------
-- Draws
-- ---------------------------------------------------------------------------

/-- A draw and the one before it with the same layout: where the first got a pipeline and
the topology and formats are the same, so is the program. -/
def Draw.SameProgram (first second : Draw) : Prop :=
  first.pipeline.isSome → first.current.topology = second.current.topology →
    first.current.colorFormat = second.current.colorFormat →
    first.current.depthFormat = second.current.depthFormat →
    first.current.program = second.current.program

instance (first second : Draw) : Decidable (first.SameProgram second) :=
  inferInstanceAs (Decidable (_ → _ → _ → _ → _))

/-- The pipeline that the draw bound was made from what was current. -/
def Draw.Matches (draw : Draw) : Prop :=
  ∀ pipeline ∈ draw.pipeline, pipeline.createdFrom = draw.current

instance (draw : Draw) : Decidable draw.Matches :=
  inferInstanceAs (Decidable (∀ pipeline ∈ draw.pipeline, _))

/-- A draw as a lookup. -/
def Draw.lookup (draw : Draw) : Lookup PipelineState VkPipeline := ⟨draw.current, draw.pipeline⟩

/-- The draws with a layout. -/
def drawsWith (id : LayoutId) (draws : List Draw) : List Draw :=
  draws.filter fun draw => draw.layout = id

/-- The lookups in the cache of a layout. -/
def lookupsIn (id : LayoutId) (draws : List Draw) : List (Lookup PipelineState VkPipeline) :=
  (drawsWith id draws).map Draw.lookup

/-- One draw more. -/
theorem lookupsIn_append (id : LayoutId) (draws : List Draw) (draw : Draw) :
    lookupsIn id (draws ++ [draw]) =
      if draw.layout = id then lookupsIn id draws ++ [draw.lookup] else lookupsIn id draws := by
  unfold lookupsIn drawsWith
  by_cases hLayout : draw.layout = id
  · rw [if_pos hLayout, List.filter_append, List.map_append, List.filter_singleton,
      decide_eq_true hLayout]
    rfl
  · rw [if_neg hLayout, List.filter_append, List.filter_singleton, decide_eq_false hLayout]
    exact congrArg (List.map Draw.lookup) (List.append_nil _)

/-- The pipelines that commands bind. -/
def boundPipelines (commands : List (CommandBuffer × Command)) : List VkPipeline :=
  commands.filterMap fun command =>
    match command.2 with
    | .bindPipeline pipeline => some pipeline
    | _ => none

/-- The pipelines that commands bind, one after the other. -/
theorem boundPipelines_append (first second : List (CommandBuffer × Command)) :
    boundPipelines (first ++ second) = boundPipelines first ++ boundPipelines second :=
  List.filterMap_append

namespace Tr2RenderContextAL

variable {s next : Tr2RenderContextAL} {answer : VkResult} {result : ALResult}

/-- The commands are in the command buffer, and bind the pipelines. -/
structure BindsIn (buffer : CommandBuffer) (commands : List (CommandBuffer × Command))
    (pipelines : List VkPipeline) : Prop where
  inBuffer : ∀ command ∈ commands, command.1 = buffer
  bound : boundPipelines commands = pipelines

/-- No commands. -/
theorem BindsIn.nil (buffer : CommandBuffer) : BindsIn buffer [] [] where
  inBuffer _ hMem := absurd hMem List.not_mem_nil
  bound := rfl

/-- Commands after commands. -/
theorem BindsIn.append {buffer : CommandBuffer} {first second : List (CommandBuffer × Command)}
    {pipelines pipelines' : List VkPipeline} (h : BindsIn buffer first pipelines)
    (h' : BindsIn buffer second pipelines') :
    BindsIn buffer (first ++ second) (pipelines ++ pipelines') where
  inBuffer command hMem := (List.mem_append.mp hMem).elim (h.inBuffer command) (h'.inBuffer command)
  bound := by rw [boundPipelines_append, h.bound, h'.bound]

/-- One command. -/
theorem BindsIn.single {buffer : CommandBuffer} {command : Command} {pipelines : List VkPipeline}
    (h : boundPipelines [(buffer, command)] = pipelines) :
    BindsIn buffer [(buffer, command)] pipelines where
  inBuffer command' hMem := by rw [List.mem_singleton.mp hMem]
  bound := h

/-- The context has recorded commands, none of which binds a pipeline. -/
def Recorded (s next : Tr2RenderContextAL) : Prop :=
  ∃ commands, BindsIn s.vulkan.frame.commandBuffer commands [] ∧
    next = { s with commands := s.commands ++ commands }

/-- Nothing is recorded. -/
theorem Recorded.refl (s : Tr2RenderContextAL) : s.Recorded s :=
  ⟨[], .nil _, by rw [List.append_nil]⟩

/-- Recorded once, and once more. -/
theorem Recorded.trans {mid : Tr2RenderContextAL} (h : s.Recorded mid) (h' : mid.Recorded next) :
    s.Recorded next := by
  obtain ⟨first, hFirst, rfl⟩ := h
  obtain ⟨second, hSecond, rfl⟩ := h'
  refine ⟨first ++ second, hFirst.append hSecond, ?_⟩
  rw [List.append_assoc]

/-- A descriptor set is bound. -/
theorem recorded_bindDescriptorSet (s : Tr2RenderContextAL) : s.Recorded s.bindDescriptorSet := by
  unfold bindDescriptorSet
  split
  · split
    · exact ⟨_, .single rfl, rfl⟩
    · exact Recorded.refl s
  · exact Recorded.refl s

/-- A vertex buffer is bound. -/
theorem recorded_bindVertexBuffer (s : Tr2RenderContextAL) (stream : Fin 4) :
    s.Recorded (s.bindVertexBuffer stream) := by
  unfold bindVertexBuffer
  split
  · exact ⟨_, .single rfl, rfl⟩
  · exact Recorded.refl s

/-- Vertex buffers are bound one after the other. -/
theorem recorded_foldl : ∀ (streams : List (Fin 4)) (s : Tr2RenderContextAL),
    s.Recorded (streams.foldl bindVertexBuffer s)
  | [], s => Recorded.refl s
  | stream :: streams, s =>
    (recorded_bindVertexBuffer s stream).trans (recorded_foldl streams (s.bindVertexBuffer stream))

/-- All vertex buffers are bound. -/
theorem recorded_bindVertexBuffers (s : Tr2RenderContextAL) : s.Recorded s.bindVertexBuffers :=
  recorded_foldl _ s

/-- What a draw asks its layout for. -/
theorem callGetPipeline_eq (id : LayoutId) (created : Option Handle) :
    s.callGetPipeline id created =
      (s.layouts id).getPipeline s.programReference s.topology s.vulkan.swapchain.format
        s.depthFormat created := by
  unfold callGetPipeline depthFormat Tr2VertexLayoutAL.getPipelineNoDepth
  split
  · rfl
  · rfl

/-- The layout that a draw asks for a pipeline. -/
def asks (s : Tr2RenderContextAL) : Option LayoutId :=
  if s.shaderProgram.isValid then s.validLayout else none

/-- What a draw can do: it fails or has no layout, or it asks its layout for a pipeline and
binds the one that it gets. -/
theorem bindFrameResources_cases (h : s.bindFrameResources answer = some (result, next)) :
    s.asks = none ∧ s.Recorded next ∨
    ∃ id created pipeline layout commands, s.asks = some id ∧
      (∀ handle ∈ created, handle = s.vulkan.handles + 1) ∧
      (s.layouts id).getPipeline s.programReference s.topology s.vulkan.swapchain.format
        s.depthFormat created = some (pipeline, layout) ∧
      BindsIn s.vulkan.frame.commandBuffer commands pipeline.toList ∧
      next = { s.asked id pipeline layout with commands := s.commands ++ commands } := by
  unfold bindFrameResources at h
  split at h
  · rename_i hInvalid
    obtain ⟨-, rfl⟩ := Prod.mk.inj (Option.some.inj h)
    have hAsks : s.asks = none := if_neg (Bool.eq_false_iff.mp (Bool.not_eq_true' _ ▸ hInvalid))
    exact .inl ⟨hAsks, Recorded.refl s⟩
  · rename_i hValid
    have hAsks : s.asks = s.validLayout := if_pos (by simpa using hValid)
    rw [hAsks]
    obtain ⟨sets, hSets, hBound⟩ := recorded_bindDescriptorSet s
    simp only [hBound] at h
    split at h
    · rename_i hLayout
      obtain ⟨-, rfl⟩ := Prod.mk.inj (Option.some.inj h)
      exact .inl ⟨hLayout, Recorded.trans ⟨sets, hSets, rfl⟩ (recorded_bindVertexBuffers _)⟩
    · rename_i id hLayout
      rw [callGetPipeline_eq] at h
      have hFresh : ∀ handle ∈ (if answer = .success then some (s.vulkan.handles + 1) else none),
          handle = s.vulkan.handles + 1 := by
        intro handle hMem
        split at hMem
        · exact (Option.some.inj hMem).symm
        · exact nomatch hMem
      split at h
      · exact nomatch h
      · rename_i layout hGet
        obtain ⟨-, rfl⟩ := Prod.mk.inj (Option.some.inj h)
        exact .inr ⟨id, _, none, layout, sets, hLayout, hFresh, hGet, hSets, rfl⟩
      · rename_i pipeline layout hGet
        obtain ⟨-, rfl⟩ := Prod.mk.inj (Option.some.inj h)
        obtain ⟨buffers, hBuffers, hEnd⟩ := recorded_bindVertexBuffers
          ((asked { s with commands := s.commands ++ sets } id (some pipeline) layout).record
            (.bindPipeline pipeline))
        have hBind : BindsIn s.vulkan.frame.commandBuffer
            [(s.vulkan.frame.commandBuffer, .bindPipeline pipeline)] [pipeline] :=
          .single rfl
        refine .inr ⟨id, _, some pipeline, layout, _, hLayout, hFresh, hGet,
          (hSets.append hBind).append hBuffers, ?_⟩
        rw [hEnd]
        simp only [record, asked, List.append_assoc]
        rfl

-- ---------------------------------------------------------------------------
-- Steps
-- ---------------------------------------------------------------------------

/-- A step has left alone what the draws are about. -/
structure Untouched (s next : Tr2RenderContextAL) : Prop where
  address : next.shaderProgramAddress = s.shaderProgramAddress
  layouts : next.layouts = s.layouts
  commands : next.commands = s.commands
  destroyed : next.destroyed = s.destroyed
  draws : next.draws = s.draws
  vulkan : s.vulkan.Continues next.vulkan

/-- Nothing was done. -/
theorem Untouched.refl (s : Tr2RenderContextAL) : s.Untouched s :=
  ⟨rfl, rfl, rfl, rfl, rfl, .refl _⟩

/-- A step that always has a result. -/
theorem Untouched.of_performed {performed : ALResult × Tr2RenderContextAL}
    (h : some performed = some (result, next)) (hSame : s.Untouched performed.2) :
    s.Untouched next := by
  obtain rfl := Option.some.inj h
  exact hSame

/-- A stream source is set. -/
theorem untouched_setStreamSource (stream : Nat) (buffer : Option Handle) (offset : UInt32) :
    s.Untouched (s.setStreamSource stream buffer offset).2 := by
  unfold setStreamSource
  split
  · exact ⟨rfl, rfl, rfl, rfl, rfl, .refl _⟩
  · exact Untouched.refl s

/-- A texture of the graph is registered. -/
theorem untouched_registerGraphTexture (resource : ResourceId) (isValid : Bool) :
    s.Untouched (s.registerGraphTexture resource isValid).2 := by
  unfold registerGraphTexture
  split
  · exact ⟨rfl, rfl, rfl, rfl, rfl, .refl _⟩
  · exact Untouched.refl s

/-- A buffer of the graph is registered. -/
theorem untouched_registerGraphBuffer (resource : ResourceId) (isValid : Bool) :
    s.Untouched (s.registerGraphBuffer resource isValid).2 := by
  unfold registerGraphBuffer
  split
  · exact ⟨rfl, rfl, rfl, rfl, rfl, .refl _⟩
  · exact Untouched.refl s

/-- A pass begins. -/
theorem untouched_beginGraphPass {pass : PassId} (h : s.beginGraphPass pass = some (result, next)) :
    s.Untouched next := by
  unfold beginGraphPass at h
  split at h
  · obtain ⟨-, rfl⟩ := Prod.mk.inj (Option.some.inj h)
    exact Untouched.refl s
  · split at h
    · obtain ⟨-, rfl⟩ := Prod.mk.inj (Option.some.inj h)
      exact Untouched.refl s
    · split at h
      · exact nomatch h
      · obtain ⟨-, rfl⟩ := Prod.mk.inj (Option.some.inj h)
        exact Untouched.refl s
      · obtain ⟨-, rfl⟩ := Prod.mk.inj (Option.some.inj h)
        exact ⟨rfl, rfl, rfl, rfl, rfl, .refl _⟩

/-- A pass ends. -/
theorem untouched_endGraphPass : s.Untouched s.endGraphPass.2 := by
  unfold endGraphPass
  split
  · exact Untouched.refl s
  · exact ⟨rfl, rfl, rfl, rfl, rfl, .refl _⟩

/-- The frame of the graph ends. -/
theorem untouched_endGraphFrame : s.Untouched s.endGraphFrame.2 := by
  unfold endGraphFrame
  split
  · exact Untouched.refl s
  · split
    · exact { untouched_endGraphPass with }
    · exact ⟨rfl, rfl, rfl, rfl, rfl, .refl _⟩

/-- Everything but a draw. -/
theorem untouched_perform {action : Action} (h : action.perform s = some (result, next))
    (hNoDraw : ∀ answer, action ≠ .draw answer) : s.Untouched next := by
  cases action with
  | draw answer => exact absurd rfl (hNoDraw answer)
  | setStreamSource stream buffer offset =>
    exact .of_performed h (untouched_setStreamSource stream buffer offset)
  | registerGraphTexture resource isValid =>
    exact .of_performed h (untouched_registerGraphTexture resource isValid)
  | registerGraphBuffer resource isValid =>
    exact .of_performed h (untouched_registerGraphBuffer resource isValid)
  | beginGraphPass pass => exact untouched_beginGraphPass h
  | endGraphPass =>
    exact .of_performed h untouched_endGraphPass
  | endGraphFrame =>
    exact .of_performed h untouched_endGraphFrame
  | vulkan call =>
    obtain ⟨performed, hCall, hEq⟩ := Option.map_eq_some_iff.mp h
    obtain ⟨-, rfl⟩ := Prod.mk.inj hEq
    have hStep : Vulkan.step s.vulkan call = some performed.2 := by
      rw [Vulkan.step, hCall]
      rfl
    exact ⟨rfl, rfl, rfl, rfl, rfl, continues_step hStep⟩
  | changeFormats format depthFormat =>
    obtain ⟨-, rfl⟩ := Prod.mk.inj (Option.some.inj h)
    exact ⟨rfl, rfl, rfl, rfl, rfl, Spared.swapchain (VulkanContext.Continues.refl _)⟩
  | _ =>
    obtain ⟨-, rfl⟩ := Prod.mk.inj (Option.some.inj h)
    exact ⟨rfl, rfl, rfl, rfl, rfl, .refl _⟩

/-- The caches of the layouts are what the draws have made of them, and the draws have
bound the pipelines that they got. -/
structure Cached (s : Tr2RenderContextAL) : Prop where
  answered : ∀ id, Answered (PipelineState.key s.shaderProgramAddress) VkPipeline.createdFrom
    (lookupsIn id s.draws)
  holds : ∀ id, (s.layouts id).Holds
    (after (PipelineState.key s.shaderProgramAddress) (lookupsIn id s.draws))
  bound : boundPipelines s.commands = s.draws.filterMap Draw.pipeline

/-- A step that leaves the draws alone. -/
theorem Cached.untouched (h : s.Cached) (hSame : s.Untouched next) : next.Cached where
  answered id := by
    rw [hSame.address, hSame.draws]
    exact h.answered id
  holds id := by
    rw [hSame.address, hSame.layouts, hSame.draws]
    exact h.holds id
  bound := by
    rw [hSame.commands, hSame.draws]
    exact h.bound

/-- Commands that bind no pipeline. -/
theorem Cached.recorded (h : s.Cached) (hRecorded : s.Recorded next) : next.Cached := by
  obtain ⟨commands, hNone, rfl⟩ := hRecorded
  refine { h with bound := ?_ }
  rw [boundPipelines_append, hNone.bound, List.append_nil]
  exact h.bound

/-- A draw is one more lookup in the cache of its layout. -/
theorem Cached.draw (h : s.Cached) {id : LayoutId} {created : Option Handle}
    {pipeline : Option VkPipeline} {layout : Tr2VertexLayoutAL}
    {commands : List (CommandBuffer × Command)}
    (hGet : (s.layouts id).getPipeline s.programReference s.topology s.vulkan.swapchain.format
      s.depthFormat created = some (pipeline, layout))
    (hBound : BindsIn s.vulkan.frame.commandBuffer commands pipeline.toList) :
    Cached { s.asked id pipeline layout with commands := s.commands ++ commands } := by
  obtain ⟨made, hMade, hFind, hHolds⟩ := (h.holds id).getPipeline hGet
  refine ⟨?_, ?_, ?_⟩
  · intro other
    show Answered _ _ (lookupsIn other (s.draws ++ [⟨id, s.current, pipeline⟩]))
    rw [lookupsIn_append]
    split
    · rename_i hSame
      obtain rfl : id = other := hSame
      unfold Draw.lookup
      rw [hFind]
      exact (h.answered id).lookup hMade
    · exact h.answered other
  · intro other
    show Tr2VertexLayoutAL.Holds (Function.update s.layouts id layout other)
      (after _ (lookupsIn other (s.draws ++ [(⟨id, s.current, pipeline⟩ : Draw)])))
    rw [lookupsIn_append]
    split
    · rename_i hSame
      obtain rfl : id = other := hSame
      rw [Function.update_self, after_append_singleton]
      exact hHolds
    · rename_i hOther
      rw [Function.update_of_ne (Ne.symm hOther)]
      exact h.holds other
  · show boundPipelines (s.commands ++ commands) =
      (s.draws ++ [(⟨id, s.current, pipeline⟩ : Draw)]).filterMap Draw.pipeline
    rw [boundPipelines_append, hBound.bound, h.bound, List.filterMap_append]
    cases pipeline with
    | none => rfl
    | some pipeline => rfl

/-- A step: a draw is a lookup, and nothing else touches the caches. -/
theorem cached_step {action : Action} (h : s.Cached) (hStep : s.step action = some next) :
    next.Cached := by
  obtain ⟨⟨result, next⟩, hPerform, rfl⟩ := Option.map_eq_some_iff.mp hStep
  by_cases hDraw : ∃ answer, action = .draw answer
  · obtain ⟨answer, rfl⟩ := hDraw
    rcases bindFrameResources_cases hPerform with ⟨-, hRecorded⟩ | ⟨id, created, pipeline, layout,
      commands, -, -, hGet, hBound, rfl⟩
    · exact h.recorded hRecorded
    · exact h.draw hGet hBound
  · exact h.untouched (untouched_perform hPerform (not_exists.mp hDraw))

-- ---------------------------------------------------------------------------
-- Runs
-- ---------------------------------------------------------------------------

/-- A new context has empty caches. -/
theorem cached_construct (vulkan : VulkanContext) (address : Address)
    (vertexInputs : LayoutId → Option VertexInput) (pass : PassId) (active rendering : Bool) :
    (construct vulkan address vertexInputs pass active rendering).Cached where
  answered _ := .nil
  holds id := by
    show Tr2VertexLayoutAL.cachedPipeline _ = none
    cases hInput : vertexInputs id with
    | none => simp only [construct, hInput]
    | some vertexInput => simp only [construct, hInput]
  bound := rfl

/-- The key tells two draws with a layout apart, unless they differ in the program alone. -/
theorem told_lookup_iff {address : Address} {first second : Draw} :
    Told (PipelineState.key address) first.lookup second.lookup ↔ first.SameProgram second := by
  unfold Told Draw.SameProgram
  refine imp_congr_right fun _ => ?_
  constructor
  · intro hTold hTopology hColor hDepth
    refine congrArg PipelineState.program (hTold ?_)
    show PipelineState.key _ first.current = PipelineState.key _ second.current
    unfold PipelineState.key
    rw [hTopology, hColor, hDepth]
  · intro hSame hKey
    obtain ⟨-, hTopology, hColor, hDepth⟩ := PipelineKey.mk.inj hKey
    show first.current = second.current
    exact PipelineState.ext (hSame hTopology hColor hDepth) hTopology hColor hDepth

/-- All draws of a run bind a pipeline that was made from the program, the topology and the
formats that are current exactly when no layout is drawn with twice in a row with another
program, but the same topology and formats, unless the first draw got no pipeline. -/
theorem draws_match_iff {vulkan : VulkanContext} {address : Address}
    {vertexInputs : LayoutId → Option VertexInput} {pass : PassId} {active rendering : Bool}
    {actions : List Action} {s : Tr2RenderContextAL}
    (hRun : runEvents step (construct vulkan address vertexInputs pass active rendering) actions =
      some s) :
    boundPipelines s.commands = s.draws.filterMap Draw.pipeline ∧
    ((∀ draw ∈ s.draws, draw.Matches) ↔
      ∀ id, (drawsWith id s.draws).IsChain Draw.SameProgram) := by
  have hCached : s.Cached := runEvents_invariant cached_step
    (cached_construct vulkan address vertexInputs pass active rendering) hRun
  refine ⟨hCached.bound, ?_⟩
  have hLayout : ∀ id, (∀ draw ∈ drawsWith id s.draws, draw.Matches) ↔
      (drawsWith id s.draws).IsChain Draw.SameProgram := by
    intro id
    have hIff := (hCached.answered id).all_madeFrom_iff
    unfold lookupsIn at hIff
    rw [List.forall_mem_map, List.isChain_map] at hIff
    simp only [told_lookup_iff] at hIff
    exact hIff
  constructor
  · intro hAll id
    exact (hLayout id).mp fun draw hMem => hAll draw (List.mem_of_mem_filter hMem)
  · intro hChains draw hMem
    refine (hLayout draw.layout).mpr (hChains draw.layout) draw ?_
    exact List.mem_filter.mpr ⟨hMem, decide_eq_true rfl⟩

/-- A surface with the format that is looked for first. -/
def surfaceAnswers : Answers
  | .vkGetPhysicalDeviceSurfaceFormatsKHR =>
    [{ formats := [⟨.VK_FORMAT_B8G8R8A8_UNORM, .VK_COLOR_SPACE_SRGB_NONLINEAR_KHR⟩] }]
  | _ => []

/-- One of the two programs of the runs below. -/
def starProgram : Tr2ShaderProgramAL where
  isValid := true
  pipelineLayout := 11
  stages := [⟨1, 21⟩, ⟨16, 22⟩]

/-- The other one. -/
def texturedProgram : Tr2ShaderProgramAL where
  isValid := true
  pipelineLayout := 12
  stages := [⟨1, 23⟩, ⟨16, 24⟩]

/-- A device, and a context on it that draws with the layout `0`. -/
def drawnWith (actions : List Action) : Option Tr2RenderContextAL := do
  let vulkan ← createDevice false ⟨640, 480⟩ [.VK_FORMAT_D32_SFLOAT] surfaceAnswers
  runEvents step (construct vulkan 4096 (fun _ => some {}) INVALID_PASS false false)
    ([.vulkan (.beginFrame fun _ => []), .setVertexLayout (some 0)] ++ actions)

/-- What was drawn with the layout was drawn by a run. -/
theorem run_of_drawnWith {actions : List Action} {s : Tr2RenderContextAL}
    (h : drawnWith actions = some s) : ∃ vulkan actions',
    runEvents step (construct vulkan 4096 (fun _ => some {}) INVALID_PASS false false) actions' =
      some s := by
  unfold drawnWith at h
  obtain ⟨vulkan, -, hRun⟩ := Option.bind_eq_some_iff.mp h
  exact ⟨vulkan, _, hRun⟩

/-- The topology changes with the program. -/
def changedTopology : List Action :=
  [.setTopology .TOP_POINTS, .setShaderProgram starProgram, .draw .success,
    .setTopology .TOP_TRIANGLES, .setShaderProgram texturedProgram, .draw .success]

/-- Here a topology changes with each program, and the draws match. -/
theorem draws_match_iff_changedTopology : ∃ s, drawnWith changedTopology = some s ∧
    s.draws.length = 2 ∧ (∀ draw ∈ s.draws, draw.Matches) ∧
    ∀ id, (drawsWith id s.draws).IsChain Draw.SameProgram := by
  have hDrawn : (drawnWith changedTopology).any fun s =>
      s.draws.length = 2 ∧ ∀ draw ∈ s.draws, draw.Matches := by
    decide +kernel
  obtain ⟨s, hSome, hBoth⟩ := (Option.any_eq_true _ _).mp hDrawn
  obtain ⟨hLength, hMatches⟩ := of_decide_eq_true hBoth
  obtain ⟨vulkan, actions, hRun⟩ := run_of_drawnWith hSome
  exact ⟨s, hSome, hLength, hMatches, (draws_match_iff hRun).2.mp hMatches⟩

/-- The program changes, and nothing else. -/
def changedProgram : List Action :=
  [.setShaderProgram starProgram, .draw .success,
    .setShaderProgram texturedProgram, .draw .success]

/-- The second draw binds the pipeline of the first program. -/
theorem not_matches_changedProgram : ∃ s, drawnWith changedProgram = some s ∧
    ∃ draw ∈ s.draws, draw.current.program = texturedProgram ∧
      (∃ pipeline ∈ draw.pipeline, pipeline.createdFrom.program = starProgram) ∧
      ¬draw.Matches := by
  have hDrawn : (drawnWith changedProgram).any fun s =>
      ∃ draw ∈ s.draws, draw.current.program = texturedProgram ∧
        (∃ pipeline ∈ draw.pipeline, pipeline.createdFrom.program = starProgram) ∧
        ¬draw.Matches := by
    decide +kernel
  obtain ⟨s, hSome, hStale⟩ := (Option.any_eq_true _ _).mp hDrawn
  exact ⟨s, hSome, of_decide_eq_true hStale⟩

end Tr2RenderContextAL

end Ithax.Vulkan
