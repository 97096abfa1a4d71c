import Ithax.Lib.RunHistory
import Ithax.Vulkan.PipelineCache

/-!
# How long pipelines live

A layout that is asked for another pipeline destroys the one that it has on the spot. The
pipeline may be bound in the command buffer that is being recorded, or in one that has been
submitted for the frame before. Other objects are retired in such a case, and destroyed when
the submission has completed.

The layouts themselves are taken to outlive the recordings that their pipelines are bound in:
no step releases a layout, which would destroy its pipeline in `Tr2VertexLayoutAL::Destroy`.

## Results

* `Cached.replaced_iff`  — the pipelines that a draw destroys.
* `pipelinesOutlive_iff` — the runs in which no pipeline is destroyed while it is needed.
-/

namespace Ithax.Vulkan

open Ithax.Lib
open Ithax.Lib.OneEntryCache
open Ithax.RenderGraph (PassId INVALID_PASS)

/-- The topology and the formats are the same. -/
def PipelineState.Alike (first second : PipelineState) : Prop :=
  first.topology = second.topology ∧ first.colorFormat = second.colorFormat ∧
    first.depthFormat = second.depthFormat

instance (first second : PipelineState) : Decidable (first.Alike second) :=
  inferInstanceAs (Decidable (_ ∧ _ ∧ _))

theorem PipelineState.Alike.symm {first second : PipelineState} (h : first.Alike second) :
    second.Alike first :=
  ⟨h.1.symm, h.2.1.symm, h.2.2.symm⟩

theorem PipelineState.Alike.trans {first second third : PipelineState} (h : first.Alike second)
    (h' : second.Alike third) : first.Alike third :=
  ⟨h.1.trans h'.1, h.2.1.trans h'.2.1, h.2.2.trans h'.2.2⟩

theorem PipelineState.key_eq_iff {address : Address} {first second : PipelineState} :
    first.key address = second.key address ↔ first.Alike second := by
  unfold PipelineState.key PipelineState.Alike
  simp

namespace Tr2RenderContextAL

/-- The pipeline is bound in a recording that is in use. -/
def Needs (s : Tr2RenderContextAL) (pipeline : VkPipeline) : Prop :=
  ∃ recording, (.recording recording, .bindPipeline pipeline) ∈ s.commands ∧
    s.vulkan.InUse recording

/-- No step of a run destroys a pipeline that is needed. -/
def PipelinesOutlive (start : Tr2RenderContextAL) (actions : List Action) : Prop :=
  ∀ before action after s next, actions = before ++ action :: after →
    runEvents step start before = some s → s.step action = some next →
    ∀ pipeline ∈ next.destroyed.drop s.destroyed.length, ¬s.Needs pipeline

/-- Every draw that asks a layout for a pipeline finds the topology and the formats as they were
at all the draws with the layout whose recordings are in use. -/
def DrawsAlike (start : Tr2RenderContextAL) (actions : List Action) : Prop :=
  ∀ before answer after s next id, actions = before ++ .draw answer :: after →
    runEvents step start before = some s → s.step (.draw answer) = some next →
    s.asks = some id → ∀ draw ∈ s.draws, draw.layout = id → ∀ pipeline ∈ draw.pipeline,
      s.Needs pipeline → draw.current.Alike s.current

end Tr2RenderContextAL

-- ---------------------------------------------------------------------------
-- What a layout destroys
-- ---------------------------------------------------------------------------

namespace Tr2VertexLayoutAL

/-- A layout has in its cache what it gives out: what it had there, or something new. -/
theorem getPipeline_cases {layout next : Tr2VertexLayoutAL}
    {program : Reference Tr2ShaderProgramAL} {topology : Topology}
    {colorFormat depthFormat : VkFormat} {created : Option Handle} {pipeline : Option VkPipeline}
    (h : layout.getPipeline program topology colorFormat depthFormat created =
      some (pipeline, next)) :
    next.cachedPipeline = pipeline ∧
      (layout.cachedPipeline = pipeline ∨
        layout.replaced program topology colorFormat depthFormat = layout.cachedPipeline ∧
          ∀ p ∈ pipeline, p.handle ∈ created) := by
  unfold getPipeline at h
  unfold replaced
  by_cases hHit : layout.hits program topology colorFormat depthFormat = true
  · rw [if_pos hHit] at h
    obtain ⟨rfl, rfl⟩ := Prod.mk.inj (Option.some.inj h)
    exact ⟨rfl, .inl rfl⟩
  · rw [if_neg hHit] at h
    rw [if_neg hHit]
    split at h
    · exact nomatch h
    · cases created with
      | none =>
        obtain ⟨rfl, rfl⟩ := Prod.mk.inj (Option.some.inj h)
        exact ⟨rfl, .inr ⟨rfl, fun _ hNo => absurd hNo (Option.not_mem_none _)⟩⟩
      | some handle =>
        obtain ⟨rfl, rfl⟩ := Prod.mk.inj (Option.some.inj h)
        refine ⟨rfl, .inr ⟨rfl, ?_⟩⟩
        intro p hMem
        rw [← Option.some.inj hMem]
        rfl

end Tr2VertexLayoutAL

namespace Tr2RenderContextAL

variable {s next : Tr2RenderContextAL} {id : LayoutId} {pipeline : VkPipeline}

/-- The pipeline of a draw was made for the topology and the formats of the draw. -/
theorem Cached.alike_createdFrom (h : s.Cached) {draw : Draw} (hMem : draw ∈ s.draws)
    (hPipeline : pipeline ∈ draw.pipeline) : pipeline.createdFrom.Alike draw.current := by
  refine (@PipelineState.key_eq_iff s.shaderProgramAddress _ _).mp ?_
  have hLookup : draw.lookup ∈ lookupsIn draw.layout s.draws :=
    List.mem_map_of_mem (List.mem_filter.mpr ⟨hMem, decide_eq_true rfl⟩)
  exact (h.answered draw.layout).key_of_found draw.lookup hLookup pipeline hPipeline

/-- The pipeline in a cache is one that a draw with the layout has got. -/
theorem Cached.exists_draw (h : s.Cached)
    (hPipeline : (s.layouts id).cachedPipeline = some pipeline) :
    ∃ draw ∈ s.draws, draw.layout = id ∧ pipeline ∈ draw.pipeline ∧
      (s.layouts id).Holds (some (draw.current.key s.shaderProgramAddress, pipeline)) := by
  have hHolds := h.holds id
  cases hAfter : after (PipelineState.key s.shaderProgramAddress) (lookupsIn id s.draws) with
  | none =>
    rw [hAfter] at hHolds
    exact nomatch hPipeline.symm.trans hHolds
  | some entry =>
    obtain ⟨key, found⟩ := entry
    rw [hAfter] at hHolds
    obtain rfl : pipeline = found := Option.some.inj (hPipeline.symm.trans hHolds.1)
    obtain ⟨lookup, hLookup, rfl, hFound⟩ := mem_of_after hAfter
    obtain ⟨draw, hDraw, rfl⟩ := List.mem_map.mp hLookup
    obtain ⟨hMem, hLayout⟩ := List.mem_filter.mp hDraw
    exact ⟨draw, hMem, of_decide_eq_true hLayout, hFound, hHolds⟩

/-- A draw destroys the pipeline in the cache of its layout if that was got for another topology
or format. -/
theorem Cached.replaced_iff (h : s.Cached) :
    (s.layouts id).replaced s.programReference s.topology s.vulkan.swapchain.format s.depthFormat =
        some pipeline ↔
      (s.layouts id).cachedPipeline = some pipeline ∧ ∃ draw ∈ s.draws, draw.layout = id ∧
        pipeline ∈ draw.pipeline ∧ ¬draw.current.Alike s.current := by
  by_cases hCached : (s.layouts id).cachedPipeline = some pipeline
  · obtain ⟨last, hLast, hLayout, hFound, hHolds⟩ := h.exists_draw hCached
    have hHits : (s.layouts id).hits s.programReference s.topology s.vulkan.swapchain.format
        s.depthFormat = true ↔ last.current.Alike s.current := by
      rw [hHolds.hits_iff, ← @PipelineState.key_eq_iff s.shaderProgramAddress]
      constructor
      · rintro ⟨found, hSame⟩
        exact (Prod.mk.inj (Option.some.inj hSame)).1
      · intro hKey
        exact ⟨pipeline, by rw [hKey]; rfl⟩
    unfold Tr2VertexLayoutAL.replaced
    by_cases hAlike : last.current.Alike s.current
    · rw [if_pos (hHits.mpr hAlike)]
      refine iff_of_false nofun ?_
      rintro ⟨-, draw, hMem, -, hDrawn, hNot⟩
      -- both draws have got the pipeline, so they are alike
      have hDraw := h.alike_createdFrom hMem hDrawn
      have hSame := h.alike_createdFrom hLast hFound
      exact hNot (hDraw.symm.trans (hSame.trans hAlike))
    · rw [if_neg fun hNo => hAlike (hHits.mp hNo)]
      exact iff_of_true hCached ⟨hCached, last, hLast, hLayout, hFound, hAlike⟩
  · refine iff_of_false ?_ fun hNo => hCached hNo.1
    unfold Tr2VertexLayoutAL.replaced
    split
    · exact nofun
    · exact hCached

-- ---------------------------------------------------------------------------
-- What is known of the pipelines
-- ---------------------------------------------------------------------------

/-- The recordings that commands are in are known, and the pipelines of the draws are told apart
by their handles. -/
structure Known (s : Tr2RenderContextAL) : Prop extends s.Cached where
  inUse : ∀ recording, s.vulkan.InUse recording → recording < s.vulkan.recordings
  recorded : ∀ recording command, (.recording recording, command) ∈ s.commands →
    recording < s.vulkan.recordings
  handles : ∀ draw ∈ s.draws, ∀ pipeline ∈ draw.pipeline, pipeline.handle ≤ s.vulkan.handles
  apart : ∀ draw ∈ s.draws, ∀ other ∈ s.draws, ∀ pipeline ∈ draw.pipeline,
    pipeline ∈ other.pipeline → draw.layout = other.layout

theorem Known.untouched (h : s.Known) (hSame : s.Untouched next) : next.Known where
  toCached := h.toCached.untouched hSame
  inUse recording hUse := by
    rcases hSame.vulkan.inUse recording hUse with hOld | ⟨-, hNew⟩
    · exact (h.inUse recording hOld).trans_le hSame.vulkan.recordings
    · exact hNew
  recorded recording command hMem := by
    rw [hSame.commands] at hMem
    exact (h.recorded recording command hMem).trans_le hSame.vulkan.recordings
  handles draw hMem pipeline hPipeline := by
    rw [hSame.draws] at hMem
    exact (h.handles draw hMem pipeline hPipeline).trans hSame.vulkan.handles
  apart := by
    rw [hSame.draws]
    exact h.apart

/-- Commands in the current command buffer are in a recording that is in use. -/
theorem Known.recorded_append (h : s.Known) {commands : List (CommandBuffer × Command)}
    {pipelines : List VkPipeline}
    (hBinds : BindsIn s.vulkan.frame.commandBuffer commands pipelines) :
    ∀ recording command, (.recording recording, command) ∈ s.commands ++ commands →
      recording < s.vulkan.recordings := by
  intro recording command hMem
  rcases List.mem_append.mp hMem with hOld | hNew
  · exact h.recorded recording command hOld
  · exact h.inUse recording (inUse_of_frame (.inl (hBinds.inBuffer _ hNew).symm))

theorem Known.recorded_next (h : s.Known) (hRecorded : s.Recorded next) : next.Known := by
  have hCached := h.toCached.recorded hRecorded
  obtain ⟨commands, hBinds, rfl⟩ := hRecorded
  exact { h with toCached := hCached, recorded := h.recorded_append hBinds }

/-- The draw has got a pipeline that no draw with another layout has got. -/
theorem Known.same_layout (h : s.Known) {draw : Draw} (hMem : draw ∈ s.draws)
    (hDraw : pipeline ∈ draw.pipeline)
    (hPipeline : (s.layouts id).cachedPipeline = some pipeline ∨
      pipeline.handle = s.vulkan.handles + 1) : draw.layout = id := by
  rcases hPipeline with hCached | hFresh
  · obtain ⟨last, hLast, rfl, hFound, -⟩ := h.exists_draw hCached
    exact h.apart draw hMem last hLast pipeline hDraw hFound
  · have hBound := h.handles draw hMem pipeline hDraw
    rw [hFresh] at hBound
    exact absurd hBound (Nat.not_succ_le_self _)

/-- What a draw does once it has asked its layout. -/
structure Drawn (s next : Tr2RenderContextAL) (id : LayoutId) (pipeline : Option VkPipeline)
    (commands : List (CommandBuffer × Command)) : Prop where
  cached : (next.layouts id).cachedPipeline = pipeline
  others : ∀ other, other ≠ id → next.layouts other = s.layouts other
  found : ∀ p ∈ pipeline, (s.layouts id).cachedPipeline = some p ∨
    p.handle = s.vulkan.handles + 1
  kept : (s.layouts id).cachedPipeline = pipeline ∨ next.destroyed.drop s.destroyed.length =
    (s.layouts id).cachedPipeline.toList
  destroyed : next.destroyed.drop s.destroyed.length = ((s.layouts id).replaced s.programReference
    s.topology s.vulkan.swapchain.format s.depthFormat).toList
  binds : BindsIn s.vulkan.frame.commandBuffer commands pipeline.toList
  commands : next.commands = s.commands ++ commands
  draws : next.draws = s.draws ++ [{ layout := id, current := s.current, pipeline }]
  vulkan : next.vulkan = { s.vulkan with handles := s.vulkan.handles + 1 }

/-- A draw asks a layout, or does nothing to the pipelines. -/
theorem step_draw_cases {answer : VkResult} (h : s.step (.draw answer) = some next) :
    s.asks = none ∧ s.Recorded next ∨
      ∃ id pipeline commands, s.asks = some id ∧ s.Drawn next id pipeline commands := by
  obtain ⟨⟨result, next⟩, hPerform, rfl⟩ := Option.map_eq_some_iff.mp h
  rcases bindFrameResources_cases hPerform with hNone | ⟨id, created, pipeline, layout, commands,
    hAsks, hFresh, hGet, hBinds, rfl⟩
  · exact .inl hNone
  obtain ⟨hCached, hCases⟩ := Tr2VertexLayoutAL.getPipeline_cases hGet
  have hDestroyed : (asked s id pipeline layout).destroyed.drop s.destroyed.length =
      ((s.layouts id).replaced s.programReference s.topology s.vulkan.swapchain.format
        s.depthFormat).toList :=
    List.drop_left
  refine .inr ⟨id, pipeline, commands, hAsks, ?_⟩
  refine {
    cached := ?_, others := ?_, found := ?_, kept := ?_
    destroyed := hDestroyed
    binds := hBinds
    commands := rfl
    draws := rfl
    vulkan := rfl }
  · show (Function.update s.layouts id layout id).cachedPipeline = pipeline
    rw [Function.update_self]
    exact hCached
  · intro other hOther
    exact Function.update_of_ne hOther _ _
  · intro p hMem
    rcases hCases with hSame | ⟨-, hCreated⟩
    · exact .inl (hSame.trans hMem)
    · exact .inr (hFresh _ (hCreated p hMem))
  · rcases hCases with hSame | ⟨hReplaced, -⟩
    · exact .inl hSame
    · refine .inr ?_
      show (asked s id pipeline layout).destroyed.drop s.destroyed.length = _
      rw [hDestroyed, hReplaced]

theorem Known.drawn (h : s.Known) (hCached : next.Cached) {pipeline : Option VkPipeline}
    {commands : List (CommandBuffer × Command)} (hDrawn : s.Drawn next id pipeline commands) :
    next.Known := by
  have hLayout : ∀ draw ∈ s.draws, ∀ p ∈ draw.pipeline, p ∈ pipeline → draw.layout = id :=
    fun draw hMem p hDraw hFound => h.same_layout hMem hDraw (hDrawn.found p hFound)
  refine { toCached := hCached, inUse := ?_, recorded := ?_, handles := ?_, apart := ?_ }
  · rw [hDrawn.vulkan]
    exact h.inUse
  · rw [hDrawn.vulkan, hDrawn.commands]
    exact h.recorded_append hDrawn.binds
  · rw [hDrawn.vulkan, hDrawn.draws]
    refine forall_mem_append_one ?_ ?_
    · intro p hFound
      rcases hDrawn.found p hFound with hOld | hNew
      · obtain ⟨last, hLast, -, hGot, -⟩ := h.exists_draw hOld
        exact Nat.le_succ_of_le (h.handles last hLast p hGot)
      · exact hNew.le
    · exact fun draw hMem p hDraw => Nat.le_succ_of_le (h.handles draw hMem p hDraw)
  · rw [hDrawn.draws]
    refine forall_mem_append_one (forall_mem_append_one ?_ ?_) fun draw hMem =>
      forall_mem_append_one ?_ (h.apart draw hMem)
    · exact fun _ _ _ => rfl
    · exact fun draw hMem p hFound hDraw => (hLayout draw hMem p hDraw hFound).symm
    · exact fun p hDraw hFound => hLayout draw hMem p hDraw hFound

theorem known_step {action : Action} (h : s.Known) (hStep : s.step action = some next) :
    next.Known := by
  have hCached := cached_step h.toCached hStep
  by_cases hDraw : ∃ answer, action = .draw answer
  · obtain ⟨answer, rfl⟩ := hDraw
    rcases step_draw_cases hStep with ⟨-, hRecorded⟩ | ⟨id, pipeline, commands, -, hDrawn⟩
    · exact h.recorded_next hRecorded
    · exact h.drawn hCached hDrawn
  · obtain ⟨⟨result, next⟩, hPerform, rfl⟩ := Option.map_eq_some_iff.mp hStep
    exact h.untouched (untouched_perform hPerform (not_exists.mp hDraw))

-- ---------------------------------------------------------------------------
-- What is needed
-- ---------------------------------------------------------------------------

theorem needs_of_untouched (h : s.Known) (hSame : s.Untouched next) (hNeeds : next.Needs pipeline) :
    s.Needs pipeline := by
  obtain ⟨recording, hMem, hUse⟩ := hNeeds
  rw [hSame.commands] at hMem
  refine ⟨recording, hMem, ?_⟩
  rcases hSame.vulkan.inUse recording hUse with hOld | ⟨hNew, -⟩
  · exact hOld
  · exact absurd (h.recorded recording _ hMem) (Nat.not_lt.mpr hNew)

/-- What is needed after a draw was needed before, or is what the draw has bound. -/
theorem needs_of_binds {buffer : CommandBuffer} {commands : List (CommandBuffer × Command)}
    {pipelines : List VkPipeline} (hBinds : BindsIn buffer commands pipelines)
    (hCommands : next.commands = s.commands ++ commands)
    (hUse : ∀ recording, next.vulkan.InUse recording → s.vulkan.InUse recording)
    (hNeeds : next.Needs pipeline) : s.Needs pipeline ∨ pipeline ∈ pipelines := by
  obtain ⟨recording, hMem, hInUse⟩ := hNeeds
  rw [hCommands] at hMem
  rcases List.mem_append.mp hMem with hOld | hNew
  · exact .inl ⟨recording, hOld, hUse recording hInUse⟩
  · rw [← hBinds.bound]
    exact .inr (List.mem_filterMap.mpr ⟨_, hNew, rfl⟩)

/-- The pipelines that are needed are in the caches of the layouts that they are for. -/
def Standing (s : Tr2RenderContextAL) : Prop :=
  ∀ draw ∈ s.draws, ∀ pipeline ∈ draw.pipeline, s.Needs pipeline →
    (s.layouts draw.layout).cachedPipeline = some pipeline

theorem Standing.untouched (h : s.Standing) (hKnown : s.Known) (hSame : s.Untouched next) :
    next.Standing := by
  intro draw hMem p hPipeline hNeeds
  rw [hSame.draws] at hMem
  rw [hSame.layouts]
  exact h draw hMem p hPipeline (needs_of_untouched hKnown hSame hNeeds)

theorem Standing.recorded (h : s.Standing) (hRecorded : s.Recorded next) : next.Standing := by
  obtain ⟨commands, hBinds, hNext⟩ := hRecorded
  have hUse : ∀ recording, next.vulkan.InUse recording → s.vulkan.InUse recording := by
    rw [hNext]
    exact fun _ hUse => hUse
  intro draw hMem p hPipeline hNeeds
  have hOld : s.Needs p := by
    rcases needs_of_binds hBinds (congrArg Tr2RenderContextAL.commands hNext) hUse hNeeds
      with hOld | hNew
    · exact hOld
    · exact absurd hNew List.not_mem_nil
  rw [hNext] at hMem ⊢
  exact h draw hMem p hPipeline hOld

/-- A draw that destroys nothing that is needed. -/
theorem Standing.drawn (h : s.Standing) (hKnown : s.Known) {found : Option VkPipeline}
    {commands : List (CommandBuffer × Command)} (hDrawn : s.Drawn next id found commands)
    (hSpared : ∀ pipeline ∈ next.destroyed.drop s.destroyed.length, ¬s.Needs pipeline) :
    next.Standing := by
  have hUse : ∀ recording, next.vulkan.InUse recording → s.vulkan.InUse recording := by
    rw [hDrawn.vulkan]
    exact fun _ hUse => hUse
  unfold Standing
  rw [hDrawn.draws]
  refine forall_mem_append_one (fun p hFound _ => hDrawn.cached.trans hFound) ?_
  intro draw hMem p hPipeline hNeeds
  rcases needs_of_binds hDrawn.binds hDrawn.commands hUse hNeeds with hOld | hNew
  · have hCached := h draw hMem p hPipeline hOld
    by_cases hLayout : draw.layout = id
    · rw [hLayout] at hCached ⊢
      rcases hDrawn.kept with hKept | hGone
      · exact (hDrawn.cached.trans hKept.symm).trans hCached
      · refine absurd hOld (hSpared p ?_)
        rw [hGone, hCached]
        exact List.mem_singleton_self p
    · rw [hDrawn.others _ hLayout]
      exact hCached
  · have hFound := Option.mem_toList.mp hNew
    rw [hKnown.same_layout hMem hPipeline (hDrawn.found p hFound)]
    exact hDrawn.cached.trans hFound

/-- A step that destroys nothing that is needed leaves in the caches what is needed. -/
theorem standing_step {action : Action} (hKnown : s.Known) (h : s.Standing)
    (hStep : s.step action = some next)
    (hSpared : ∀ pipeline ∈ next.destroyed.drop s.destroyed.length, ¬s.Needs pipeline) :
    next.Standing := by
  by_cases hDraw : ∃ answer, action = .draw answer
  · obtain ⟨answer, rfl⟩ := hDraw
    rcases step_draw_cases hStep with ⟨-, hRecorded⟩ | ⟨id, found, commands, -, hDrawn⟩
    · exact h.recorded hRecorded
    · exact h.drawn hKnown hDrawn hSpared
  · obtain ⟨⟨result, next⟩, hPerform, rfl⟩ := Option.map_eq_some_iff.mp hStep
    exact h.untouched hKnown (untouched_perform hPerform (not_exists.mp hDraw))

-- ---------------------------------------------------------------------------
-- Runs
-- ---------------------------------------------------------------------------

section Run

variable {windowless : Bool} {mode : VkExtent2D} {depthFormats : List VkFormat} {answers : Answers}
  {vulkan : VulkanContext} {address : Address} {vertexInputs : LayoutId → Option VertexInput}
  {pass : PassId} {active rendering : Bool}

theorem known_construct (hStart : createDevice windowless mode depthFormats answers = some vulkan) :
    (construct vulkan address vertexInputs pass active rendering).Known where
  toCached := cached_construct vulkan address vertexInputs pass active rendering
  inUse _ hUse := absurd hUse (inUse_createDevice hStart)
  recorded _ _ hMem := absurd hMem List.not_mem_nil
  handles _ hMem := absurd hMem List.not_mem_nil
  apart _ hMem := absurd hMem List.not_mem_nil

/-- No pipeline is destroyed while a recording that it is bound in is in use exactly when every
draw finds the topology and the formats as they were at the draws with its layout whose
recordings are in use. The layouts are kept by their owners along the run. -/
theorem pipelinesOutlive_iff
    (hStart : createDevice windowless mode depthFormats answers = some vulkan)
    (actions : List Action) :
    PipelinesOutlive (construct vulkan address vertexInputs pass active rendering) actions ↔
      DrawsAlike (construct vulkan address vertexInputs pass active rendering) actions := by
  have hFirst : (construct vulkan address vertexInputs pass active rendering).Known :=
    known_construct hStart
  constructor
  · intro hOutlive before answer after s next id hSplit hRun hStep hAsks draw hMem hLayout pipeline
      hPipeline hNeeds
    have hAlong := invariant_along (I := fun s => s.Known ∧ s.Standing)
      ⟨hFirst, fun draw hMem => absurd hMem List.not_mem_nil⟩
      (fun before action after s next hSplit hRun hStep h => ⟨known_step h.1 hStep,
        standing_step h.1 h.2 hStep (hOutlive before action after s next hSplit hRun hStep)⟩)
    obtain ⟨hKnown, hStanding⟩ := hAlong before _ hSplit s hRun
    by_contra hNot
    rcases step_draw_cases hStep with ⟨hNone, -⟩ | ⟨id', found, commands, hAsks', hDrawn⟩
    · exact nomatch hNone.symm.trans hAsks
    obtain rfl : id = id' := Option.some.inj (hAsks.symm.trans hAsks')
    refine hOutlive before _ after s next hSplit hRun hStep pipeline ?_ hNeeds
    rw [hDrawn.destroyed, Option.mem_toList]
    refine hKnown.toCached.replaced_iff.mpr ⟨?_, draw, hMem, hLayout, hPipeline, hNot⟩
    rw [← hLayout]
    exact hStanding draw hMem pipeline hPipeline hNeeds
  · intro hAlike before action after s next hSplit hRun hStep pipeline hDestroyed hNeeds
    have hKnown : s.Known := runEvents_invariant known_step hFirst hRun
    by_cases hDraw : ∃ answer, action = .draw answer
    · obtain ⟨answer, rfl⟩ := hDraw
      rcases step_draw_cases hStep with ⟨-, commands, -, rfl⟩ | ⟨id, found, commands, hAsks, hDrawn⟩
      · rw [List.drop_length] at hDestroyed
        exact absurd hDestroyed List.not_mem_nil
      · rw [hDrawn.destroyed, Option.mem_toList] at hDestroyed
        obtain ⟨-, draw, hMem, hLayout, hPipeline, hNot⟩ :=
          hKnown.toCached.replaced_iff.mp hDestroyed
        exact hNot (hAlike before answer after s next id hSplit hRun hStep hAsks draw hMem hLayout
          pipeline hPipeline hNeeds)
    · obtain ⟨⟨result, next⟩, hPerform, rfl⟩ := Option.map_eq_some_iff.mp hStep
      rw [(untouched_perform hPerform (not_exists.mp hDraw)).destroyed, List.drop_length]
        at hDestroyed
      exact absurd hDestroyed List.not_mem_nil

end Run

/-- A context that draws with layouts that are all valid. -/
def drawing (vulkan : VulkanContext) : Tr2RenderContextAL :=
  construct vulkan 4096 (fun _ => some {}) INVALID_PASS false false

/-- No command is in a recording that is in use. -/
def idle (s : Tr2RenderContextAL) : Bool :=
  s.commands.all fun command =>
    match command.1 with
    | .recording recording => ¬s.vulkan.InUse recording
    | _ => true

theorem not_needs_of_idle {s : Tr2RenderContextAL} {pipeline : VkPipeline} (h : s.idle = true) :
    ¬s.Needs pipeline := by
  rintro ⟨recording, hMem, hUse⟩
  exact of_decide_eq_true (List.all_eq_true.mp h _ hMem) hUse

/-- A frame draws points, and when it has completed, the next frame draws triangles. -/
def completedFrame : List Action :=
  [.setVertexLayout (some 0), .setShaderProgram starProgram, .setTopology .TOP_POINTS,
    .vulkan (.beginFrame fun _ => []), .draw .success, .vulkan (.endFrame fun _ => []),
    .vulkan (.present fun _ => []), .vulkan .complete, .vulkan (.beginFrame fun _ => []),
    .setTopology .TOP_TRIANGLES, .draw .success]

theorem pipelinesOutlive_completedFrame : ∃ vulkan,
    createDevice false ⟨640, 480⟩ [.VK_FORMAT_D32_SFLOAT] surfaceAnswers = some vulkan ∧
    PipelinesOutlive (drawing vulkan) completedFrame := by
  have hFirst : (createDevice false ⟨640, 480⟩ [.VK_FORMAT_D32_SFLOAT] surfaceAnswers).any
      fun vulkan => checkAlong step
        (fun s _ => s.idle ∨ ∀ draw ∈ s.draws, draw.current.Alike s.current)
        (drawing vulkan) completedFrame := by
    decide +kernel
  obtain ⟨vulkan, hStart, hChecked⟩ := (Option.any_eq_true _ _).mp hFirst
  refine ⟨vulkan, hStart, (pipelinesOutlive_iff hStart completedFrame).mpr ?_⟩
  intro before answer after s next id hSplit hRun _ _ draw hMem _ pipeline _ hNeeds
  have hHere := checkAlong_iff.mp hChecked before _ after s hSplit hRun
  rcases of_decide_eq_true hHere with hIdle | hAlike
  · exact absurd hNeeds (not_needs_of_idle hIdle)
  · exact hAlike draw hMem

/-- A frame that draws points. -/
def pointsFrame : List Action :=
  [.vulkan (.beginFrame fun _ => []), .setVertexLayout (some 0), .setShaderProgram starProgram,
    .setTopology .TOP_POINTS, .draw .success, .setTopology .TOP_TRIANGLES]

/-- When the frame goes on with triangles, the pipeline of the points is destroyed while the
command buffer that it is bound in is being recorded. -/
theorem not_pipelinesOutlive_pointsFrame : ∃ vulkan,
    createDevice false ⟨640, 480⟩ [.VK_FORMAT_D32_SFLOAT] surfaceAnswers = some vulkan ∧
    ¬PipelinesOutlive (drawing vulkan) (pointsFrame ++ [.draw .success]) := by
  have hDrawn : (createDevice false ⟨640, 480⟩ [.VK_FORMAT_D32_SFLOAT] surfaceAnswers).any
      fun vulkan => (runEvents step (drawing vulkan) pointsFrame).any fun s =>
        (s.step (.draw .success)).any fun next =>
          ∃ pipeline ∈ next.destroyed.drop s.destroyed.length,
            (.recording 0, .bindPipeline pipeline) ∈ s.commands ∧ s.vulkan.InUse 0 := by
    decide +kernel
  obtain ⟨vulkan, hStart, hFirst⟩ := (Option.any_eq_true _ _).mp hDrawn
  obtain ⟨s, hRun, hSecond⟩ := (Option.any_eq_true _ _).mp hFirst
  obtain ⟨next, hStep, hNext⟩ := (Option.any_eq_true _ _).mp hSecond
  obtain ⟨pipeline, hDestroyed, hNeeds⟩ := of_decide_eq_true hNext
  exact ⟨vulkan, hStart, fun hAll =>
    hAll pointsFrame _ [] s next rfl hRun hStep pipeline hDestroyed ⟨0, hNeeds⟩⟩

end Tr2RenderContextAL

end Ithax.Vulkan
