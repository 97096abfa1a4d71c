import Ithax.Lib.Exceptional
import Ithax.RenderGraph.Attachments

/-!
# Recording a compiled graph

`Tr2RenderContextAL::BeginGraphFrame` to `EndGraphPass`: the scene registers a texture for every
image of the graph, and the passes are recorded one after the other behind the barriers the
compiler has made for them. The compiler starts these at the layouts that are declared and
leaves it to the recorder to put in the layout a texture really has; the recorder takes them as
they are.

Every image has a texture of its own.

## Results

* `recordPasses_ok`       — what the calls for the executed passes record.
* `passesValid_iff_run`   — valid transitions as a run over the layouts.
* `recordsValidly_iff`    — for which layouts of the textures the transitions are valid.
-/

namespace Ithax.RenderGraph

open Ithax.Lib

-- ---------------------------------------------------------------------------
-- The recorder
-- ---------------------------------------------------------------------------

/-- A texture of the backend, with the layout it keeps track of. -/
structure GraphTexture where
  valid : Bool
  layout : ImageLayout
  deriving DecidableEq, Repr

/-- What is recorded into the command buffer. -/
inductive GraphCommand where
  /-- A transition, and the layout in which it finds the texture. -/
  | imageBarrier (barrier : ImageBarrier) (found : ImageLayout)
  | bufferBarrier (barrier : BufferBarrier)
  | beginRendering (colors : List PassAttachment) (depth : Option PassAttachment)
  | endRendering
  deriving DecidableEq, Repr

/-- The graph state of the render context. -/
structure GraphRecorder where
  frameActive : Bool := false
  graph : CompileResult := ⟨[], [], [], [], []⟩
  textures : List (Option GraphTexture) := []
  /-- The registered buffers: whether they are valid. -/
  buffers : List (Option Bool) := []
  resourceIsImage : List Bool := []
  layouts : List ImageLayout := []
  activePass : PassId := INVALID_PASS
  passHasRendering : Bool := false
  /-- What has been recorded since the frame was begun. -/
  commands : List GraphCommand := []
  deriving DecidableEq, Repr

/-- A failed call keeps what it has recorded. -/
abbrev Recording := EStateM ALResult GraphRecorder

/-- `BeginGraphFrame`. -/
def beginGraphFrame : Recording Unit :=
  modify fun s => { frameActive := true, passHasRendering := s.passHasRendering }

/-- `SetGraphResult`. -/
def setGraphResult (result : CompileResult) : Recording Unit :=
  modify fun s => { s with graph := result }

/-- `std::vector::resize`. -/
def resize {α : Type} (xs : List α) (n : Nat) (fill : α) : List α :=
  (xs ++ List.replicate (n - xs.length) fill).take n

/-- The tables grow to hold `n` resources. -/
def GraphRecorder.grow (s : GraphRecorder) (n : Nat) : GraphRecorder :=
  { s with
    textures := resize s.textures n none
    buffers := resize s.buffers n none
    resourceIsImage := resize s.resourceIsImage n false
    layouts := resize s.layouts n .undefined }

/-- `RegisterGraphTexture`. -/
def registerGraphTexture (r : ResourceId) (texture : GraphTexture) : Recording Unit := do
  let s ← get
  if s.frameActive = false then throw .invalidCall
  modify fun s => if s.textures.length ≤ r then s.grow (r + 1) else s
  modify fun s => { s with
    textures := s.textures.set r (some texture)
    resourceIsImage := s.resourceIsImage.set r true
    layouts := s.layouts.set r texture.layout }

/-- `RegisterGraphBuffer`. -/
def registerGraphBuffer (r : ResourceId) (valid : Bool) : Recording Unit := do
  let s ← get
  if s.frameActive = false then throw .invalidCall
  modify fun s => if s.buffers.length ≤ r then s.grow (r + 1) else s
  modify fun s => { s with
    buffers := s.buffers.set r (some valid)
    resourceIsImage := s.resourceIsImage.set r false }

/-- The texture registered for an image, if it is valid. -/
def GraphRecorder.texture? (s : GraphRecorder) (r : ResourceId) : Option GraphTexture :=
  (s.textures[r]?.join).filter GraphTexture.valid

/-- The buffer was registered, and is valid. -/
def GraphRecorder.hasBuffer (s : GraphRecorder) (r : ResourceId) : Bool :=
  s.buffers[r]?.join.getD false

/-- One transition: the barrier as it is compiled, and the new layout noted. -/
def emitImageBarrier (barrier : ImageBarrier) : Recording Unit := do
  let s ← get
  match s.texture? barrier.resource with
  | none => throw .invalidCall
  | some texture =>
    set { s with
      commands := s.commands ++ [GraphCommand.imageBarrier barrier texture.layout]
      layouts := s.layouts.set barrier.resource barrier.newLayout
      textures := s.textures.set barrier.resource
        (some { texture with layout := barrier.newLayout }) }

/-- The image barriers before a pass. -/
def emitImageBarriers (pass : PassId) : List ImageBarrier → Recording Unit
  | [] => pure ()
  | barrier :: barriers => do
    if barrier.beforePass = pass then emitImageBarrier barrier
    emitImageBarriers pass barriers

/-- The buffer barriers before a pass. -/
def emitBufferBarriers (pass : PassId) : List BufferBarrier → Recording Unit
  | [] => pure ()
  | barrier :: barriers => do
    if barrier.beforePass = pass then
      let s ← get
      if s.hasBuffer barrier.resource = false then throw .invalidCall
      set { s with commands := s.commands ++ [GraphCommand.bufferBarrier barrier] }
    emitBufferBarriers pass barriers

/-- The attachments of a pass need valid textures. -/
def checkAttachments (attachments : List PassAttachment) : Recording Unit := do
  let s ← get
  if attachments.any fun attachment => (s.texture? attachment.image).isNone then
    throw .invalidCall

/-- A pass without attachments does not render. -/
def GraphRecorder.beginRendering (s : GraphRecorder) (pass : PassId)
    (attachments : List PassAttachment) : GraphRecorder :=
  { s with
    passHasRendering := !attachments.isEmpty
    commands := if attachments = [] then s.commands else s.commands ++ [.beginRendering
      (attachments.filter fun attachment => !attachment.isDepth)
      (attachments.filter fun attachment => attachment.isDepth).getLast?]
    activePass := pass }

/-- `BeginGraphPass`. -/
def beginGraphPass (pass : PassId) : Recording Unit := do
  let s ← get
  if s.frameActive = false then throw .invalidCall
  if s.activePass ≠ INVALID_PASS then throw .invalidCall
  emitImageBarriers pass s.graph.imageBarriers
  emitBufferBarriers pass s.graph.bufferBarriers
  let attachments := s.graph.passAttachments.filter fun attachment => attachment.pass = pass
  checkAttachments attachments
  modify fun s => s.beginRendering pass attachments

/-- `EndGraphPass`. -/
def endGraphPass : Recording Unit := do
  let s ← get
  if s.activePass = INVALID_PASS then throw .invalidCall
  modify fun s => { s with
    commands := if s.passHasRendering then s.commands ++ [GraphCommand.endRendering] else s.commands
    activePass := INVALID_PASS
    passHasRendering := false }

-- ---------------------------------------------------------------------------
-- A frame
-- ---------------------------------------------------------------------------

/-- One resource: an image with a valid texture in the given layout, or a valid buffer. -/
def registerResource (registered : ResourceId → ImageLayout) (entry : Resource × ResourceId) :
    Recording Unit :=
  if entry.1.isImage then registerGraphTexture entry.2 ⟨true, registered entry.2⟩
  else registerGraphBuffer entry.2 true

/-- Each resource is registered, in the order of the ids. -/
def registerResources (registered : ResourceId → ImageLayout) :
    List (Resource × ResourceId) → Recording Unit
  | [] => pure ()
  | entry :: entries => do
    registerResource registered entry
    registerResources registered entries

/-- A frame up to its first pass. -/
def startFrame (g : Graph) (out : CompileResult) (registered : ResourceId → ImageLayout) :
    Recording Unit := do
  beginGraphFrame
  setGraphResult out
  registerResources registered g.resources.zipIdx

/-- Each pass is begun and ended, in the order that was compiled. -/
def recordPasses : List PassId → Recording Unit
  | [] => pure ()
  | p :: passes => do
    beginGraphPass p
    endGraphPass
    recordPasses passes

/-- Up to the pass `p`, and the barriers of `p` itself: all calls succeed, every transition
starts from the layout its texture is in, and the textures of `p` end in the layouts that `p`
needs. -/
structure PassRecordsValidly (g : Graph) (s : GraphRecorder) (before : List PassId) (p : PassId) :
    Prop where
  records : ∃ middle last, recordPasses before s = .ok () middle ∧
    beginGraphPass p middle = .ok () last ∧
    (∃ emitted, last.commands = middle.commands ++ emitted ∧
      ∀ barrier found, GraphCommand.imageBarrier barrier found ∈ emitted →
        barrier.oldLayout = found) ∧
    ∀ r resource use, g.resources[r]? = some resource → use ∈ resource.imageUses → use.pass = p →
      (last.texture? r).map GraphTexture.layout = some use.access.layout

/-- The recorder emits valid transitions for all executed passes of the frame. -/
def RecordsValidly (g : Graph) (out : CompileResult) (registered : ResourceId → ImageLayout)
    (s : GraphRecorder) : Prop :=
  ∃ first, startFrame g out registered s = .ok () first ∧
    ∀ before p after, out.executionOrder = before ++ p :: after →
      PassRecordsValidly g first before p

/-- With the texture of an image in `registered`, its transitions fit. -/
structure TransitionsFit (g : Graph) (resource : Resource) (registered : ImageLayout) : Prop where
  /-- No pass needs the image in two layouts. -/
  single : ∀ use ∈ neededUses g resource, ∀ other ∈ neededUses g resource,
    other.pass = use.pass → other.access.layout = use.access.layout
  /-- The transitions that are declared into a pass start from the layout in which the passes
  executed before it leave the texture. -/
  enters : ∀ use ∈ neededUses g resource, ∀ current,
    LeftIn (RunsFirst g) registered (neededUses g resource)
      (fun q => RunsFirst g q use.pass) current →
    Enters current use.access.layout
      (transitionsInto resource.initialLayout use.pass none (neededUses g resource))

-- ---------------------------------------------------------------------------
-- Layouts along the frame
-- ---------------------------------------------------------------------------

/-- The layouts after some transitions. -/
def transitions (layouts : ResourceId → ImageLayout) (barriers : List ImageBarrier) :
    ResourceId → ImageLayout :=
  barriers.foldl (fun layouts b => Function.update layouts b.resource b.newLayout) layouts

/-- The layouts in which transitions find their textures. -/
def foundBy (layouts : ResourceId → ImageLayout) :
    List ImageBarrier → List (ImageBarrier × ImageLayout)
  | [] => []
  | b :: barriers =>
    (b, layouts b.resource) :: foundBy (Function.update layouts b.resource b.newLayout) barriers

/-- The image barriers of the result before a pass. -/
def barriersInto (out : CompileResult) (p : PassId) : List ImageBarrier :=
  out.imageBarriers.filter fun b => b.beforePass = p

/-- The layouts after some passes. -/
def layoutsAfter (out : CompileResult) (layouts : ResourceId → ImageLayout)
    (passes : List PassId) : ResourceId → ImageLayout :=
  passes.foldl (fun layouts p => transitions layouts (barriersInto out p)) layouts

/-- The pass finds and leaves the textures as it should. -/
structure PassValid (g : Graph) (out : CompileResult) (layouts : ResourceId → ImageLayout)
    (p : PassId) : Prop where
  old : ∀ entry ∈ foundBy layouts (barriersInto out p), entry.1.oldLayout = entry.2
  uses : ∀ r resource use, g.resources[r]? = some resource → use ∈ resource.imageUses →
    use.pass = p → transitions layouts (barriersInto out p) r = use.access.layout

/-- Barriers are passed when each finds its old layout. -/
theorem runEvents_transitions_iff {barriers : List ImageBarrier}
    {layouts final : ResourceId → ImageLayout} :
    runEvents (stepAt LayoutEvent.image layoutStep) layouts (barriers.map .barrier) = some final ↔
      (∀ entry ∈ foundBy layouts barriers, entry.1.oldLayout = entry.2) ∧
        final = transitions layouts barriers := by
  induction barriers generalizing layouts with
  | nil => simp [foundBy, transitions, eq_comm]
  | cons b barriers ih =>
    have hStep : ∀ mid, stepAt LayoutEvent.image layoutStep layouts (.barrier b) = some mid ↔
        b.oldLayout = layouts b.resource ∧
          Function.update layouts b.resource b.newLayout = mid := by
      intro mid
      rw [stepAt, Option.map_eq_some_iff]
      constructor
      · rintro ⟨next, hNext, rfl⟩
        obtain ⟨hOld, rfl⟩ := layoutStep_barrier_eq_some.mp hNext
        exact ⟨hOld, rfl⟩
      · rintro ⟨hOld, rfl⟩
        exact ⟨_, layoutStep_barrier_eq_some.mpr ⟨hOld, rfl⟩, rfl⟩
    rw [List.map_cons, runEvents_cons_eq_some, foundBy, List.forall_mem_cons]
    constructor
    · rintro ⟨mid, hFirst, hRest⟩
      obtain ⟨hOld, rfl⟩ := (hStep mid).mp hFirst
      obtain ⟨hAll, rfl⟩ := ih.mp hRest
      exact ⟨⟨hOld, hAll⟩, rfl⟩
    · rintro ⟨⟨hOld, hAll⟩, rfl⟩
      exact ⟨_, (hStep _).mpr ⟨hOld, rfl⟩, ih.mpr ⟨hAll, rfl⟩⟩

/-- Uses are passed when each finds its layout. -/
theorem runEvents_layoutUses_iff {events : List LayoutEvent}
    (hUses : ∀ event ∈ events, ∃ r layout, event = .use r layout)
    {layouts final : ResourceId → ImageLayout} :
    runEvents (stepAt LayoutEvent.image layoutStep) layouts events = some final ↔
      (∀ r layout, LayoutEvent.use r layout ∈ events → layouts r = layout) ∧ final = layouts := by
  induction events with
  | nil => simp [eq_comm]
  | cons event events ih =>
    obtain ⟨⟨r, layout, rfl⟩, hRest⟩ := List.forall_mem_cons.mp hUses
    have hStep : ∀ mid, stepAt LayoutEvent.image layoutStep layouts (.use r layout) = some mid ↔
        layouts r = layout ∧ layouts = mid := by
      intro mid
      rw [stepAt, Option.map_eq_some_iff]
      constructor
      · rintro ⟨next, hNext, rfl⟩
        obtain ⟨hUse, hSame⟩ := Option.ite_none_right_eq_some.mp hNext
        obtain rfl := Option.some.inj hSame
        exact ⟨hUse.symm, (Function.update_eq_self r layouts).symm⟩
      · rintro ⟨hUse, rfl⟩
        exact ⟨layouts r, if_pos hUse.symm, Function.update_eq_self r layouts⟩
    rw [runEvents_cons_eq_some]
    constructor
    · rintro ⟨mid, hFirst, hRun⟩
      obtain ⟨hUse, rfl⟩ := (hStep mid).mp hFirst
      obtain ⟨hAll, rfl⟩ := (ih hRest).mp hRun
      refine ⟨fun r' layout' hIn => ?_, rfl⟩
      rcases List.mem_cons.mp hIn with hHere | hLater
      · cases hHere
        exact hUse
      · exact hAll r' layout' hLater
    · rintro ⟨hAll, rfl⟩
      refine ⟨_, (hStep _).mpr ⟨hAll r layout List.mem_cons_self, rfl⟩, (ih hRest).mpr ⟨?_, rfl⟩⟩
      exact fun r' layout' hIn => hAll r' layout' (List.mem_cons_of_mem _ hIn)

/-- A use of an image by the pass. -/
theorem mem_imageUsesOf {g : Graph} {p : PassId} {event : LayoutEvent} :
    event ∈ imageUsesOf g p ↔ ∃ r resource use, g.resources[r]? = some resource ∧
      use ∈ resource.imageUses ∧ use.pass = p ∧ event = .use r use.access.layout := by
  constructor
  · intro hIn
    obtain ⟨⟨resource, r⟩, hEntry, hEvent⟩ := List.mem_flatMap.mp hIn
    obtain ⟨use, hUse, rfl⟩ := List.mem_map.mp hEvent
    obtain ⟨hMem, hPass⟩ := List.mem_filter.mp hUse
    exact ⟨r, resource, use, List.mk_mem_zipIdx_iff_getElem?.mp hEntry, hMem,
      of_decide_eq_true hPass, rfl⟩
  · rintro ⟨r, resource, use, hr, hMem, hPass, rfl⟩
    refine List.mem_flatMap.mpr ⟨(resource, r), List.mk_mem_zipIdx_iff_getElem?.mpr hr, ?_⟩
    exact List.mem_map.mpr ⟨use, List.mem_filter.mpr ⟨hMem, decide_eq_true hPass⟩, rfl⟩

/-- A pass: its barriers find their layouts, and its uses theirs. -/
theorem runEvents_pass_valid_iff {g : Graph} {out : CompileResult} {p : PassId}
    {layouts final : ResourceId → ImageLayout} :
    runEvents (stepAt LayoutEvent.image layoutStep) layouts
        (barriersBefore out.imageBarriers p ++ imageUsesOf g p) = some final ↔
      PassValid g out layouts p ∧ final = transitions layouts (barriersInto out p) := by
  have hUses : ∀ event ∈ imageUsesOf g p, ∃ r layout, event = .use r layout := by
    intro event hIn
    obtain ⟨r, resource, use, -, -, -, rfl⟩ := mem_imageUsesOf.mp hIn
    exact ⟨r, _, rfl⟩
  rw [runEvents_append_eq_some]
  constructor
  · rintro ⟨mid, hBarriers, hRun⟩
    obtain ⟨hOld, rfl⟩ := runEvents_transitions_iff.mp hBarriers
    obtain ⟨hAll, rfl⟩ := (runEvents_layoutUses_iff hUses).mp hRun
    refine ⟨⟨hOld, fun r resource use hr hMem hPass => ?_⟩, rfl⟩
    exact hAll r _ (mem_imageUsesOf.mpr ⟨r, resource, use, hr, hMem, hPass, rfl⟩)
  · rintro ⟨hValid, rfl⟩
    refine ⟨_, runEvents_transitions_iff.mpr ⟨hValid.old, rfl⟩,
      (runEvents_layoutUses_iff hUses).mpr ⟨fun r layout hIn => ?_, rfl⟩⟩
    obtain ⟨r', resource, use, hr, hMem, hPass, hEvent⟩ := mem_imageUsesOf.mp hIn
    cases hEvent
    exact hValid.uses r resource use hr hMem hPass

/-- Valid transitions in all passes are a run over the layouts that gets through. -/
theorem passesValid_iff_run {g : Graph} {out : CompileResult} {passes : List PassId}
    {layouts : ResourceId → ImageLayout} :
    (∀ before p after, passes = before ++ p :: after →
      PassValid g out (layoutsAfter out layouts before) p) ↔
    ∃ final, runEvents (stepAt LayoutEvent.image layoutStep) layouts (passes.flatMap fun p =>
      barriersBefore out.imageBarriers p ++ imageUsesOf g p) = some final := by
  induction passes generalizing layouts with
  | nil => exact iff_of_true (fun before p after hSplit => by simp at hSplit) ⟨layouts, rfl⟩
  | cons p passes ih =>
    rw [List.flatMap_cons]
    constructor
    · intro hAll
      have hFirst := hAll [] p passes rfl
      obtain ⟨final, hRest⟩ := (@ih (transitions layouts (barriersInto out p))).mp
        fun before q after hSplit => hAll (p :: before) q after (by rw [hSplit]; rfl)
      exact ⟨final, runEvents_append_eq_some.mpr
        ⟨_, runEvents_pass_valid_iff.mpr ⟨hFirst, rfl⟩, hRest⟩⟩
    · rintro ⟨final, hRun⟩ before q after hSplit
      obtain ⟨mid, hPass, hRest⟩ := runEvents_append_eq_some.mp hRun
      obtain ⟨hValid, rfl⟩ := runEvents_pass_valid_iff.mp hPass
      cases before with
      | nil =>
        obtain ⟨rfl, -⟩ := List.cons.inj hSplit
        exact hValid
      | cons first before =>
        obtain ⟨rfl, hTail⟩ := List.cons.inj hSplit
        exact ih.mpr ⟨final, hRest⟩ before q after hTail

/-- The transitions of a frame are valid when they fit for every image. -/
theorem passesValid_iff_fit {g : Graph} {out : CompileResult} (hOk : compile g = .ok out)
    (registered : ResourceId → ImageLayout) :
    (∀ before p after, out.executionOrder = before ++ p :: after →
      PassValid g out (layoutsAfter out registered before) p) ↔
    ∀ r resource, g.resources[r]? = some resource → TransitionsFit g resource (registered r) := by
  have hValid : ∀ p ∈ out.executionOrder, p ≠ INVALID_PASS := by
    intro p hp
    exact g.pass_ne_invalid ((mem_executionOrder_iff hOk).mp hp).lt
  -- the run of one image
  have hImage : ∀ r resource, g.resources[r]? = some resource →
      ((∃ final, runEvents layoutStep (registered r) ((out.executionOrder.flatMap fun p =>
        barriersBefore out.imageBarriers p ++ imageUsesOf g p).filter fun e => e.image = r) =
          some final) ↔ TransitionsFit g resource (registered r)) := by
    intro r resource hr
    have hMem := List.mem_of_getElem? hr
    have hRun := fun final => @runEvents_executed_iff r _ _ (newLayout_imageBarriersOf hOk hMem r)
      out.executionOrder (registered r) final hValid
    rw [filter_passEvents hOk hr]
    simp only [hRun, passAgrees_iff hOk hMem]
    constructor
    · rintro ⟨final, ⟨hSingle, hEnters⟩, -⟩
      exact ⟨hSingle, hEnters⟩
    · intro hFit
      exact ⟨_, ⟨hFit.single, hFit.enters⟩, rfl⟩
  rw [passesValid_iff_run]
  constructor
  · rintro ⟨final, hRun⟩ r resource hr
    exact (hImage r resource hr).mp ⟨final r, runEvents_stepAt_eq_some.mp hRun r⟩
  · intro hFit
    have hEach : ∀ r, ∃ final, runEvents layoutStep (registered r)
        ((out.executionOrder.flatMap fun p => barriersBefore out.imageBarriers p ++
          imageUsesOf g p).filter fun e => e.image = r) = some final := by
      intro r
      cases hr : g.resources[r]? with
      | none =>
        rw [filter_passEvents_none hOk hr]
        exact ⟨_, rfl⟩
      | some resource => exact (hImage r resource hr).mpr (hFit r resource hr)
    choose final hFinal using hEach
    exact ⟨final, runEvents_stepAt_eq_some.mpr hFinal⟩

-- ---------------------------------------------------------------------------
-- What the calls record
-- ---------------------------------------------------------------------------

/-- The compiled lists name registered resources of the right kind. -/
structure NamesResources (g : Graph) (out : CompileResult) : Prop where
  images : ∀ barrier ∈ out.imageBarriers, ∃ resource,
    g.resources[barrier.resource]? = some resource ∧ resource.isImage = true
  buffers : ∀ barrier ∈ out.bufferBarriers, ∃ resource,
    g.resources[barrier.resource]? = some resource ∧ resource.isImage = false
  attachments : ∀ attachment ∈ out.passAttachments, ∃ resource,
    g.resources[attachment.image]? = some resource ∧ resource.isImage = true

/-- A buffer barrier is about the buffer it was made for. -/
theorem resource_of_mem_bufferBarriersOf {surviving : PassId → Bool} {resource : Resource}
    {r : ResourceId} {b : BufferBarrier} (hb : b ∈ bufferBarriersOf surviving resource r) :
    b.resource = r ∧ resource.isImage = false := by
  unfold bufferBarriersOf at hb
  split at hb
  · cases hb
  · rename_i hBuffer
    refine ⟨?_, Bool.eq_false_iff.mpr (not_or.mp hBuffer).1⟩
    have hFold : ∀ (uses : List BufferUse) (s : BufferScan), (∀ b ∈ s.barriers, b.resource = r) →
        ∀ b ∈ (uses.foldl (BufferScan.use r) s).barriers, b.resource = r := by
      intro uses
      induction uses with
      | nil => exact fun s h => h
      | cons use uses ih =>
        intro s h
        refine ih _ fun b hb => ?_
        unfold BufferScan.use at hb
        dsimp only at hb
        split at hb
        · rcases List.mem_append.mp hb with hOld | hNew
          · exact h b hOld
          · rw [List.mem_singleton.mp hNew]
        · exact h b hb
    exact hFold _ _ (fun b hb => absurd hb List.not_mem_nil) b hb

/-- An attachment is an image. -/
theorem image_of_mem_attachmentsOf {g : Graph} {p : PassId} {attachment : PassAttachment}
    (hIn : attachment ∈ attachmentsOf g p) : ∃ resource,
      g.resources[attachment.image]? = some resource ∧ resource.isImage = true := by
  have hWrite : ∃ write ∈ allUses g, attachment.image = write.1 := by
    rcases List.mem_append.mp ((attachmentsOf_perm g p).mem_iff.mp hIn) with hColor | hDepth
    · obtain ⟨write, hWrite, slot, -, rfl⟩ := mem_colorAttachments hColor
      exact ⟨write, (List.mem_filter.mp (List.mem_of_mem_take hWrite)).1, rfl⟩
    · obtain ⟨write, hWrite, rfl⟩ := mem_depthAttachments hDepth
      exact ⟨write, (List.mem_filter.mp hWrite).1, rfl⟩
  obtain ⟨write, hUse, hOwn⟩ := hWrite
  obtain ⟨⟨resource, r⟩, hEntry, hOf⟩ := List.mem_flatMap.mp hUse
  obtain ⟨use, hMem, rfl⟩ := List.mem_map.mp hOf
  have hr := List.mk_mem_zipIdx_iff_getElem?.mp hEntry
  refine ⟨resource, hOwn ▸ hr, ?_⟩
  by_contra hBuffer
  have hNone := (g.declared resource (List.mem_of_getElem? hr)).buffer
    (Bool.eq_false_iff.mpr hBuffer)
  rw [hNone.1] at hMem
  cases hMem

/-- What the result names are resources of the graph. -/
theorem namesResources {g : Graph} {out : CompileResult} (hOk : compile g = .ok out) :
    NamesResources g out := by
  obtain ⟨-, rfl⟩ := compile_eq_ok_iff.mp hOk
  refine ⟨fun barrier hIn => ?_, fun barrier hIn => ?_, fun attachment hIn => ?_⟩
  · obtain ⟨⟨resource, r⟩, hEntry, hOf⟩ := List.mem_flatMap.mp hIn
    rw [resource_of_mem_imageBarriersOf hOf]
    refine ⟨resource, List.mk_mem_zipIdx_iff_getElem?.mp hEntry, ?_⟩
    by_contra hBuffer
    have hNone : imageBarriersOf (survivors g (topologicalOrder g)) resource r = [] :=
      if_pos (Or.inl (Bool.eq_false_iff.mpr hBuffer))
    have hEmpty : barrier ∈ ([] : List ImageBarrier) := hNone ▸ hOf
    cases hEmpty
  · obtain ⟨⟨resource, r⟩, hEntry, hOf⟩ := List.mem_flatMap.mp hIn
    obtain ⟨hOwn, hBuffer⟩ := resource_of_mem_bufferBarriersOf hOf
    rw [hOwn]
    exact ⟨resource, List.mk_mem_zipIdx_iff_getElem?.mp hEntry, hBuffer⟩
  · obtain ⟨p, -, hOf⟩ := List.mem_flatMap.mp hIn
    split at hOf
    · exact image_of_mem_attachmentsOf hOf
    · cases hOf

/-- The resources are registered, the textures in the given layouts. -/
structure Registered (g : Graph) (layouts : ResourceId → ImageLayout) (s : GraphRecorder) :
    Prop where
  textures : ∀ (r : ResourceId) (resource : Resource), g.resources[r]? = some resource →
    resource.isImage = true → s.textures[r]? = some (some ⟨true, layouts r⟩)
  buffers : ∀ (r : ResourceId) (resource : Resource), g.resources[r]? = some resource →
    resource.isImage = false → s.buffers[r]? = some (some true)

/-- From `s`, `emitted` has been recorded, and nothing else of the frame has changed. -/
structure Emits (g : Graph) (layouts : ResourceId → ImageLayout) (emitted : List GraphCommand)
    (s last : GraphRecorder) : Prop where
  registered : Registered g layouts last
  frameActive : last.frameActive = s.frameActive
  graph : last.graph = s.graph
  activePass : last.activePass = s.activePass
  commands : last.commands = s.commands ++ emitted

/-- Between two passes of the frame. -/
structure BetweenPasses (g : Graph) (out : CompileResult) (layouts : ResourceId → ImageLayout)
    (s : GraphRecorder) : Prop where
  registered : Registered g layouts s
  frameActive : s.frameActive = true
  graph : s.graph = out
  idle : s.activePass = INVALID_PASS

/-- Nothing has been emitted. -/
theorem Emits.refl {g : Graph} {layouts : ResourceId → ImageLayout} {s : GraphRecorder}
    (h : Registered g layouts s) : Emits g layouts [] s s :=
  ⟨h, rfl, rfl, rfl, (List.append_nil _).symm⟩

/-- First one, then the other. -/
theorem Emits.trans {g : Graph} {layouts layouts' : ResourceId → ImageLayout}
    {first second : List GraphCommand} {s middle last : GraphRecorder}
    (h : Emits g layouts first s middle) (hNext : Emits g layouts' second middle last) :
    Emits g layouts' (first ++ second) s last := by
  refine ⟨hNext.registered, hNext.frameActive.trans h.frameActive, hNext.graph.trans h.graph,
    hNext.activePass.trans h.activePass, ?_⟩
  rw [hNext.commands, h.commands, List.append_assoc]

section Calls

variable {g : Graph} {layouts : ResourceId → ImageLayout} {s : GraphRecorder}

/-- The texture of an image. -/
theorem Registered.texture? (h : Registered g layouts s) {r : ResourceId} {resource : Resource}
    (hr : g.resources[r]? = some resource) (hImage : resource.isImage = true) :
    s.texture? r = some ⟨true, layouts r⟩ := by
  rw [GraphRecorder.texture?, h.textures r resource hr hImage]
  rfl

/-- The buffer of a buffer. -/
theorem Registered.hasBuffer (h : Registered g layouts s) {r : ResourceId} {resource : Resource}
    (hr : g.resources[r]? = some resource) (hBuffer : resource.isImage = false) :
    s.hasBuffer r = true := by
  rw [GraphRecorder.hasBuffer, h.buffers r resource hr hBuffer]
  rfl

/-- An image barrier is emitted, and the layout of its image is the new one. -/
theorem emitImageBarrier_ok (h : Registered g layouts s) {barrier : ImageBarrier}
    (hImage : ∃ resource, g.resources[barrier.resource]? = some resource ∧
      resource.isImage = true) :
    ∃ last, emitImageBarrier barrier s = .ok () last ∧
      Emits g (Function.update layouts barrier.resource barrier.newLayout)
        [.imageBarrier barrier (layouts barrier.resource)] s last := by
  obtain ⟨resource, hr, hKind⟩ := hImage
  have hLt : barrier.resource < s.textures.length :=
    (List.getElem?_eq_some_iff.mp (h.textures _ resource hr hKind)).1
  unfold emitImageBarrier
  rw [bind_of_ok (get_run s), h.texture? hr hKind]
  refine ⟨_, rfl, ⟨fun r other hOther hImage => ?_, h.buffers⟩, rfl, rfl, rfl, rfl⟩
  show (s.textures.set _ _)[r]? = _
  by_cases hSame : r = barrier.resource
  · subst hSame
    rw [List.getElem?_set_self hLt, Function.update_self]
  · rw [List.getElem?_set_ne (Ne.symm hSame), Function.update_of_ne hSame]
    exact h.textures r other hOther hImage

/-- One barrier after another. -/
theorem emitImageBarriers_ok (p : PassId) {barriers : List ImageBarrier}
    (h : Registered g layouts s) (hImages : ∀ barrier ∈ barriers, ∃ resource,
      g.resources[barrier.resource]? = some resource ∧ resource.isImage = true) :
    ∃ last, emitImageBarriers p barriers s = .ok () last ∧
      Emits g (transitions layouts (barriers.filter fun b => b.beforePass = p))
        ((foundBy layouts (barriers.filter fun b => b.beforePass = p)).map
          fun entry => .imageBarrier entry.1 entry.2) s last := by
  induction barriers generalizing layouts s with
  | nil => exact ⟨s, rfl, .refl h⟩
  | cons barrier barriers ih =>
    obtain ⟨hImage, hRest⟩ := List.forall_mem_cons.mp hImages
    by_cases hBefore : barrier.beforePass = p
    · obtain ⟨middle, hEmit, hFirst⟩ := emitImageBarrier_ok h hImage
      obtain ⟨last, hRun, hLater⟩ := ih hFirst.registered hRest
      have hOwn : emitImageBarriers p (barrier :: barriers) s = .ok () last := by
        rw [emitImageBarriers, if_pos hBefore, bind_of_ok hEmit]
        exact hRun
      rw [List.filter_cons_of_pos (by simpa using hBefore)]
      exact ⟨last, hOwn, hFirst.trans hLater⟩
    · obtain ⟨last, hRun, hLater⟩ := ih h hRest
      have hOwn : emitImageBarriers p (barrier :: barriers) s = .ok () last := by
        rw [emitImageBarriers, if_neg hBefore]
        exact hRun
      rw [List.filter_cons_of_neg (by simpa using hBefore)]
      exact ⟨last, hOwn, hLater⟩

/-- Buffer barriers are emitted, and no layout changes. -/
theorem emitBufferBarriers_ok (p : PassId) {barriers : List BufferBarrier}
    (h : Registered g layouts s) (hBuffers : ∀ barrier ∈ barriers, ∃ resource,
      g.resources[barrier.resource]? = some resource ∧ resource.isImage = false) :
    ∃ last, emitBufferBarriers p barriers s = .ok () last ∧
      Emits g layouts ((barriers.filter fun b => b.beforePass = p).map .bufferBarrier) s last := by
  induction barriers generalizing s with
  | nil => exact ⟨s, rfl, .refl h⟩
  | cons barrier barriers ih =>
    obtain ⟨⟨resource, hr, hKind⟩, hRest⟩ := List.forall_mem_cons.mp hBuffers
    by_cases hBefore : barrier.beforePass = p
    · let middle : GraphRecorder := { s with commands := s.commands ++ [.bufferBarrier barrier] }
      have hFirst : Emits g layouts [.bufferBarrier barrier] s middle :=
        ⟨⟨h.textures, h.buffers⟩, rfl, rfl, rfl, rfl⟩
      obtain ⟨last, hRun, hLater⟩ := ih hFirst.registered hRest
      have hOwn : emitBufferBarriers p (barrier :: barriers) s = .ok () last := by
        rw [emitBufferBarriers, if_pos hBefore]
        dsimp only
        rw [bind_of_ok (get_run s), h.hasBuffer hr hKind, if_neg (by decide)]
        exact hRun
      rw [List.filter_cons_of_pos (by simpa using hBefore)]
      exact ⟨last, hOwn, hFirst.trans hLater⟩
    · obtain ⟨last, hRun, hLater⟩ := ih h hRest
      have hOwn : emitBufferBarriers p (barrier :: barriers) s = .ok () last := by
        rw [emitBufferBarriers, if_neg hBefore]
        exact hRun
      rw [List.filter_cons_of_neg (by simpa using hBefore)]
      exact ⟨last, hOwn, hLater⟩

/-- The attachments are all there. -/
theorem checkAttachments_ok (h : Registered g layouts s) {attachments : List PassAttachment}
    (hImages : ∀ attachment ∈ attachments, ∃ resource,
      g.resources[attachment.image]? = some resource ∧ resource.isImage = true) :
    checkAttachments attachments s = .ok () s := by
  have hNone : (attachments.any fun attachment =>
      (s.texture? attachment.image).isNone) = false := by
    rw [List.any_eq_false]
    intro attachment hIn
    obtain ⟨resource, hr, hKind⟩ := hImages attachment hIn
    rw [h.texture? hr hKind]
    exact Bool.false_ne_true
  unfold checkAttachments
  rw [bind_of_ok (get_run s), hNone]
  rfl

end Calls

section Frame

variable {g : Graph} {out : CompileResult} {layouts : ResourceId → ImageLayout}
  {s : GraphRecorder}

/-- A pass is begun behind its transitions. -/
theorem beginGraphPass_ok (hNames : NamesResources g out) (h : BetweenPasses g out layouts s)
    (p : PassId) :
    ∃ last rest, beginGraphPass p s = .ok () last ∧
      Registered g (transitions layouts (barriersInto out p)) last ∧
      (last.frameActive = true ∧ last.graph = out ∧ last.activePass = p) ∧
      last.commands = s.commands ++ ((foundBy layouts (barriersInto out p)).map
        (fun entry => GraphCommand.imageBarrier entry.1 entry.2) ++ rest) ∧
      ∀ barrier found, GraphCommand.imageBarrier barrier found ∉ rest := by
  let attachments := out.passAttachments.filter fun attachment => attachment.pass = p
  obtain ⟨middle, hImages, hFirst⟩ := emitImageBarriers_ok p h.registered hNames.images
  obtain ⟨last, hBuffers, hSecond⟩ := emitBufferBarriers_ok p hFirst.registered hNames.buffers
  have hCheck : checkAttachments attachments last = .ok () last :=
    checkAttachments_ok hSecond.registered fun attachment hIn =>
      hNames.attachments attachment (List.mem_filter.mp hIn).1
  have hRun : beginGraphPass p s = .ok () (last.beginRendering p attachments) := by
    unfold beginGraphPass
    rw [bind_of_ok (get_run s), h.frameActive, h.idle, h.graph, if_neg (by decide),
      if_neg (by decide)]
    dsimp only
    rw [bind_of_ok hImages, bind_of_ok hBuffers, bind_of_ok hCheck]
    rfl
  obtain ⟨rendering, hRendering, hOther⟩ : ∃ rendering,
      (last.beginRendering p attachments).commands = last.commands ++ rendering ∧
      ∀ barrier found, GraphCommand.imageBarrier barrier found ∉ rendering := by
    by_cases hNone : attachments = []
    · refine ⟨[], ?_, fun _ _ => List.not_mem_nil⟩
      rw [GraphRecorder.beginRendering, if_pos hNone, List.append_nil]
    · have hMade := congrArg GraphRecorder.commands
        (GraphRecorder.beginRendering.eq_1 last p attachments)
      dsimp only at hMade
      rw [if_neg hNone] at hMade
      refine ⟨_, hMade, fun _ _ hIn => ?_⟩
      exact nomatch List.mem_singleton.mp hIn
  have hEmits := hFirst.trans hSecond
  refine ⟨_, (out.bufferBarriers.filter fun b => b.beforePass = p).map .bufferBarrier ++ rendering,
    hRun, ⟨hEmits.registered.textures, hEmits.registered.buffers⟩,
    ⟨hEmits.frameActive.trans h.frameActive, hEmits.graph.trans h.graph, rfl⟩, ?_, ?_⟩
  · rw [hRendering, hEmits.commands]
    simp only [List.append_assoc]
    rfl
  · intro barrier found hIn
    rcases List.mem_append.mp hIn with hBuffer | hRender
    · obtain ⟨b, -, hSame⟩ := List.mem_map.mp hBuffer
      cases hSame
    · exact hOther barrier found hRender

/-- A pass that has been begun is ended. -/
theorem endGraphPass_ok {p : PassId} (hp : p ≠ INVALID_PASS) (h : Registered g layouts s)
    (hFrame : s.frameActive = true ∧ s.graph = out ∧ s.activePass = p) :
    ∃ last, endGraphPass s = .ok () last ∧ BetweenPasses g out layouts last := by
  have hActive : s.activePass ≠ INVALID_PASS := by
    rw [hFrame.2.2]
    exact hp
  unfold endGraphPass
  rw [bind_of_ok (get_run s), if_neg hActive]
  exact ⟨_, rfl, ⟨h.textures, h.buffers⟩, hFrame.1, hFrame.2.1, rfl⟩

/-- The calls for some passes succeed. -/
theorem recordPasses_ok (hNames : NamesResources g out) {passes : List PassId}
    (hPasses : ∀ p ∈ passes, p ≠ INVALID_PASS) (h : BetweenPasses g out layouts s) :
    ∃ last, recordPasses passes s = .ok () last ∧
      BetweenPasses g out (layoutsAfter out layouts passes) last := by
  induction passes generalizing layouts s with
  | nil => exact ⟨s, rfl, h⟩
  | cons p passes ih =>
    obtain ⟨hp, hRest⟩ := List.forall_mem_cons.mp hPasses
    obtain ⟨begun, rest, hBegin, hRegistered, hFrame, -, -⟩ := beginGraphPass_ok hNames h p
    obtain ⟨ended, hEnd, hBetween⟩ := endGraphPass_ok hp hRegistered hFrame
    obtain ⟨last, hRun, hLast⟩ := ih hRest hBetween
    refine ⟨last, ?_, hLast⟩
    rw [recordPasses, bind_of_ok hBegin, bind_of_ok hEnd]
    exact hRun

/-- What the recorder does in one pass is valid when the layouts it goes through are. -/
theorem passRecordsValidly_iff (hNames : NamesResources g out) (h : BetweenPasses g out layouts s)
    {before : List PassId} {p : PassId} (hBefore : ∀ q ∈ before, q ≠ INVALID_PASS) :
    PassRecordsValidly g s before p ↔ PassValid g out (layoutsAfter out layouts before) p := by
  obtain ⟨middle, hRecord, hBetween⟩ := recordPasses_ok hNames hBefore h
  obtain ⟨last, rest, hBegin, hRegistered, -, hCommands, hRest⟩ :=
    beginGraphPass_ok hNames hBetween p
  have hLayout : ∀ r resource use, g.resources[r]? = some resource → use ∈ resource.imageUses →
      (last.texture? r).map GraphTexture.layout =
        some (transitions (layoutsAfter out layouts before) (barriersInto out p) r) := by
    intro r resource use hr hUse
    have hImage : resource.isImage = true := by
      by_contra hBuffer
      have hNone := (g.declared resource (List.mem_of_getElem? hr)).buffer
        (Bool.eq_false_iff.mpr hBuffer)
      rw [hNone.1] at hUse
      cases hUse
    rw [hRegistered.texture? hr hImage]
    rfl
  constructor
  · rintro ⟨middle', last', hRecord', hBegin', ⟨emitted, hEmitted, hOld⟩, hUses⟩
    obtain rfl : middle = middle' := by
      rw [hRecord] at hRecord'
      exact (EStateM.Result.ok.inj hRecord').2
    obtain rfl : last = last' := by
      rw [hBegin] at hBegin'
      exact (EStateM.Result.ok.inj hBegin').2
    refine ⟨fun entry hIn => ?_, fun r resource use hr hUse hPass => ?_⟩
    · obtain rfl := List.append_cancel_left (hCommands.symm.trans hEmitted)
      refine hOld entry.1 entry.2 (List.mem_append_left _ ?_)
      exact List.mem_map.mpr ⟨entry, hIn, rfl⟩
    · have hFound := hUses r resource use hr hUse hPass
      rw [hLayout r resource use hr hUse] at hFound
      exact Option.some.inj hFound
  · intro hValid
    refine ⟨middle, last, hRecord, hBegin, ⟨_, hCommands, fun barrier found hIn => ?_⟩, ?_⟩
    · rcases List.mem_append.mp hIn with hImage | hOther
      · obtain ⟨entry, hEntry, hSame⟩ := List.mem_map.mp hImage
        cases hSame
        exact hValid.old entry hEntry
      · exact absurd hOther (hRest barrier found)
    · intro r resource use hr hUse hPass
      rw [hLayout r resource use hr hUse, hValid.uses r resource use hr hUse hPass]

end Frame

-- ---------------------------------------------------------------------------
-- The start of a frame
-- ---------------------------------------------------------------------------

/-- One more than there are. -/
theorem resize_succ {α : Type} {xs : List α} {n : Nat} (hLength : xs.length = n) (fill : α) :
    resize xs (n + 1) fill = xs ++ [fill] := by
  subst hLength
  rw [resize, Nat.add_sub_cancel_left]
  exact List.take_of_length_le (by simp)

/-- The last place of a list that has just grown is filled. -/
theorem set_resize {α : Type} {xs : List α} {n : Nat} (hLength : xs.length = n) (fill x : α) :
    (resize xs (n + 1) fill).set n x = xs ++ [x] := by
  rw [resize_succ hLength]
  subst hLength
  rw [List.set_append_right _ _ (Nat.le_refl _), Nat.sub_self]
  rfl

/-- The first resources of the graph are registered. -/
structure RegisteredUpTo (g : Graph) (out : CompileResult) (registered : ResourceId → ImageLayout)
    (n : Nat) (s : GraphRecorder) : Prop where
  frame : s.frameActive = true ∧ s.graph = out ∧ s.activePass = INVALID_PASS
  sizes : s.textures.length = n ∧ s.buffers.length = n
  textures : ∀ (r : ResourceId) (resource : Resource), r < n → g.resources[r]? = some resource →
    resource.isImage = true → s.textures[r]? = some (some ⟨true, registered r⟩)
  buffers : ∀ (r : ResourceId) (resource : Resource), r < n → g.resources[r]? = some resource →
    resource.isImage = false → s.buffers[r]? = some (some true)

section Start

variable {g : Graph} {out : CompileResult} {registered : ResourceId → ImageLayout} {n : Nat}
  {s : GraphRecorder}

/-- One more resource stands at the end of the lists. -/
theorem RegisteredUpTo.next (h : RegisteredUpTo g out registered n s) {resource : Resource}
    (hr : g.resources[n]? = some resource) {last : GraphRecorder}
    (hFrame : last.frameActive = true ∧ last.graph = out ∧ last.activePass = INVALID_PASS)
    {texture : Option GraphTexture} {buffer : Option Bool}
    (hTextures : last.textures = s.textures ++ [texture])
    (hBuffers : last.buffers = s.buffers ++ [buffer])
    (hTexture : resource.isImage = true → texture = some ⟨true, registered n⟩)
    (hBuffer : resource.isImage = false → buffer = some true) :
    RegisteredUpTo g out registered (n + 1) last := by
  obtain ⟨hTexturesSize, hBuffersSize⟩ := h.sizes
  have hHere : ∀ {r : Nat} {other : Resource}, ¬r < n → r < n + 1 → g.resources[r]? = some other →
      r = n ∧ other = resource := by
    intro r other hNot hLt hOther
    obtain rfl : r = n := by omega
    exact ⟨rfl, Option.some.inj (hOther.symm.trans hr)⟩
  refine ⟨hFrame, ⟨?_, ?_⟩, fun r other hLt hOther hImage => ?_, fun r other hLt hOther hKind => ?_⟩
  · rw [hTextures, List.length_append, hTexturesSize]
    rfl
  · rw [hBuffers, List.length_append, hBuffersSize]
    rfl
  · rw [hTextures]
    by_cases hOld : r < n
    · rw [List.getElem?_append_left (hTexturesSize ▸ hOld)]
      exact h.textures r other hOld hOther hImage
    · obtain ⟨rfl, rfl⟩ := hHere hOld hLt hOther
      rw [← hTexturesSize, List.getElem?_concat_length, hTexture hImage, hTexturesSize]
  · rw [hBuffers]
    by_cases hOld : r < n
    · rw [List.getElem?_append_left (hBuffersSize ▸ hOld)]
      exact h.buffers r other hOld hOther hKind
    · obtain ⟨rfl, rfl⟩ := hHere hOld hLt hOther
      rw [← hBuffersSize, List.getElem?_concat_length, hBuffer hKind]

/-- A resource is registered where the tables end. -/
theorem registerResource_ok (h : RegisteredUpTo g out registered n s) {resource : Resource}
    (hr : g.resources[n]? = some resource) :
    ∃ last, registerResource registered (resource, n) s = .ok () last ∧
      RegisteredUpTo g out registered (n + 1) last := by
  obtain ⟨hTextures, hBuffers⟩ := h.sizes
  obtain ⟨hActive, hGraph, hIdle⟩ := h.frame
  unfold registerResource
  cases hKind : resource.isImage with
  | true =>
    unfold registerGraphTexture
    rw [if_pos rfl, bind_of_ok (get_run s), hActive, if_neg (by decide)]
    refine ⟨_, rfl, ?_⟩
    dsimp only
    rw [if_pos (Nat.le_of_eq hTextures)]
    refine h.next hr ⟨hActive, hGraph, hIdle⟩ (set_resize hTextures none _)
      (resize_succ hBuffers none) (fun _ => rfl) fun hBuffer => ?_
    rw [hKind] at hBuffer
    cases hBuffer
  | false =>
    unfold registerGraphBuffer
    rw [if_neg (by decide), bind_of_ok (get_run s), hActive, if_neg (by decide)]
    refine ⟨_, rfl, ?_⟩
    dsimp only
    rw [if_pos (Nat.le_of_eq hBuffers)]
    refine h.next hr ⟨hActive, hGraph, hIdle⟩ (resize_succ hTextures none)
      (set_resize hBuffers none _) (fun hImage => ?_) fun _ => rfl
    rw [hKind] at hImage
    cases hImage

/-- One resource after another. -/
theorem registerResources_ok {resources : List Resource}
    (hThere : ∀ i resource, resources[i]? = some resource → g.resources[n + i]? = some resource)
    (h : RegisteredUpTo g out registered n s) :
    ∃ last, registerResources registered (resources.zipIdx n) s = .ok () last ∧
      RegisteredUpTo g out registered (n + resources.length) last := by
  induction resources generalizing n s with
  | nil => exact ⟨s, rfl, h⟩
  | cons resource resources ih =>
    obtain ⟨middle, hFirst, hNext⟩ := registerResource_ok h (hThere 0 resource rfl)
    obtain ⟨last, hRun, hLast⟩ := ih (fun i other hOther => by
      have hLater := hThere (i + 1) other hOther
      rwa [Nat.add_comm i, ← Nat.add_assoc] at hLater) hNext
    refine ⟨last, ?_, ?_⟩
    · rw [List.zipIdx_cons, registerResources, bind_of_ok hFirst]
      exact hRun
    · rw [List.length_cons, Nat.add_comm resources.length, ← Nat.add_assoc]
      exact hLast

/-- A frame is started, whatever has been recorded before. -/
theorem startFrame_ok (g : Graph) (out : CompileResult) (registered : ResourceId → ImageLayout)
    (s : GraphRecorder) :
    ∃ first, startFrame g out registered s = .ok () first ∧
      BetweenPasses g out registered first := by
  let opened : GraphRecorder :=
    { frameActive := true, passHasRendering := s.passHasRendering, graph := out }
  have hOpened : RegisteredUpTo g out registered 0 opened :=
    ⟨⟨rfl, rfl, rfl⟩, ⟨rfl, rfl⟩, fun r _ hLt => absurd hLt (Nat.not_lt_zero r),
      fun r _ hLt => absurd hLt (Nat.not_lt_zero r)⟩
  obtain ⟨first, hRun, hFirst⟩ := @registerResources_ok g out registered 0 opened g.resources
    (fun i resource hr => by rwa [Nat.zero_add]) hOpened
  rw [Nat.zero_add] at hFirst
  have hLt : ∀ {r : ResourceId} {resource : Resource}, g.resources[r]? = some resource →
      r < g.resources.length := fun hr => (List.getElem?_eq_some_iff.mp hr).1
  refine ⟨first, hRun, ⟨fun r resource hr => hFirst.textures r resource (hLt hr) hr,
    fun r resource hr => hFirst.buffers r resource (hLt hr) hr⟩, hFirst.frame.1, hFirst.frame.2.1,
    hFirst.frame.2.2⟩

end Start

-- ---------------------------------------------------------------------------
-- Valid frames
-- ---------------------------------------------------------------------------

/-- The transitions of a frame are valid for the given layouts of its textures exactly when
they fit for every image. -/
theorem recordsValidly_iff {g : Graph} {out : CompileResult} (hOk : compile g = .ok out)
    (registered : ResourceId → ImageLayout) (s : GraphRecorder) :
    RecordsValidly g out registered s ↔
      ∀ r resource, g.resources[r]? = some resource → TransitionsFit g resource (registered r) := by
  obtain ⟨first, hStart, hBetween⟩ := startFrame_ok g out registered s
  have hValid : ∀ p ∈ out.executionOrder, p ≠ INVALID_PASS := by
    intro p hp
    exact g.pass_ne_invalid ((mem_executionOrder_iff hOk).mp hp).lt
  have hPass : ∀ before p after, out.executionOrder = before ++ p :: after →
      (PassRecordsValidly g first before p ↔
        PassValid g out (layoutsAfter out registered before) p) := by
    intro before p after hSplit
    refine passRecordsValidly_iff (namesResources hOk) hBetween fun q hq => hValid q ?_
    rw [hSplit]
    exact List.mem_append_left _ hq
  rw [← passesValid_iff_fit hOk]
  constructor
  · rintro ⟨first', hStart', hAll⟩ before p after hSplit
    obtain rfl : first = first' := by
      rw [hStart] at hStart'
      exact (EStateM.Result.ok.inj hStart').2
    exact (hPass before p after hSplit).mp (hAll before p after hSplit)
  · intro hAll
    exact ⟨first, hStart, fun before p after hSplit =>
      (hPass before p after hSplit).mpr (hAll before p after hSplit)⟩

/-- A backbuffer that really is in the layout in which it is declared. -/
theorem recordsValidly_presentGraph : ∃ out, compile presentGraph = .ok out ∧
    RecordsValidly presentGraph out (fun _ => .undefined) {} := by
  have hOk : compile presentGraph = .ok (assemble presentGraph [0, 1]) := rfl
  refine ⟨_, hOk, (recordsValidly_iff hOk _ _).mpr fun r resource hr => ?_⟩
  have hMem := List.mem_of_getElem? hr
  have hInitial : resource.initialLayout = .undefined ∧ r = 0 := by
    rcases r with - | r
    · obtain rfl := Option.some.inj hr
      exact ⟨rfl, rfl⟩
    · exact nomatch hr
  obtain ⟨hUndefined, rfl⟩ := hInitial
  have hAgree : LayoutsAgree presentGraph resource :=
    (runEvents_image_iff hOk hMem hr).mp ⟨.presentSrc, by rw [hUndefined]; rfl, fun _ => rfl⟩
  exact ⟨hAgree.single, hUndefined ▸ hAgree.enters⟩

/-- The backbuffer of the frame before is still in the layout in which it was presented. Its
first transition starts from the declared layout all the same. -/
theorem not_recordsValidly_presentGraph : ∃ out, compile presentGraph = .ok out ∧
    ¬RecordsValidly presentGraph out (fun _ => .presentSrc) {} := by
  refine ⟨assemble presentGraph [0, 1], rfl, ?_⟩
  rintro ⟨first, hStart, hAll⟩
  obtain ⟨⟨middle, last, hBefore, hBegin, ⟨emitted, hCommands, hOld⟩, -⟩⟩ := hAll [] 0 [1] rfl
  obtain rfl : first = middle := (EStateM.Result.ok.inj hBefore).2
  -- what the first pass records
  have hRun : (match startFrame presentGraph (assemble presentGraph [0, 1])
      (fun _ => .presentSrc) {} with
    | .ok _ first => match beginGraphPass 0 first with
      | .ok _ last => first.commands.isEmpty && last.commands.any fun
        | .imageBarrier barrier found => barrier.oldLayout != found
        | _ => false
      | .error _ _ => false
    | .error _ _ => false) = true := by decide +kernel
  rw [hStart] at hRun
  dsimp only at hRun
  rw [hBegin] at hRun
  dsimp only at hRun
  obtain ⟨hEmpty, hWrong⟩ := (Bool.and_eq_true_iff.mp hRun)
  rw [hCommands, List.isEmpty_iff.mp hEmpty, List.nil_append, List.any_eq_true] at hWrong
  obtain ⟨command, hIn, hDiffers⟩ := hWrong
  cases command with
  | imageBarrier barrier found => exact (bne_iff_ne.mp hDiffers) (hOld barrier found hIn)
  | bufferBarrier => exact Bool.false_ne_true hDiffers
  | beginRendering => exact Bool.false_ne_true hDiffers
  | endRendering => exact Bool.false_ne_true hDiffers

end Ithax.RenderGraph
