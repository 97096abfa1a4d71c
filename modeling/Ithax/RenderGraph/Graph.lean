import Mathlib.Algebra.Group.Nat.Defs
import Mathlib.Data.List.Basic

/-!
# Render graph declarations

The declaration half of `trinityal-vulkan/Tr2RenderGraphALVulkan.cpp`: images,
buffers, passes and the uses passes make of them, in the order they are declared.

The checks of the declaring calls are fields of `Graph`, so that a graph in
which a use names a pass that does not exist cannot be built.
-/

namespace Ithax.RenderGraph

/-- The index of a pass in the order of declaration. -/
abbrev PassId := Nat
/-- The index of a resource. -/
abbrev ResourceId := Nat

/-- The largest `uint32_t`. -/
def UINT32_MAX : Nat := 2 ^ 32 - 1
/-- What `AddImage` and `AddBuffer` return when there is no room. -/
def INVALID_RESOURCE : ResourceId := UINT32_MAX
/-- What `AddPass` returns when there is no room; also the end of the frame, in a barrier. -/
def INVALID_PASS : PassId := UINT32_MAX
/-- The largest number of passes. -/
def MAX_PASS_COUNT : Nat := 4096
/-- The largest number of resources. -/
def MAX_RESOURCE_COUNT : Nat := 4096

-- ---------------------------------------------------------------------------
-- Vulkan values
-- ---------------------------------------------------------------------------

/-- The layouts with an enumerator of their own below. -/
def namedLayouts : List UInt32 := [0, 1, 2, 3, 4, 5, 6, 7, 8, 1000001002]

/-- `VkImageLayout`. -/
inductive ImageLayout where
  | undefined | general | colorAttachmentOptimal | depthStencilAttachmentOptimal
  | depthStencilReadOnlyOptimal | shaderReadOnlyOptimal | transferSrcOptimal
  | transferDstOptimal | preinitialized | presentSrc
  | other (raw : UInt32) (unnamed : raw ∉ namedLayouts)
  deriving DecidableEq, Repr

/-- `VkAttachmentLoadOp`. -/
inductive LoadOp where
  | load | clear | dontCare
  deriving DecidableEq, Repr

/-- `VkAttachmentStoreOp`. -/
inductive StoreOp where
  | store | dontCare
  deriving DecidableEq, Repr

/-- `VkClearValue`, as its four words. -/
structure ClearValue where
  word0 : UInt32 := 0
  word1 : UInt32 := 0
  word2 : UInt32 := 0
  word3 : UInt32 := 0
  deriving DecidableEq, Repr

-- ---------------------------------------------------------------------------
-- Declarations
-- ---------------------------------------------------------------------------

/-- The queues of a pass. -/
inductive Queue where
  | graphics
  deriving DecidableEq, Repr

/-- How a pass uses an image. -/
inductive ImageAccess where
  | colorAttachment | depthAttachment | shaderRead | transferWrite | transferRead
  deriving DecidableEq, Repr

/-- How a pass uses a buffer. -/
inductive BufferAccess where
  | vertexRead | indexRead | shaderRead | transferWrite | transferRead
  deriving DecidableEq, Repr

/-- One declared use of an image. The last three fields are those of an attachment. -/
structure ImageUse where
  pass : PassId
  isRead : Bool
  access : ImageAccess
  loadOp : LoadOp := .load
  storeOp : StoreOp := .store
  clearValue : ClearValue := {}
  deriving DecidableEq, Repr

/-- One declared use of a buffer. -/
structure BufferUse where
  pass : PassId
  isRead : Bool
  access : BufferAccess
  deriving DecidableEq, Repr

/-- Who uses a resource and how: what the ordering looks at. -/
structure UseMark where
  pass : PassId
  isRead : Bool
  deriving DecidableEq, Repr

/-- The mark of an image use. -/
def ImageUse.mark (use : ImageUse) : UseMark := ⟨use.pass, use.isRead⟩

/-- The mark of a buffer use. -/
def BufferUse.mark (use : BufferUse) : UseMark := ⟨use.pass, use.isRead⟩

/-- An image or a buffer, with the uses declared of it. -/
structure Resource where
  name : String
  isImage : Bool
  initialLayout : ImageLayout := .undefined
  presented : Bool := false
  imageUses : List ImageUse := []
  bufferUses : List BufferUse := []
  deriving DecidableEq, Repr

/-- The uses of a resource, in the order of their declaration. -/
def Resource.uses (resource : Resource) : List UseMark :=
  if resource.isImage then resource.imageUses.map ImageUse.mark
  else resource.bufferUses.map BufferUse.mark

/-- The uses name passes below `passCount`; only an image has image uses and is
presented, only a buffer has buffer uses. -/
structure Resource.Declared (passCount : Nat) (resource : Resource) : Prop where
  imagePass : ∀ use ∈ resource.imageUses, use.pass < passCount
  bufferPass : ∀ use ∈ resource.bufferUses, use.pass < passCount
  image : resource.isImage = true → resource.bufferUses = []
  buffer : resource.isImage = false → resource.imageUses = [] ∧ resource.presented = false

/-- A declared pass. -/
structure Pass where
  name : String
  queue : Queue := .graphics
  cullable : Bool := false
  deriving DecidableEq, Repr

/-- The declarations, none of them dangling. -/
structure Graph where
  resources : List Resource
  passes : List Pass
  declared : ∀ resource ∈ resources, resource.Declared passes.length
  resourceCount : resources.length ≤ MAX_RESOURCE_COUNT
  passCount : passes.length ≤ MAX_PASS_COUNT
  deriving DecidableEq, Repr

/-- More passes do no harm. -/
theorem Resource.Declared.mono {m n : Nat} (hmn : m ≤ n) {resource : Resource}
    (h : resource.Declared m) : resource.Declared n :=
  ⟨fun use hMem => Nat.lt_of_lt_of_le (h.imagePass use hMem) hmn,
    fun use hMem => Nat.lt_of_lt_of_le (h.bufferPass use hMem) hmn, h.image, h.buffer⟩

/-- The pass of a use exists. -/
theorem Resource.Declared.pass_lt {n : Nat} {resource : Resource} (h : resource.Declared n)
    {use : UseMark} (hUse : use ∈ resource.uses) : use.pass < n := by
  unfold Resource.uses at hUse
  split at hUse
  · obtain ⟨image, hMem, rfl⟩ := List.mem_map.mp hUse
    exact h.imagePass image hMem
  · obtain ⟨buffer, hMem, rfl⟩ := List.mem_map.mp hUse
    exact h.bufferPass buffer hMem

/-- Only images are presented. -/
theorem Resource.Declared.isImage {n : Nat} {resource : Resource} (h : resource.Declared n)
    (hPresented : resource.presented = true) : resource.isImage = true := by
  by_contra hBuffer
  have hKind := h.buffer (Bool.eq_false_iff.mpr hBuffer)
  exact Bool.false_ne_true (hKind.2.symm.trans hPresented)

/-- The reserved id names no pass. -/
theorem Graph.pass_ne_invalid (g : Graph) {p : PassId} (h : p < g.passes.length) :
    p ≠ INVALID_PASS := by
  have hSmall : MAX_PASS_COUNT < INVALID_PASS := by decide
  exact Nat.ne_of_lt (Nat.lt_trans (Nat.lt_of_lt_of_le h g.passCount) hSmall)

-- ---------------------------------------------------------------------------
-- The declaring calls
-- ---------------------------------------------------------------------------

/-- `ALResult`, as far as the declaring calls return it. -/
inductive ALResult where
  | ok | invalidArg | invalidCall
  deriving DecidableEq, Repr

namespace Graph

/-- No declarations. -/
def empty : Graph where
  resources := []
  passes := []
  declared _ h := absurd h List.not_mem_nil
  resourceCount := Nat.zero_le _
  passCount := Nat.zero_le _

/-- Appends a resource without uses, if there is room for one. -/
def addResource (g : Graph) (resource : Resource)
    (hDeclared : resource.Declared g.passes.length) : Graph × ResourceId :=
  if hRoom : g.resources.length < MAX_RESOURCE_COUNT then
    ({ g with
        resources := g.resources ++ [resource]
        declared := by
          intro r hMem
          rcases List.mem_append.mp hMem with hOld | hNew
          · exact g.declared r hOld
          · rw [List.mem_singleton.mp hNew]
            exact hDeclared
        resourceCount := by
          rw [List.length_append]
          exact hRoom },
      g.resources.length)
  else (g, INVALID_RESOURCE)

/-- `AddImage`. -/
def addImage (g : Graph) (name : String) (initialLayout : ImageLayout) :
    Graph × ResourceId :=
  g.addResource { name, isImage := true, initialLayout }
    ⟨fun _ h => absurd h List.not_mem_nil, fun _ h => absurd h List.not_mem_nil,
      fun _ => rfl, fun h => (Bool.false_ne_true h.symm).elim⟩

/-- `AddBuffer`. -/
def addBuffer (g : Graph) (name : String) : Graph × ResourceId :=
  g.addResource { name, isImage := false }
    ⟨fun _ h => absurd h List.not_mem_nil, fun _ h => absurd h List.not_mem_nil,
      fun h => (Bool.false_ne_true h).elim, fun _ => ⟨rfl, rfl⟩⟩

/-- `AddPass`. -/
def addPass (g : Graph) (name : String) (queue : Queue) : Graph × PassId :=
  if hRoom : g.passes.length < MAX_PASS_COUNT then
    ({ g with
        passes := g.passes ++ [{ name, queue }]
        declared := fun r hMem => (g.declared r hMem).mono (by
          rw [List.length_append]
          exact Nat.le_add_right _ _)
        passCount := by
          rw [List.length_append]
          exact hRoom },
      g.passes.length)
  else (g, INVALID_PASS)

/-- Replaces one resource by a change that keeps it declared. -/
def changeResource (g : Graph) (r : ResourceId) (change : Resource → Resource)
    (hChange : ∀ resource, resource.Declared g.passes.length →
      (change resource).Declared g.passes.length) : Graph :=
  { g with
    resources := g.resources.modify r change
    declared := by
      intro resource hMem
      obtain ⟨i, hi, rfl⟩ := List.mem_iff_getElem.mp hMem
      rw [List.length_modify] at hi
      have hOld := g.declared _ (List.getElem_mem hi)
      rw [List.getElem_modify]
      split
      · exact hChange _ hOld
      · exact hOld
    resourceCount := by
      rw [List.length_modify]
      exact g.resourceCount }

/-- The check of the calls that name a pass and a resource of a kind. -/
def namesKind (g : Graph) (pass : PassId) (r : ResourceId) (isImage : Bool) : Bool :=
  pass < g.passes.length && g.resources[r]?.any fun resource => resource.isImage == isImage

/-- `PassReadsImage` and `PassWritesImage`. -/
def passUsesImage (g : Graph) (pass : PassId) (r : ResourceId) (isRead : Bool)
    (access : ImageAccess) : Graph × ALResult :=
  if h : g.namesKind pass r true then
    (g.changeResource r
      (fun resource => if resource.isImage then
        { resource with imageUses := resource.imageUses ++ [{ pass, isRead, access }] }
        else resource)
      (by
        intro resource hOld
        have hPass : pass < g.passes.length := by
          simp only [namesKind, Bool.and_eq_true, decide_eq_true_eq] at h
          exact h.1
        split
        · rename_i hImage
          refine ⟨fun use hUse => ?_, hOld.bufferPass, hOld.image, fun hBuffer => ?_⟩
          · rcases List.mem_append.mp hUse with hIn | hNew
            · exact hOld.imagePass use hIn
            · rw [List.mem_singleton.mp hNew]
              exact hPass
          · exact absurd (hImage.symm.trans hBuffer) (by decide)
        · exact hOld),
      .ok)
  else (g, .invalidArg)

/-- `PassReadsBuffer` and `PassWritesBuffer`. -/
def passUsesBuffer (g : Graph) (pass : PassId) (r : ResourceId) (isRead : Bool)
    (access : BufferAccess) : Graph × ALResult :=
  if h : g.namesKind pass r false then
    (g.changeResource r
      (fun resource => if resource.isImage then resource
        else { resource with bufferUses := resource.bufferUses ++ [{ pass, isRead, access }] })
      (by
        intro resource hOld
        have hPass : pass < g.passes.length := by
          simp only [namesKind, Bool.and_eq_true, decide_eq_true_eq] at h
          exact h.1
        split
        · exact hOld
        · rename_i hBuffer
          refine ⟨hOld.imagePass, fun use hUse => ?_, fun hImage => ?_, hOld.buffer⟩
          · rcases List.mem_append.mp hUse with hIn | hNew
            · exact hOld.bufferPass use hIn
            · rw [List.mem_singleton.mp hNew]
              exact hPass
          · exact absurd hImage hBuffer),
      .ok)
  else (g, .invalidArg)

/-- `PassReadsImage`. -/
def passReadsImage (g : Graph) (pass : PassId) (r : ResourceId) (access : ImageAccess) :
    Graph × ALResult := g.passUsesImage pass r true access

/-- `PassWritesImage`. -/
def passWritesImage (g : Graph) (pass : PassId) (r : ResourceId) (access : ImageAccess) :
    Graph × ALResult := g.passUsesImage pass r false access

/-- `PassReadsBuffer`. -/
def passReadsBuffer (g : Graph) (pass : PassId) (r : ResourceId) (access : BufferAccess) :
    Graph × ALResult := g.passUsesBuffer pass r true access

/-- `PassWritesBuffer`. -/
def passWritesBuffer (g : Graph) (pass : PassId) (r : ResourceId) (access : BufferAccess) :
    Graph × ALResult := g.passUsesBuffer pass r false access

/-- `MarkPassCullable`; an unknown pass is passed over. -/
def markPassCullable (g : Graph) (pass : PassId) : Graph :=
  { g with
    passes := g.passes.modify pass fun p => { p with cullable := true }
    declared := by
      rw [List.length_modify]
      exact g.declared
    passCount := by
      rw [List.length_modify]
      exact g.passCount }

/-- `MarkPresented`. -/
def markPresented (g : Graph) (image : ResourceId) : Graph × ALResult :=
  if g.resources[image]?.any Resource.isImage then
    (g.changeResource image
      (fun resource => if resource.isImage then { resource with presented := true } else resource)
      (by
        intro resource hOld
        split
        · rename_i hImage
          exact ⟨hOld.imagePass, hOld.bufferPass, hOld.image,
            fun hBuffer => absurd (hImage.symm.trans hBuffer) (by decide)⟩
        · exact hOld),
      .ok)
  else (g, .invalidArg)

/-- The attachment write `SetAttachmentClear` looks for. -/
def isAttachmentWrite (pass : PassId) (use : ImageUse) : Bool :=
  use.pass == pass && !use.isRead &&
    (use.access == .colorAttachment || use.access == .depthAttachment)

/-- Changes the first use that `found` accepts. -/
def changeFirst (found : ImageUse → Bool) (change : ImageUse → ImageUse) :
    List ImageUse → List ImageUse
  | [] => []
  | use :: uses => if found use then change use :: uses else use :: changeFirst found change uses

/-- The changed uses are of the same passes. -/
theorem pass_of_mem_changeFirst {found : ImageUse → Bool} {change : ImageUse → ImageUse} :
    ∀ {uses : List ImageUse} {use : ImageUse}, use ∈ changeFirst found change uses →
      (∀ use, (change use).pass = use.pass) → ∃ old ∈ uses, old.pass = use.pass
  | [], _, hMem, _ => absurd hMem List.not_mem_nil
  | first :: uses, use, hMem, hChange => by
    rw [changeFirst] at hMem
    split at hMem
    · rcases List.mem_cons.mp hMem with rfl | hIn
      · exact ⟨first, List.mem_cons_self, (hChange first).symm⟩
      · exact ⟨use, List.mem_cons_of_mem _ hIn, rfl⟩
    · rcases List.mem_cons.mp hMem with rfl | hIn
      · exact ⟨use, List.mem_cons_self, rfl⟩
      · obtain ⟨old, hOld, hPass⟩ := pass_of_mem_changeFirst hIn hChange
        exact ⟨old, List.mem_cons_of_mem _ hOld, hPass⟩

/-- `SetAttachmentClear`, for a use that the pass has declared. -/
def setAttachmentClear (g : Graph) (pass : PassId) (image : ResourceId)
    (loadOp : LoadOp) (clearValue : ClearValue) : Graph × ALResult :=
  if g.namesKind pass image true then
    if g.resources[image]?.any fun resource =>
        resource.imageUses.any (isAttachmentWrite pass) then
      (g.changeResource image
        (fun resource => if resource.isImage then
          { resource with
            imageUses := changeFirst (isAttachmentWrite pass)
              (fun use => { use with loadOp, storeOp := .store, clearValue }) resource.imageUses }
          else resource)
        (by
          intro resource hOld
          split
          · rename_i hImage
            refine ⟨fun use hUse => ?_, hOld.bufferPass, hOld.image,
              fun hBuffer => absurd (hImage.symm.trans hBuffer) (by decide)⟩
            obtain ⟨old, hMem, hPass⟩ := pass_of_mem_changeFirst hUse fun _ => rfl
            rw [← hPass]
            exact hOld.imagePass old hMem
          · exact hOld),
        .ok)
    else (g, .invalidCall)
  else (g, .invalidArg)

end Graph

end Ithax.RenderGraph
