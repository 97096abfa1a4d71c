import Ithax.Lib.KeyedLists
import Ithax.RenderGraph.PassOrder

/-!
# Pass attachments

The attachment writes of a pass fill the slots of its rendering: the color writes the slots 0
to 3, the depth write slot 4. A graph keeps the uses of each image by themselves, and the
compiler goes from image to image, so the order in which a pass has declared its writes is not
in the graph; it is recorded here along with the declaring calls.

## Results

* `tracks_declareAll`          — the record holds the uses of every image.
* `attachmentsOf_color`        — what the compiler makes of the color writes of a pass.
* `attachmentsComplete_iff`    — which graphs get complete and unambiguous attachments.
-/

namespace Ithax.RenderGraph

open Ithax.Lib

-- ---------------------------------------------------------------------------
-- Declaring calls
-- ---------------------------------------------------------------------------

/-- A call that declares something. -/
inductive Declaring where
  | addImage (name : String) (initialLayout : ImageLayout)
  | addBuffer (name : String)
  | addPass (name : String) (queue : Queue)
  | passReadsImage (pass : PassId) (image : ResourceId) (access : ImageAccess)
  | passWritesImage (pass : PassId) (image : ResourceId) (access : ImageAccess)
  | passReadsBuffer (pass : PassId) (buffer : ResourceId) (access : BufferAccess)
  | passWritesBuffer (pass : PassId) (buffer : ResourceId) (access : BufferAccess)
  | markPassCullable (pass : PassId)
  | setAttachmentClear (pass : PassId) (image : ResourceId) (loadOp : LoadOp)
      (clearValue : ClearValue)
  | markPresented (image : ResourceId)
  deriving DecidableEq, Repr

/-- The graph after a call. -/
def Declaring.apply (g : Graph) : Declaring → Graph
  | .addImage name initialLayout => (g.addImage name initialLayout).1
  | .addBuffer name => (g.addBuffer name).1
  | .addPass name queue => (g.addPass name queue).1
  | .passReadsImage pass image access => (g.passReadsImage pass image access).1
  | .passWritesImage pass image access => (g.passWritesImage pass image access).1
  | .passReadsBuffer pass buffer access => (g.passReadsBuffer pass buffer access).1
  | .passWritesBuffer pass buffer access => (g.passWritesBuffer pass buffer access).1
  | .markPassCullable pass => g.markPassCullable pass
  | .setAttachmentClear pass image loadOp clearValue =>
    (g.setAttachmentClear pass image loadOp clearValue).1
  | .markPresented image => (g.markPresented image).1

/-- How many uses of an image are declared. -/
def useCount (g : Graph) (r : ResourceId) : Nat :=
  (g.resources[r]?.map fun resource => resource.imageUses.length).getD 0

/-- The image use a call adds: its image, and its place among the uses of that image. -/
def Declaring.addedUse (g : Graph) : Declaring → List (ResourceId × Nat)
  | .passReadsImage pass image _ | .passWritesImage pass image _ =>
    if g.namesKind pass image true then [(image, useCount g image)] else []
  | _ => []

/-- A graph with its image uses in the order of the calls that have declared them. -/
structure Recorded where
  graph : Graph
  imageUses : List (ResourceId × Nat)

/-- One declaring call more. -/
def Recorded.declare (s : Recorded) (call : Declaring) : Recorded :=
  ⟨call.apply s.graph, s.imageUses ++ call.addedUse s.graph⟩

/-- What some declaring calls declare. -/
def declareAll (calls : List Declaring) : Recorded :=
  calls.foldl Recorded.declare ⟨Graph.empty, []⟩

-- ---------------------------------------------------------------------------
-- What is said of the attachments
-- ---------------------------------------------------------------------------

/-- The image uses, with their images, in the order of the calls. -/
def declaredUses (s : Recorded) : List (ResourceId × ImageUse) :=
  s.imageUses.filterMap fun entry =>
    (s.graph.resources[entry.1]?.bind fun resource => resource.imageUses[entry.2]?).map
      fun use => (entry.1, use)

/-- The attachment writes of a pass, of one kind. -/
def writesAs (access : ImageAccess) (p : PassId) (uses : List (ResourceId × ImageUse)) :
    List (ResourceId × ImageUse) :=
  uses.filter fun entry => entry.2.pass == p && !entry.2.isRead && entry.2.access == access

/-- The entry of a write in a slot. -/
def attachmentOf (slot : Nat) (isDepth : Bool) (write : ResourceId × ImageUse) :
    PassAttachment where
  pass := write.2.pass
  image := write.1
  attachmentSlot := slot
  isDepth
  loadOp := write.2.loadOp
  storeOp := write.2.storeOp
  clearValue := write.2.clearValue

/-- Color writes in the slots from `start` on. -/
def colorAttachments (start : Nat) (writes : List (ResourceId × ImageUse)) :
    List PassAttachment :=
  (writes.zipIdx start).map fun entry => attachmentOf entry.2 false entry.1

/-- Depth writes; all of them get the slot 4. -/
def depthAttachments (writes : List (ResourceId × ImageUse)) : List PassAttachment :=
  writes.map (attachmentOf 4 true)

/-- The attachments of a pass. -/
def CompileResult.attachments (out : CompileResult) (p : PassId) : List PassAttachment :=
  out.passAttachments.filter fun attachment => attachment.pass = p

/-- Every attachment write of an executed pass has its own slot, a color write the slot of its
turn among the declared ones. -/
structure AttachmentsComplete (s : Recorded) (out : CompileResult) : Prop where
  entries : ∀ p, out.survives p = true →
    (out.attachments p).Perm
      (colorAttachments 0 (writesAs .colorAttachment p (declaredUses s)) ++
        depthAttachments (writesAs .depthAttachment p (declaredUses s)))
  executed : ∀ attachment ∈ out.passAttachments, out.survives attachment.pass = true
  distinct : ∀ p, ((out.attachments p).map PassAttachment.attachmentSlot).Nodup
  depth : ∀ attachment ∈ out.passAttachments, attachment.attachmentSlot = 4 →
    attachment.isDepth = true
  /-- No pass needs more slots than there are. -/
  room : ∀ p, (writesAs .colorAttachment p (declaredUses s)).length ≤ 4 ∧
    (writesAs .depthAttachment p (declaredUses s)).length ≤ 1

/-- No pass writes more attachments than there are slots, and those that are executed declare
their color writes in the order in which the images have been added. -/
structure AttachmentsFit (s : Recorded) : Prop where
  room : ∀ p, (writesAs .colorAttachment p (declaredUses s)).length ≤ 4 ∧
    (writesAs .depthAttachment p (declaredUses s)).length ≤ 1
  sorted : ∀ p, Needed s.graph p →
    (writesAs .colorAttachment p (declaredUses s)).Pairwise fun a b => a.1 ≤ b.1

-- ---------------------------------------------------------------------------
-- The record of the uses
-- ---------------------------------------------------------------------------

/-- The record holds every use of every image once, in order. -/
def Recorded.Tracks (s : Recorded) : Prop :=
  ∀ r, (s.imageUses.filter fun entry => entry.1 = r).map Prod.snd = List.range (useCount s.graph r)

/-- A new resource has no uses. -/
theorem useCount_addResource {g : Graph} {resource : Resource}
    (hDeclared : resource.Declared g.passes.length) (hUnused : resource.imageUses = [])
    (r : ResourceId) : useCount (g.addResource resource hDeclared).1 r = useCount g r := by
  unfold Graph.addResource
  split
  · unfold useCount
    by_cases hOld : r < g.resources.length
    · rw [List.getElem?_append_left hOld]
    · rw [List.getElem?_append_right (Nat.le_of_not_lt hOld),
        List.getElem?_eq_none (Nat.le_of_not_lt hOld)]
      cases r - g.resources.length with
      | zero => simp [hUnused]
      | succ n => simp
  · rfl

/-- What a change adds to the uses of a resource, it adds to the count. -/
theorem useCount_changeResource {g : Graph} {changed r : ResourceId}
    {change : Resource → Resource}
    {hChange : ∀ resource, resource.Declared g.passes.length →
      (change resource).Declared g.passes.length} (added : Nat)
    (hThere : changed < g.resources.length)
    (hAdded : ∀ resource, g.resources[changed]? = some resource →
      (change resource).imageUses.length = resource.imageUses.length + added) :
    useCount (g.changeResource changed change hChange) r =
      useCount g r + if r = changed then added else 0 := by
  unfold useCount Graph.changeResource
  rw [List.getElem?_modify]
  by_cases hr : changed = r
  · subst hr
    have hCount := hAdded _ (List.getElem?_eq_getElem hThere)
    rw [List.getElem?_eq_getElem hThere]
    simpa using hCount
  · have hr' : r ≠ changed := Ne.symm hr
    simp [hr, hr']

/-- A change adds no use. -/
theorem length_changeFirst (found : ImageUse → Bool) (change : ImageUse → ImageUse)
    (uses : List ImageUse) : (Graph.changeFirst found change uses).length = uses.length := by
  induction uses with
  | nil => rfl
  | cons use uses ih =>
    rw [Graph.changeFirst]
    split
    · rfl
    · exact congrArg Nat.succ ih

/-- A named resource is declared. -/
theorem lt_of_namesKind {g : Graph} {pass : PassId} {r : ResourceId} {isImage : Bool}
    (h : g.namesKind pass r isImage = true) : r < g.resources.length := by
  rw [Graph.namesKind, Bool.and_eq_true] at h
  by_contra hOut
  rw [List.getElem?_eq_none (Nat.le_of_not_lt hOut)] at h
  exact Bool.false_ne_true h.2

/-- It is of the named kind. -/
theorem isImage_of_namesKind {g : Graph} {pass : PassId} {r : ResourceId} {isImage : Bool}
    (h : g.namesKind pass r isImage = true) {resource : Resource}
    (hr : g.resources[r]? = some resource) : resource.isImage = isImage := by
  rw [Graph.namesKind, Bool.and_eq_true, hr] at h
  exact eq_of_beq h.2

/-- A use of an image is one more, if it is accepted. -/
theorem useCount_passUsesImage (g : Graph) (pass : PassId) (image : ResourceId) (isRead : Bool)
    (access : ImageAccess) (r : ResourceId) :
    useCount (g.passUsesImage pass image isRead access).1 r =
      useCount g r + if g.namesKind pass image true = true ∧ r = image then 1 else 0 := by
  unfold Graph.passUsesImage
  by_cases hNames : g.namesKind pass image true = true
  · rw [dif_pos hNames, useCount_changeResource 1 (lt_of_namesKind hNames)]
    · simp [hNames]
    · intro resource hr
      rw [if_pos (isImage_of_namesKind hNames hr)]
      exact List.length_append
  · rw [dif_neg hNames]
    simp [hNames]

/-- A use of a buffer is none of an image. -/
theorem useCount_passUsesBuffer (g : Graph) (pass : PassId) (buffer : ResourceId) (isRead : Bool)
    (access : BufferAccess) (r : ResourceId) :
    useCount (g.passUsesBuffer pass buffer isRead access).1 r = useCount g r := by
  unfold Graph.passUsesBuffer
  by_cases hNames : g.namesKind pass buffer false = true
  · rw [dif_pos hNames, useCount_changeResource 0 (lt_of_namesKind hNames)]
    · simp
    · intro resource hr
      rw [isImage_of_namesKind hNames hr]
      rfl
  · rw [dif_neg hNames]

/-- Nor is a clear value. -/
theorem useCount_setAttachmentClear (g : Graph) (pass : PassId) (image : ResourceId)
    (loadOp : LoadOp) (clearValue : ClearValue) (r : ResourceId) :
    useCount (g.setAttachmentClear pass image loadOp clearValue).1 r = useCount g r := by
  unfold Graph.setAttachmentClear
  split
  · rename_i hNames
    split
    · rw [useCount_changeResource 0 (lt_of_namesKind hNames)]
      · simp
      · intro resource hr
        rw [if_pos (isImage_of_namesKind hNames hr)]
        exact length_changeFirst _ _ _
    · rfl
  · rfl

/-- Nor is a presented mark. -/
theorem useCount_markPresented (g : Graph) (image r : ResourceId) :
    useCount (g.markPresented image).1 r = useCount g r := by
  unfold Graph.markPresented
  split
  · rename_i hImage
    have hThere : image < g.resources.length := by
      by_contra hOut
      rw [List.getElem?_eq_none (Nat.le_of_not_lt hOut)] at hImage
      exact Bool.false_ne_true hImage
    rw [useCount_changeResource 0 hThere]
    · simp
    · intro resource hr
      split
      · rfl
      · rfl
  · rfl

/-- Nor is a pass. -/
theorem useCount_addPass (g : Graph) (name : String) (queue : Queue) (r : ResourceId) :
    useCount (g.addPass name queue).1 r = useCount g r := by
  unfold Graph.addPass
  split
  · rfl
  · rfl

/-- What a call adds to the record, it adds to the uses. -/
theorem useCount_apply (g : Graph) (call : Declaring) (r : ResourceId) :
    List.range (useCount (call.apply g) r) = List.range (useCount g r) ++
      ((call.addedUse g).filter fun entry => entry.1 = r).map Prod.snd := by
  have hKept : ∀ {g' : Graph}, useCount g' r = useCount g r →
      List.range (useCount g' r) = List.range (useCount g r) ++ [] := by
    intro g' hSame
    rw [hSame, List.append_nil]
  have hImage : ∀ pass image isRead access,
      List.range (useCount (g.passUsesImage pass image isRead access).1 r) =
        List.range (useCount g r) ++ ((if g.namesKind pass image true then
          [(image, useCount g image)] else []).filter fun entry => entry.1 = r).map Prod.snd := by
    intro pass image isRead access
    rw [useCount_passUsesImage]
    by_cases hNames : g.namesKind pass image true = true
    · by_cases hr : r = image
      · simp [hNames, hr, List.range_succ]
      · simp [hNames, hr, Ne.symm hr]
    · simp [hNames]
  cases call with
  | addImage name initialLayout => exact hKept (useCount_addResource _ rfl r)
  | addBuffer name => exact hKept (useCount_addResource _ rfl r)
  | addPass name queue => exact hKept (useCount_addPass g name queue r)
  | passReadsImage pass image access => exact hImage pass image true access
  | passWritesImage pass image access => exact hImage pass image false access
  | passReadsBuffer pass buffer access => exact hKept (useCount_passUsesBuffer _ _ _ _ _ r)
  | passWritesBuffer pass buffer access => exact hKept (useCount_passUsesBuffer _ _ _ _ _ r)
  | markPassCullable pass => exact hKept rfl
  | setAttachmentClear pass image loadOp clearValue =>
    exact hKept (useCount_setAttachmentClear _ _ _ _ _ r)
  | markPresented image => exact hKept (useCount_markPresented g image r)

/-- One declaring call more. -/
theorem Recorded.Tracks.declare {s : Recorded} (h : s.Tracks) (call : Declaring) :
    (s.declare call).Tracks := by
  intro r
  have hNew := useCount_apply s.graph call r
  rw [Recorded.declare, List.filter_append, List.map_append, h r]
  exact hNew.symm

/-- Any declaring calls. -/
theorem tracks_declareAll (calls : List Declaring) : (declareAll calls).Tracks := by
  have hFold : ∀ s : Recorded, s.Tracks → (calls.foldl Recorded.declare s).Tracks := by
    induction calls with
    | nil => exact fun s h => h
    | cons call calls ih => exact fun s h => ih _ (h.declare call)
  exact hFold _ fun r => rfl

-- ---------------------------------------------------------------------------
-- The two orders of the uses
-- ---------------------------------------------------------------------------

/-- The image uses, with their images, as the compiler goes through them. -/
def allUses (g : Graph) : List (ResourceId × ImageUse) :=
  g.resources.zipIdx.flatMap fun (resource, r) => resource.imageUses.map fun use => (r, use)

/-- A list, element by element. -/
theorem filterMap_range_getElem? {α : Type} (xs : List α) :
    (List.range xs.length).filterMap (fun i => xs[i]?) = xs := by
  induction xs with
  | nil => rfl
  | cons x xs ih =>
    rw [List.length_cons, List.range_succ_eq_map, List.filterMap_cons, List.filterMap_map]
    exact congrArg (x :: ·) ih

/-- What is filtered after a map can be filtered before it. -/
theorem filter_filterMap_of_agree {α β : Type} {f : α → Option β} {keep : α → Bool}
    {kept : β → Bool} {xs : List α} (hAgree : ∀ x y, f x = some y → kept y = keep x) :
    (xs.filterMap f).filter kept = (xs.filter keep).filterMap f := by
  induction xs with
  | nil => rfl
  | cons x xs ih =>
    cases hSome : f x with
    | none =>
      rw [List.filterMap_cons_none hSome, ih, List.filter_cons]
      split
      · rw [List.filterMap_cons_none hSome]
      · rfl
    | some y =>
      rw [List.filterMap_cons_some hSome, List.filter_cons, List.filter_cons, hAgree x y hSome, ih]
      split
      · rw [List.filterMap_cons_some hSome]
      · rfl

/-- The two orders differ in how the images alternate. -/
theorem sameByKey_uses {s : Recorded} (h : s.Tracks) :
    SameByKey Prod.fst (declaredUses s) (allUses s.graph) := by
  intro r
  have hOwn : (s.imageUses.filter fun entry => entry.1 = r) =
      (List.range (useCount s.graph r)).map fun i => (r, i) := by
    rw [← h r, List.map_map]
    refine (List.map_id _).symm.trans (List.map_congr_left fun entry hIn => ?_)
    exact Prod.ext (of_decide_eq_true (List.mem_filter.mp hIn).2) rfl
  have hDeclared : (declaredUses s).filter (fun entry => entry.1 = r) =
      (List.range (useCount s.graph r)).filterMap fun i =>
        (s.graph.resources[r]?.bind fun resource => resource.imageUses[i]?).map
          fun use => (r, use) := by
    rw [declaredUses, filter_filterMap_of_agree, hOwn, List.filterMap_map]
    · rfl
    · intro entry use hSome
      obtain ⟨found, -, rfl⟩ := Option.map_eq_some_iff.mp hSome
      rfl
  have hKey : ∀ (resource : Resource) (i : Nat),
      ∀ entry ∈ resource.imageUses.map fun use => (i, use), entry.1 = i := by
    intro resource i entry hIn
    obtain ⟨use, -, rfl⟩ := List.mem_map.mp hIn
    rfl
  have hAll : (allUses s.graph).filter (fun entry => entry.1 = r) = _ :=
    filter_zipIdx_flatMap Prod.fst hKey s.graph.resources 0
  rw [if_pos (Nat.zero_le r), Nat.sub_zero] at hAll
  refine hDeclared.trans (Eq.trans ?_ hAll.symm)
  unfold useCount
  cases hr : s.graph.resources[r]? with
  | none => rfl
  | some resource =>
    rw [Option.map_some, Option.getD_some, Option.map_some, Option.getD_some]
    have hUses := congrArg (List.map fun use => (r, use)) (filterMap_range_getElem? resource.imageUses)
    rw [List.map_filterMap] at hUses
    exact hUses

-- ---------------------------------------------------------------------------
-- The attachments of one pass
-- ---------------------------------------------------------------------------

/-- One use, with its image. -/
def attachEntry (p : PassId) (s : List PassAttachment × Nat) (entry : ResourceId × ImageUse) :
    List PassAttachment × Nat :=
  attachUse p entry.1 s entry.2

/-- The attachments of a pass, along all uses. -/
theorem attachmentsOf_eq_foldl (g : Graph) (p : PassId) :
    attachmentsOf g p = ((allUses g).foldl (attachEntry p) ([], 0)).1 := by
  unfold attachmentsOf allUses
  rw [List.foldl_flatMap]
  refine congrArg Prod.fst (List.foldl_ext _ _ _ ?_)
  rintro s ⟨resource, r⟩ hIn
  rw [List.foldl_map]
  have hMem := List.mem_of_getElem? (List.mk_mem_zipIdx_iff_getElem?.mp hIn)
  show (if resource.isImage = true then resource.imageUses.foldl (attachUse p r) s else s) =
    resource.imageUses.foldl (attachUse p r) s
  by_cases hKind : resource.isImage = true
  · rw [if_pos hKind]
  · rw [if_neg hKind, ((g.declared resource hMem).buffer (Bool.eq_false_iff.mpr hKind)).1]
    rfl

/-- One use more. -/
theorem writesAs_cons (access : ImageAccess) (p : PassId) (entry : ResourceId × ImageUse)
    (uses : List (ResourceId × ImageUse)) :
    writesAs access p (entry :: uses) =
      if entry.2.pass = p ∧ entry.2.isRead = false ∧ entry.2.access = access then
        entry :: writesAs access p uses else writesAs access p uses := by
  unfold writesAs
  rw [List.filter_cons]
  simp [and_assoc]

/-- The color slots are used up one by one, and what comes after the last one is dropped. -/
theorem color_foldl_attachEntry {p : PassId} (uses : List (ResourceId × ImageUse))
    (s : List PassAttachment × Nat) :
    ((uses.foldl (attachEntry p) s).1.filter fun attachment => !attachment.isDepth) =
      (s.1.filter fun attachment => !attachment.isDepth) ++
        colorAttachments s.2 ((writesAs .colorAttachment p uses).take (4 - s.2)) := by
  induction uses generalizing s with
  | nil => simp [writesAs, colorAttachments]
  | cons entry uses ih =>
    obtain ⟨r, use⟩ := entry
    rw [List.foldl_cons, ih, writesAs_cons, attachEntry, attachUse]
    by_cases hOwn : use.pass ≠ p ∨ use.isRead = true
    · rw [if_pos hOwn, if_neg]
      rintro ⟨rfl, hWrites, -⟩
      rcases hOwn with hOther | hReads
      · exact hOther rfl
      · exact Bool.false_ne_true (hWrites.symm.trans hReads)
    · rw [if_neg hOwn]
      obtain ⟨hPass, hWrites⟩ := not_or.mp hOwn
      obtain rfl : use.pass = p := not_not.mp hPass
      have hWrite : use.isRead = false := Bool.eq_false_iff.mpr hWrites
      cases hAccess : use.access with
      | depthAttachment => simp
      | shaderRead => simp
      | transferWrite => simp
      | transferRead => simp
      | colorAttachment =>
        by_cases hRoom : s.2 < 4
        · have hLeft : 4 - s.2 = (4 - (s.2 + 1)) + 1 := by omega
          simp only [hRoom, hWrite, hLeft, List.take_succ_cons, and_self, if_true]
          simp [colorAttachments, attachmentOf]
        · have hNone : 4 - s.2 = 0 := by omega
          simp [hRoom, hNone, colorAttachments]

/-- Every depth write goes into the one depth slot. -/
theorem depth_foldl_attachEntry {p : PassId} (uses : List (ResourceId × ImageUse))
    (s : List PassAttachment × Nat) :
    ((uses.foldl (attachEntry p) s).1.filter fun attachment => attachment.isDepth) =
      (s.1.filter fun attachment => attachment.isDepth) ++
        depthAttachments (writesAs .depthAttachment p uses) := by
  induction uses generalizing s with
  | nil => simp [writesAs, depthAttachments]
  | cons entry uses ih =>
    obtain ⟨r, use⟩ := entry
    rw [List.foldl_cons, ih, writesAs_cons, attachEntry, attachUse]
    by_cases hOwn : use.pass ≠ p ∨ use.isRead = true
    · rw [if_pos hOwn, if_neg]
      rintro ⟨rfl, hWrites, -⟩
      rcases hOwn with hOther | hReads
      · exact hOther rfl
      · exact Bool.false_ne_true (hWrites.symm.trans hReads)
    · rw [if_neg hOwn]
      obtain ⟨hPass, hWrites⟩ := not_or.mp hOwn
      obtain rfl : use.pass = p := not_not.mp hPass
      have hWrite : use.isRead = false := Bool.eq_false_iff.mpr hWrites
      cases hAccess : use.access with
      | depthAttachment => simp [hWrite, depthAttachments, attachmentOf]
      | shaderRead => simp
      | transferWrite => simp
      | transferRead => simp
      | colorAttachment =>
        by_cases hRoom : s.2 < 4
        · simp [hRoom]
        · simp [hRoom]

/-- The color attachments are the first four color writes. -/
theorem attachmentsOf_color (g : Graph) (p : PassId) :
    ((attachmentsOf g p).filter fun attachment => !attachment.isDepth) =
      colorAttachments 0 ((writesAs .colorAttachment p (allUses g)).take 4) := by
  rw [attachmentsOf_eq_foldl, color_foldl_attachEntry]
  rfl

/-- The depth attachments are the depth writes. -/
theorem attachmentsOf_depth (g : Graph) (p : PassId) :
    ((attachmentsOf g p).filter fun attachment => attachment.isDepth) =
      depthAttachments (writesAs .depthAttachment p (allUses g)) := by
  rw [attachmentsOf_eq_foldl, depth_foldl_attachEntry]
  rfl

-- ---------------------------------------------------------------------------
-- Slots
-- ---------------------------------------------------------------------------

/-- The slots are counted from the first. -/
theorem map_slot_colorAttachments (start : Nat) (writes : List (ResourceId × ImageUse)) :
    (colorAttachments start writes).map PassAttachment.attachmentSlot =
      List.range' start writes.length := by
  rw [colorAttachments, List.map_map]
  exact List.zipIdx_map_snd start writes

/-- The images are those of the writes. -/
theorem map_image_colorAttachments (start : Nat) (writes : List (ResourceId × ImageUse)) :
    (colorAttachments start writes).map PassAttachment.image = writes.map Prod.fst := by
  have hWrites := congrArg (List.map Prod.fst) (List.zipIdx_map_fst start writes)
  rw [List.map_map] at hWrites
  rw [colorAttachments, List.map_map]
  exact hWrites

/-- A color attachment comes from a write. -/
theorem mem_colorAttachments {start : Nat} {writes : List (ResourceId × ImageUse)}
    {attachment : PassAttachment} (hIn : attachment ∈ colorAttachments start writes) :
    ∃ write ∈ writes, ∃ slot, slot < start + writes.length ∧
      attachment = attachmentOf slot false write := by
  obtain ⟨⟨write, slot⟩, hEntry, rfl⟩ := List.mem_map.mp hIn
  have hSlot : slot < writes.length + start := List.snd_lt_of_mem_zipIdx hEntry
  exact ⟨write, List.fst_mem_of_mem_zipIdx hEntry, slot, by omega, rfl⟩

/-- A depth attachment comes from a write. -/
theorem mem_depthAttachments {writes : List (ResourceId × ImageUse)}
    {attachment : PassAttachment} (hIn : attachment ∈ depthAttachments writes) :
    ∃ write ∈ writes, attachment = attachmentOf 4 true write := by
  obtain ⟨write, hWrite, rfl⟩ := List.mem_map.mp hIn
  exact ⟨write, hWrite, rfl⟩

/-- The slots fix the order of color attachments. -/
theorem colorAttachments_eq_of_perm {start : Nat} {writes others : List (ResourceId × ImageUse)}
    (hPerm : (colorAttachments start writes).Perm (colorAttachments start others)) :
    colorAttachments start writes = colorAttachments start others := by
  have hSorted : ∀ entries : List (ResourceId × ImageUse), (colorAttachments start entries).Pairwise
      fun a b => a.attachmentSlot < b.attachmentSlot := by
    intro entries
    rw [← List.pairwise_map, map_slot_colorAttachments]
    exact List.pairwise_lt_range'
  exact hPerm.eq_of_pairwise (fun a b _ _ hab hba => absurd hab (Nat.lt_asymm hba))
    (hSorted writes) (hSorted others)

/-- The writes are by the pass. -/
theorem pass_of_mem_writesAs {access : ImageAccess} {p : PassId}
    {uses : List (ResourceId × ImageUse)} {write : ResourceId × ImageUse}
    (hIn : write ∈ writesAs access p uses) : write.2.pass = p := by
  have hKept := (List.mem_filter.mp hIn).2
  rw [Bool.and_eq_true, Bool.and_eq_true] at hKept
  exact eq_of_beq hKept.1.1

/-- All attachments of a pass. -/
theorem attachmentsOf_perm (g : Graph) (p : PassId) :
    (attachmentsOf g p).Perm
      (colorAttachments 0 ((writesAs .colorAttachment p (allUses g)).take 4) ++
        depthAttachments (writesAs .depthAttachment p (allUses g))) := by
  rw [← attachmentsOf_color, ← attachmentsOf_depth]
  refine (List.filter_append_perm (fun attachment => attachment.isDepth) _).symm.trans ?_
  exact List.perm_append_comm

/-- They are of the pass. -/
theorem pass_of_mem_attachmentsOf {g : Graph} {p : PassId} {attachment : PassAttachment}
    (hIn : attachment ∈ attachmentsOf g p) : attachment.pass = p := by
  rcases List.mem_append.mp ((attachmentsOf_perm g p).mem_iff.mp hIn) with hColor | hDepth
  · obtain ⟨write, hWrite, slot, -, rfl⟩ := mem_colorAttachments hColor
    exact pass_of_mem_writesAs (List.mem_of_mem_take hWrite)
  · obtain ⟨write, hWrite, rfl⟩ := mem_depthAttachments hDepth
    exact pass_of_mem_writesAs hWrite

/-- The compiler goes through the images by their ids. -/
theorem pairwise_allUses (g : Graph) : (allUses g).Pairwise fun a b => a.1 ≤ b.1 := by
  have hOwn : ∀ entry : Resource × Nat, ∀ use ∈ entry.1.imageUses.map fun use => (entry.2, use),
      use.1 = entry.2 := by
    intro entry use hIn
    obtain ⟨found, -, rfl⟩ := List.mem_map.mp hIn
    rfl
  have hIds : g.resources.zipIdx.Pairwise fun a b => a.2 < b.2 := by
    rw [← List.pairwise_map, List.zipIdx_map_snd]
    exact List.pairwise_lt_range'
  refine List.pairwise_flatMap.mpr ⟨fun entry _ => ?_, hIds.imp fun hLt a ha b hb => ?_⟩
  · refine List.pairwise_of_forall_mem_list fun a ha b hb => ?_
    rw [hOwn entry a ha, hOwn entry b hb]
  · rw [hOwn _ a ha, hOwn _ b hb]
    exact hLt.le

section Compiled

variable {g : Graph} {out : CompileResult} (hOk : compile g = .ok out)

include hOk

/-- Only passes that are executed have attachments. -/
theorem survives_of_mem_passAttachments {attachment : PassAttachment}
    (hIn : attachment ∈ out.passAttachments) : out.survives attachment.pass = true := by
  rw [survives_eq_survivors hOk]
  obtain ⟨-, rfl⟩ := compile_eq_ok_iff.mp hOk
  obtain ⟨p, -, hOf⟩ := List.mem_flatMap.mp hIn
  by_cases hSurvives : survivors g (topologicalOrder g) p = true
  · rw [if_pos hSurvives] at hOf
    rw [pass_of_mem_attachmentsOf hOf]
    exact hSurvives
  · rw [if_neg hSurvives] at hOf
    cases hOf

/-- The attachments of one pass stand together. -/
theorem attachments_eq {p : PassId} (hSurvives : out.survives p = true) :
    out.attachments p = attachmentsOf g p := by
  have hLt : p < g.passes.length := ((survives_iff_needed hOk).mp hSurvives).lt
  rw [survives_eq_survivors hOk] at hSurvives
  obtain ⟨-, rfl⟩ := compile_eq_ok_iff.mp hOk
  let made := fun pass => if survivors g (topologicalOrder g) pass = true then attachmentsOf g pass else []
  have hMade : ∀ pass, ∀ attachment ∈ made pass, attachment.pass = pass := by
    intro pass attachment hIn
    by_cases hKept : survivors g (topologicalOrder g) pass = true
    · exact pass_of_mem_attachmentsOf (by simpa [made, hKept] using hIn)
    · simp [made, hKept] at hIn
  have hFold : ∀ passes : List PassId, passes.Nodup →
      ((passes.flatMap made).filter fun attachment => attachment.pass = p) =
        if p ∈ passes then made p else [] := by
    intro passes
    induction passes with
    | nil => exact fun _ => rfl
    | cons q passes ih =>
      intro hNodup
      obtain ⟨hOut, hRest⟩ := List.nodup_cons.mp hNodup
      rw [List.flatMap_cons, List.filter_append, ih hRest]
      by_cases hq : p = q
      · subst hq
        rw [if_neg hOut, if_pos List.mem_cons_self, List.append_nil]
        exact List.filter_eq_self.mpr fun attachment hIn => decide_eq_true (hMade p attachment hIn)
      · have hNone : (made q).filter (fun attachment => attachment.pass = p) = [] := by
          refine List.filter_eq_nil_iff.mpr fun attachment hIn hPass => hq ?_
          exact (of_decide_eq_true hPass).symm.trans (hMade q attachment hIn)
        rw [hNone, List.nil_append]
        simp [hq]
  refine (hFold _ List.nodup_range).trans ?_
  rw [if_pos (List.mem_range.mpr hLt)]
  exact if_pos hSurvives

end Compiled

-- ---------------------------------------------------------------------------
-- Complete attachments
-- ---------------------------------------------------------------------------

section Complete

variable {s : Recorded} (hTracks : s.Tracks) {out : CompileResult}
  (hOk : compile s.graph = .ok out) {p : PassId}

include hTracks

/-- Both orders have the same uses of each image. -/
theorem sameByKey_writesAs (access : ImageAccess) (p : PassId) :
    SameByKey Prod.fst (writesAs access p (declaredUses s)) (writesAs access p (allUses s.graph)) :=
  (sameByKey_uses hTracks).filter _

include hOk

/-- Where the slots are enough, the compiler numbers all color writes, image by image. -/
theorem attachments_perm (hSurvives : out.survives p = true)
    (hRoom : (writesAs .colorAttachment p (declaredUses s)).length ≤ 4) :
    (out.attachments p).Perm
      (colorAttachments 0 (writesAs .colorAttachment p (allUses s.graph)) ++
        depthAttachments (writesAs .depthAttachment p (declaredUses s))) := by
  have hLength := (sameByKey_writesAs hTracks .colorAttachment p).perm.length_eq
  have hDepth := (sameByKey_writesAs hTracks .depthAttachment p).perm
  have hPerm := attachmentsOf_perm s.graph p
  rw [List.take_of_length_le (hLength ▸ hRoom)] at hPerm
  rw [attachments_eq hOk hSurvives]
  exact hPerm.trans (List.Perm.append_left _ (hDepth.symm.map _))

/-- The slots of a pass come from its declared writes when these are sorted by the images. -/
theorem entries_iff_sorted (hSurvives : out.survives p = true)
    (hRoom : (writesAs .colorAttachment p (declaredUses s)).length ≤ 4) :
    (out.attachments p).Perm
      (colorAttachments 0 (writesAs .colorAttachment p (declaredUses s)) ++
        depthAttachments (writesAs .depthAttachment p (declaredUses s))) ↔
    (writesAs .colorAttachment p (declaredUses s)).Pairwise fun a b => a.1 ≤ b.1 := by
  have hMade := attachments_perm hTracks hOk hSurvives hRoom
  have hSorted : (writesAs .colorAttachment p (allUses s.graph)).Pairwise fun a b => a.1 ≤ b.1 :=
    (pairwise_allUses s.graph).filter _
  constructor
  · intro hEntries
    have hColor := (List.perm_append_right_iff _).mp (hMade.symm.trans hEntries)
    have hImages := congrArg (List.map PassAttachment.image) (colorAttachments_eq_of_perm hColor)
    rw [map_image_colorAttachments, map_image_colorAttachments] at hImages
    rw [← List.pairwise_map] at hSorted ⊢
    exact hImages ▸ hSorted
  · intro hDeclared
    rw [(sameByKey_writesAs hTracks .colorAttachment p).eq_of_sorted hDeclared hSorted]
    exact hMade

omit hTracks hOk in
/-- The slots of four color writes and a depth write are distinct. -/
theorem nodup_slots {colors depths : List (ResourceId × ImageUse)} (hColors : colors.length ≤ 4)
    (hDepths : depths.length ≤ 1) :
    ((colorAttachments 0 colors ++ depthAttachments depths).map
      PassAttachment.attachmentSlot).Nodup := by
  rw [List.map_append, map_slot_colorAttachments]
  refine List.nodup_append.mpr ⟨List.nodup_range', ?_, ?_⟩
  · cases depths with
    | nil => exact List.nodup_nil
    | cons depth rest =>
      obtain rfl : rest = [] := List.length_eq_zero_iff.mp (by simpa using hDepths)
      exact List.nodup_singleton _
  · intro slot hColor other hDepth hSame
    obtain ⟨attachment, hIn, rfl⟩ := List.mem_map.mp hDepth
    obtain ⟨write, -, rfl⟩ := mem_depthAttachments hIn
    have hLt := (List.mem_range'_1.mp hColor).2
    have hFour : slot = 4 := hSame
    omega

end Complete

/-- A compiled graph has complete and unambiguous attachments exactly when no pass needs more
slots than there are and each executed pass has declared its color writes in the order in
which their images have been added. -/
theorem attachmentsComplete_iff (calls : List Declaring) {out : CompileResult}
    (hOk : compile (declareAll calls).graph = .ok out) :
    AttachmentsComplete (declareAll calls) out ↔ AttachmentsFit (declareAll calls) := by
  have hTracks := tracks_declareAll calls
  constructor
  · intro hComplete
    refine ⟨hComplete.room, fun p hNeeded => ?_⟩
    have hSurvives := (survives_iff_needed hOk).mpr hNeeded
    exact (entries_iff_sorted hTracks hOk hSurvives (hComplete.room p).1).mp
      (hComplete.entries p hSurvives)
  · intro hFit
    have hEntries := fun p (hSurvives : out.survives p = true) =>
      (entries_iff_sorted hTracks hOk hSurvives (hFit.room p).1).mpr
        (hFit.sorted p ((survives_iff_needed hOk).mp hSurvives))
    have hExecuted := fun attachment (hIn : attachment ∈ out.passAttachments) =>
      survives_of_mem_passAttachments hOk hIn
    refine ⟨hEntries, hExecuted, fun p => ?_, fun attachment hIn hSlot => ?_, hFit.room⟩
    · cases hSurvives : out.survives p with
      | true =>
        have hSlots := (hEntries p hSurvives).map PassAttachment.attachmentSlot
        exact hSlots.nodup_iff.mpr (nodup_slots (hFit.room p).1 (hFit.room p).2)
      | false =>
        have hNone : out.attachments p = [] := by
          refine List.filter_eq_nil_iff.mpr fun attachment hIn hPass => ?_
          have hOther := hExecuted attachment hIn
          rw [of_decide_eq_true hPass, hSurvives] at hOther
          cases hOther
        rw [hNone]
        exact List.nodup_nil
    · have hOwn : attachment ∈ out.attachments attachment.pass :=
        List.mem_filter.mpr ⟨hIn, decide_eq_true rfl⟩
      have hRoom := (hFit.room attachment.pass).1
      rcases List.mem_append.mp ((hEntries _ (hExecuted attachment hIn)).mem_iff.mp hOwn) with
        hColor | hDepth
      · obtain ⟨write, -, slot, hLt, hEq⟩ := mem_colorAttachments hColor
        have hFour : slot = 4 := by rw [← hSlot, hEq]; rfl
        omega
      · obtain ⟨write, -, hEq⟩ := mem_depthAttachments hDepth
        rw [hEq]
        rfl

/-- One pass that clears and fills two images. -/
def twoTargets (first second : ResourceId) : List Declaring := [
  .addImage "color" .undefined,
  .addImage "normals" .undefined,
  .addPass "geometry" .graphics,
  .passWritesImage 0 first .colorAttachment,
  .passWritesImage 0 second .colorAttachment,
  .setAttachmentClear 0 first .clear {}]

/-- The writes are declared as the images are added. -/
theorem attachmentsComplete_twoTargets :
    ∃ out, compile (declareAll (twoTargets 0 1)).graph = .ok out ∧
      AttachmentsComplete (declareAll (twoTargets 0 1)) out := by
  have hFit : AttachmentsFit (declareAll (twoTargets 0 1)) := by
    refine ⟨fun p => ⟨?_, ?_⟩, fun p _ => ?_⟩
    · exact (List.length_filter_le _ _).trans (by decide)
    · have hColors : ∀ entry ∈ declaredUses (declareAll (twoTargets 0 1)),
          (entry.2.access == .depthAttachment) = false := by decide
      have hNone : writesAs .depthAttachment p (declaredUses (declareAll (twoTargets 0 1))) = [] := by
        refine List.filter_eq_nil_iff.mpr fun entry hIn => ?_
        simp [hColors entry hIn]
      rw [hNone]
      exact Nat.zero_le 1
    · have hSorted : (declaredUses (declareAll (twoTargets 0 1))).Pairwise
          fun a b => a.1 ≤ b.1 := by decide
      exact hSorted.filter _
  exact ⟨assemble _ [0], rfl, (attachmentsComplete_iff (twoTargets 0 1) rfl).mpr hFit⟩

/-- The image written first is added last: it gets the second slot. -/
theorem not_attachmentsComplete_twoTargets :
    ∃ out, compile (declareAll (twoTargets 1 0)).graph = .ok out ∧
      ¬AttachmentsComplete (declareAll (twoTargets 1 0)) out := by
  refine ⟨assemble _ [0], rfl, fun hComplete => ?_⟩
  have hEntries := hComplete.entries 0 rfl
  revert hEntries
  decide

end Ithax.RenderGraph
