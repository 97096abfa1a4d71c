import Ithax.RenderGraph.Layout
import Mathlib.Order.Bounds.Defs

/-!
# Uses declared in pass order

A program that declares the uses of every resource in the order of the pass ids. Every edge
then leads to a larger id, the passes are executed as they are numbered, and what is declared
before a use is executed before it: the walk over the declared uses of a resource, which makes
its barriers and its lifetime, is the walk over its executed uses.

## Results

* `topologicalOrder_eq_range` — the passes in the order of their ids.
* `layoutsAgree_of_inPassOrder` — the layouts before a pass are those the scan has left.
* `compile_inPassOrder`       — such programs compile, and correctly.
-/

namespace Ithax.RenderGraph

open Ithax.Lib

-- ---------------------------------------------------------------------------
-- The programs and their results
-- ---------------------------------------------------------------------------

/-- The uses of every resource name ever larger passes. -/
def InPassOrder (g : Graph) : Prop :=
  ∀ resource ∈ g.resources, resource.uses.Pairwise fun u v => u.pass < v.pass

/-- The declarations pass the checks that come before the ordering. -/
structure MeetsChecks (g : Graph) : Prop where
  passes : g.passes ≠ []
  resources : g.resources ≠ []
  /-- A presented image is used. -/
  used : ∀ resource ∈ g.resources, resource.presented = true → resource.imageUses ≠ []
  /-- An image without a layout is not read first. -/
  written : ∀ resource ∈ g.resources, resource.initialLayout = .undefined →
    ∀ use, resource.imageUses.head? = some use → use.isRead = false

/-- The image uses that are executed. -/
def CompileResult.imageUses (out : CompileResult) (resource : Resource) : List ImageUse :=
  resource.imageUses.filter fun use => out.survives use.pass

/-- The buffer uses that are executed. -/
def CompileResult.bufferUses (out : CompileResult) (resource : Resource) : List BufferUse :=
  resource.bufferUses.filter fun use => out.survives use.pass

/-- Before `v`, the image at `r` waits for `u`. -/
structure ImageWait (r : ResourceId) (u v : ImageUse) (barrier : ImageBarrier) : Prop where
  image : barrier.resource = r
  before : barrier.beforePass = v.pass
  srcStage : barrier.srcStage = (getImageAccessInfo u.access).stage
  srcAccess : barrier.srcAccess = (getImageAccessInfo u.access).access
  dstStage : barrier.dstStage = (getImageAccessInfo v.access).stage
  dstAccess : barrier.dstAccess = (getImageAccessInfo v.access).access

/-- Before `v`, the buffer at `r` waits for `u`. -/
structure BufferWait (r : ResourceId) (u v : BufferUse) (barrier : BufferBarrier) : Prop where
  buffer : barrier.resource = r
  before : barrier.beforePass = v.pass
  srcStage : barrier.srcStage = (getBufferAccessInfo u.access).stage
  srcAccess : barrier.srcAccess = (getBufferAccessInfo u.access).access
  dstStage : barrier.dstStage = (getBufferAccessInfo v.access).stage
  dstAccess : barrier.dstAccess = (getBufferAccessInfo v.access).access

/-- The executed passes that use a resource. -/
def CompileResult.users (out : CompileResult) (resource : Resource) : Set PassId :=
  {p | out.survives p = true ∧ ∃ use ∈ resource.uses, use.pass = p}

/-- The lifetime of the resource at `r` reaches from its first executed user to its last. -/
structure LifetimeSpans (out : CompileResult) (r : ResourceId) (resource : Resource)
    (lifetime : ResourceLifetime) : Prop where
  entry : out.lifetimes[r]? = some lifetime
  owner : lifetime.resource = r
  used : lifetime.used = true ↔ (out.users resource).Nonempty
  first : lifetime.used = true → IsLeast (out.users resource) lifetime.firstPass
  last : lifetime.used = true → IsGreatest (out.users resource) lifetime.lastPass

/-- The program runs pass by pass, every image in the layout that is needed, presented images
at last ready to be presented, and every hazard behind a barrier. -/
structure CompiledInOrder (g : Graph) (out : CompileResult) : Prop where
  order : out.executionOrder = (List.range g.passes.length).filter out.survives
  layouts : LayoutsChain g out
  images : ∀ r resource, g.resources[r]? = some resource → ∀ u v,
    [u, v] <:+: out.imageUses resource → ¬(u.isRead ∧ v.isRead) →
      ∃ barrier ∈ out.imageBarriers, ImageWait r u v barrier
  buffers : ∀ r resource, g.resources[r]? = some resource → ∀ u v,
    [u, v] <:+: out.bufferUses resource → ¬(u.isRead ∧ v.isRead) →
      ∃ barrier ∈ out.bufferBarriers, BufferWait r u v barrier
  lifetimes : ∀ r resource, g.resources[r]? = some resource →
    ∃ lifetime, LifetimeSpans out r resource lifetime

-- ---------------------------------------------------------------------------
-- Accepting
-- ---------------------------------------------------------------------------

/-- Every resource passes its check. -/
theorem MeetsChecks.validated {g : Graph} (h : MeetsChecks g) :
    ∀ resource ∈ g.resources, validateResource resource = .ok () := by
  intro resource hMem
  unfold validateResource
  by_cases hImage : resource.isImage
  · rw [if_pos hImage, if_neg fun hUnused => h.used resource hMem hUnused.1 hUnused.2]
    have hWritten := h.written resource hMem
    cases hUses : resource.imageUses with
    | nil => rfl
    | cons use uses =>
      rw [hUses] at hWritten
      refine if_neg fun hRead => ?_
      have hWrites := hWritten hRead.1 use rfl
      rw [hRead.2] at hWrites
      cases hWrites
  · rw [if_neg hImage]

section InPassOrder

variable {g : Graph} (hOrder : InPassOrder g)

include hOrder

/-- Whatever leads to a pass has a smaller id. -/
theorem InPassOrder.edge_lt {a b : PassId} (h : LeadsTo g a b) : a < b := by
  obtain ⟨resource, hMem, hEdge⟩ := List.mem_flatMap.mp h
  obtain ⟨before, u, v, after, hSplit, -, hPair⟩ := mem_useEdges_iff.mp hEdge
  obtain ⟨rfl, rfl⟩ := Prod.mk.inj hPair
  have hUses := hOrder resource hMem
  rw [hSplit] at hUses
  exact (List.pairwise_cons.mp (List.pairwise_append.mp hUses).2.1).1 v List.mem_cons_self

/-- A graph in pass order is accepted. -/
theorem InPassOrder.accepted (h : MeetsChecks g) : Accepted g := by
  refine ⟨h.passes, h.resources, h.validated, ?_, ?_⟩
  · rintro ⟨a, b⟩ hEdge hSelf
    exact Nat.ne_of_lt (hOrder.edge_lt hEdge) hSelf
  · refine kahn_complete (fun edge hEdge => ?_) ?_
    · have hLt : edge.1 < edge.2 := hOrder.edge_lt hEdge
      have hTo : edge.2 < g.passes.length := LeadsTo.lt hEdge
      exact ⟨hLt.trans hTo, hTo⟩
    · exact Subrelation.wf (fun hEdge => hOrder.edge_lt hEdge) Nat.lt_wfRel.wf

/-- The ready pass with the smallest id is the next one. -/
theorem InPassOrder.runsFirst_iff (hAccepted : Accepted g) {a b : PassId}
    (ha : a < g.passes.length) (hb : b < g.passes.length) : RunsFirst g a b ↔ a < b := by
  have hLe : ∀ {p q : PassId}, p < g.passes.length → q < g.passes.length →
      (topologicalOrder g).idxOf p ≤ (topologicalOrder g).idxOf q → p ≤ q := by
    intro p q hp hq hAfter
    exact hAccepted.leastFirst.le_of_increasing (fun hEdge => hOrder.edge_lt hEdge) hp hq hAfter
  rw [hAccepted.runsFirst_iff ha hb]
  constructor
  · intro hIndex
    refine Nat.lt_of_le_of_ne (hLe ha hb hIndex.le) fun hEq => ?_
    rw [hEq] at hIndex
    exact Nat.lt_irrefl _ hIndex
  · intro hLt
    by_contra hIndex
    exact absurd hLt (Nat.not_lt.mpr (hLe hb ha (Nat.le_of_not_lt hIndex)))

/-- Kahn's order is the order of the ids. -/
theorem topologicalOrder_eq_range (hAccepted : Accepted g) :
    topologicalOrder g = List.range g.passes.length := by
  have hLt : ∀ p ∈ topologicalOrder g, p < g.passes.length := fun p => hAccepted.mem_iff.mp
  have hSorted : (topologicalOrder g).Pairwise (· < ·) := by
    rw [List.pairwise_iff_getElem]
    intro i j hi hj hij
    have hAt := hAccepted.runsFirst_iff (hLt _ (List.getElem_mem hi)) (hLt _ (List.getElem_mem hj))
    rw [hOrder.runsFirst_iff hAccepted (hLt _ (List.getElem_mem hi))
      (hLt _ (List.getElem_mem hj)), hAccepted.nodup.idxOf_getElem,
      hAccepted.nodup.idxOf_getElem] at hAt
    exact hAt.mpr hij
  refine List.Perm.eq_of_pairwise (fun a b _ _ hab hba => absurd hab (Nat.lt_asymm hba)) hSorted
    List.pairwise_lt_range ?_
  refine (List.perm_ext_iff_of_nodup hAccepted.nodup List.nodup_range).mpr fun p => ?_
  rw [hAccepted.mem_iff, List.mem_range]

end InPassOrder

-- ---------------------------------------------------------------------------
-- Layouts
-- ---------------------------------------------------------------------------

/-- Where a pass has no use of the image there is no transition. -/
theorem transitionsInto_none {initial : ImageLayout} {p : PassId} {uses : List ImageUse}
    (h : ∀ use ∈ uses, use.pass ≠ p) (previous : Option ImageUse) :
    transitionsInto initial p previous uses = [] := by
  induction uses generalizing previous with
  | nil => rfl
  | cons use uses ih =>
    obtain ⟨hFirst, hRest⟩ := List.forall_mem_cons.mp h
    rw [transitionsInto, if_neg fun hBoth => hFirst hBoth.1, ih hRest]

/-- A pass with one use makes the transition of that use. -/
theorem transitionsInto_split {initial : ImageLayout} {use : ImageUse}
    {before after : List ImageUse} (hBefore : ∀ other ∈ before, other.pass ≠ use.pass)
    (hAfter : ∀ other ∈ after, other.pass ≠ use.pass) (previous : Option ImageUse) :
    transitionsInto initial use.pass previous (before ++ use :: after) =
      if needsTransition initial (before.getLast?.or previous) use = true then
        [declaredLayout initial (before.getLast?.or previous)]
      else [] := by
  induction before generalizing previous with
  | nil =>
    cases hNeeds : needsTransition initial previous use with
    | false => simp [transitionsInto, transitionsInto_none hAfter, hNeeds]
    | true => simp [transitionsInto, transitionsInto_none hAfter, hNeeds]
  | cons first before ih =>
    obtain ⟨hFirst, hRest⟩ := List.forall_mem_cons.mp hBefore
    have hLast : ((first :: before).getLast?.or previous) = before.getLast?.or (some first) := by
      rw [List.getLast?_cons]
      cases before.getLast? with
      | none => rfl
      | some last => rfl
    rw [List.cons_append, transitionsInto, if_neg fun hBoth => hFirst hBoth.1, ih hRest, hLast]

/-- A use without a transition has the layout of the one before. -/
theorem enters_own {initial : ImageLayout} (previous : Option ImageUse) (use : ImageUse) :
    Enters (declaredLayout initial previous) use.access.layout
      (if needsTransition initial previous use = true then [declaredLayout initial previous]
        else []) := by
  split
  · exact ⟨rfl, fun next hNext => absurd hNext List.not_mem_nil⟩
  · rename_i hSame
    cases previous with
    | none =>
      simp only [needsTransition, bne_iff_ne, ne_eq, not_not] at hSame
      exact hSame.symm
    | some before =>
      simp only [needsTransition, Bool.or_eq_true, bne_iff_ne, ne_eq, not_or, not_not] at hSame
      exact hSame.1.1.symm

section Layouts

variable {g : Graph} (hOrder : InPassOrder g) {resource : Resource}
  (hMem : resource ∈ g.resources)

include hOrder hMem

/-- The uses of an image come in the order of their passes. -/
theorem imageUses_pairwise : resource.imageUses.Pairwise fun u v => u.pass < v.pass := by
  cases hKind : resource.isImage with
  | false =>
    rw [((g.declared resource hMem).buffer hKind).1]
    exact .nil
  | true =>
    have hUses := hOrder resource hMem
    rw [Resource.uses, if_pos hKind, List.pairwise_map] at hUses
    exact hUses

/-- So do those that survive. -/
theorem neededUses_pairwise : (neededUses g resource).Pairwise fun u v => u.pass < v.pass :=
  (imageUses_pairwise hOrder hMem).filter _

/-- The layout after the first declared uses, if they are the ones that are done. -/
theorem leftIn_declared (hAccepted : Accepted g) {done : PassId → Prop}
    {before after : List ImageUse} (hSplit : neededUses g resource = before ++ after)
    (hBefore : ∀ use ∈ before, done use.pass) (hAfter : ∀ use ∈ after, ¬done use.pass) :
    LeftIn (RunsFirst g) resource.initialLayout (neededUses g resource) done
      (declaredLayout resource.initialLayout before.getLast?) := by
  have hLt : ∀ use ∈ neededUses g resource, use.pass < g.passes.length :=
    fun use hUse => (needed_of_mem hUse).lt
  rcases List.eq_nil_or_concat before with rfl | ⟨front, last, rfl⟩
  · refine Or.inl ⟨rfl, fun use hUse => hAfter use ?_⟩
    rw [hSplit] at hUse
    exact hUse
  · rw [List.concat_eq_append] at hSplit hBefore ⊢
    have hIn : last ∈ neededUses g resource := by
      rw [hSplit]
      simp
    have hSorted := neededUses_pairwise hOrder hMem
    rw [hSplit] at hSorted
    have hFront := (List.pairwise_append.mp (List.pairwise_append.mp hSorted).1).2.2
    rw [List.getLast?_append_of_ne_nil _ (List.cons_ne_nil _ _), List.getLast?_singleton]
    refine Or.inr ⟨last, hIn, hBefore last (by simp), rfl, fun other hOther hDone => ?_⟩
    have hOtherIn := hOther
    rw [hSplit] at hOtherIn
    rcases List.mem_append.mp hOtherIn with hDeclared | hLater
    · rcases List.mem_append.mp hDeclared with hEarlier | hLast
      · refine Or.inr ((hOrder.runsFirst_iff hAccepted (hLt _ hOther) (hLt _ hIn)).mpr ?_)
        exact hFront other hEarlier last List.mem_cons_self
      · exact Or.inl (congrArg ImageUse.pass (List.mem_singleton.mp hLast))
    · exact absurd hDone (hAfter other hLater)

/-- What is declared before a use is executed before it. -/
theorem layoutsAgree_of_inPassOrder {out : CompileResult} (hOk : compile g = .ok out) :
    LayoutsAgree g resource := by
  have hAccepted := accepted_of_compile hOk
  have hSorted := neededUses_pairwise hOrder hMem
  have hSingle : ∀ use ∈ neededUses g resource, ∀ other ∈ neededUses g resource,
      other.pass = use.pass → other.access.layout = use.access.layout := by
    intro use hUse other hOther hSame
    have hNodup : ((neededUses g resource).map ImageUse.pass).Nodup :=
      (List.pairwise_map.mpr hSorted).imp Nat.ne_of_lt
    rw [List.inj_on_of_nodup_map hNodup hOther hUse hSame]
  refine ⟨hSingle, fun use hUse current hCurrent => ?_, fun _ current hCurrent => ?_⟩
  · obtain ⟨before, after, hSplit⟩ := List.append_of_mem hUse
    rw [hSplit] at hSorted
    obtain ⟨-, hFrom, hTo⟩ := List.pairwise_append.mp hSorted
    have hBefore : ∀ other ∈ before, other.pass < use.pass :=
      fun other hOther => hTo other hOther use List.mem_cons_self
    have hAfter : ∀ other ∈ after, use.pass < other.pass := (List.pairwise_cons.mp hFrom).1
    have hDeclared : LeftIn (RunsFirst g) resource.initialLayout (neededUses g resource)
        (fun q => RunsFirst g q use.pass)
        (declaredLayout resource.initialLayout before.getLast?) := by
      have hRuns : ∀ other ∈ neededUses g resource,
          RunsFirst g other.pass use.pass ↔ other.pass < use.pass := fun other hOther =>
        hOrder.runsFirst_iff hAccepted (needed_of_mem hOther).lt (needed_of_mem hUse).lt
      refine leftIn_declared hOrder hMem hAccepted hSplit (fun other hOther => ?_)
        fun other hOther => ?_
      · rw [hRuns other (by rw [hSplit]; simp [hOther])]
        exact hBefore other hOther
      · rw [hRuns other (by rw [hSplit]; simpa using Or.inr hOther)]
        rcases List.mem_cons.mp hOther with rfl | hLater
        · exact Nat.lt_irrefl _
        · exact Nat.lt_asymm (hAfter other hLater)
    rw [leftIn_needed_unique hOk hSingle hCurrent hDeclared, hSplit,
      transitionsInto_split (fun other hOther => Nat.ne_of_lt (hBefore other hOther))
        (fun other hOther => Nat.ne_of_gt (hAfter other hOther)), Option.or_none]
    exact enters_own _ use
  · have hDeclared : LeftIn (RunsFirst g) resource.initialLayout (neededUses g resource)
        (fun _ => True)
        (declaredLayout resource.initialLayout (neededUses g resource).getLast?) :=
      leftIn_declared hOrder hMem hAccepted (List.append_nil _).symm (fun _ _ => trivial)
        fun use hUse => absurd hUse List.not_mem_nil
    exact leftIn_needed_unique hOk hSingle hDeclared hCurrent

end Layouts

-- ---------------------------------------------------------------------------
-- Barriers
-- ---------------------------------------------------------------------------

/-- What no step removes stays to the end of a fold. -/
theorem subset_foldl {α σ β : Type} {made : σ → List β} {step : σ → α → σ}
    (hStep : ∀ s x, made s ⊆ made (step s x)) (xs : List α) (s : σ) :
    made s ⊆ made (xs.foldl step s) := by
  induction xs generalizing s with
  | nil => exact List.Subset.refl _
  | cons x xs ih => exact List.Subset.trans (hStep s x) (ih (step s x))

section Barriers

variable {r : ResourceId}

/-- Barriers are only appended. -/
theorem ImageScan.subset_use (s : ImageScan) (use : ImageUse) :
    s.barriers ⊆ (s.use r use).barriers := by
  unfold ImageScan.use
  dsimp only
  split
  · exact List.subset_append_left _ _
  · exact List.Subset.refl _

/-- The second use of a hazard gets a barrier. -/
theorem ImageScan.exists_wait {uses : List ImageUse} {u v : ImageUse} (s : ImageScan)
    (hNext : [u, v] <:+: uses) (hHazard : ¬(u.isRead ∧ v.isRead)) :
    ∃ barrier ∈ (uses.foldl (ImageScan.use r) s).barriers, ImageWait r u v barrier := by
  obtain ⟨front, back, rfl⟩ := hNext
  rw [List.foldl_append, List.foldl_append]
  generalize front.foldl (ImageScan.use r) s = before
  have hNeeds : (before.use r u).needsBarrier v = true := by
    rw [not_and_or] at hHazard
    rcases hHazard with hWrites | hWrites
    · simp [ImageScan.needsBarrier, ImageScan.use, hWrites]
    · simp [ImageScan.needsBarrier, ImageScan.use, hWrites]
  have hMade : ∃ barrier ∈ ((before.use r u).use r v).barriers, ImageWait r u v barrier := by
    rw [ImageScan.use]
    dsimp only
    rw [if_pos hNeeds]
    exact ⟨_, List.mem_append_right _ List.mem_cons_self, rfl, rfl, rfl, rfl, rfl, rfl⟩
  obtain ⟨barrier, hMem, hWait⟩ := hMade
  exact ⟨barrier, subset_foldl ImageScan.subset_use back _ hMem, hWait⟩

/-- Those of buffers too. -/
theorem BufferScan.subset_use (s : BufferScan) (use : BufferUse) :
    s.barriers ⊆ (s.use r use).barriers := by
  unfold BufferScan.use
  dsimp only
  split
  · exact List.subset_append_left _ _
  · exact List.Subset.refl _

/-- A hazard between neighbouring uses has its barrier. -/
theorem BufferScan.exists_wait {uses : List BufferUse} {u v : BufferUse} (s : BufferScan)
    (hNext : [u, v] <:+: uses) (hHazard : ¬(u.isRead ∧ v.isRead)) :
    ∃ barrier ∈ (uses.foldl (BufferScan.use r) s).barriers, BufferWait r u v barrier := by
  obtain ⟨front, back, rfl⟩ := hNext
  rw [List.foldl_append, List.foldl_append]
  generalize front.foldl (BufferScan.use r) s = before
  have hNeeds : (!u.isRead || !v.isRead) = true := by
    rw [not_and_or] at hHazard
    rcases hHazard with hWrites | hWrites
    · simp [hWrites]
    · simp [hWrites]
  have hMade : ∃ barrier ∈ ((before.use r u).use r v).barriers, BufferWait r u v barrier := by
    rw [BufferScan.use]
    dsimp only
    rw [if_pos (by simp only [BufferScan.use, Bool.true_and, hNeeds, Bool.true_or])]
    exact ⟨_, List.mem_append_right _ List.mem_cons_self, rfl, rfl, rfl, rfl, rfl, rfl⟩
  obtain ⟨barrier, hMem, hWait⟩ := hMade
  exact ⟨barrier, subset_foldl BufferScan.subset_use back _ hMem, hWait⟩

end Barriers

section Compiled

variable {g : Graph} {out : CompileResult} (hOk : compile g = .ok out) {r : ResourceId}
  {resource : Resource} (hr : g.resources[r]? = some resource)

include hOk

/-- What survives the sweep is what the result says. -/
theorem survives_eq_survivors : out.survives = survivors g (topologicalOrder g) := by
  funext p
  rw [Bool.eq_iff_iff, survives_iff_needed hOk]
  exact (accepted_of_compile hOk).survivors_iff_needed.symm

include hr

/-- Neighbouring uses of an image with a hazard have a barrier between them. -/
theorem exists_imageWait {u v : ImageUse} (hNext : [u, v] <:+: out.imageUses resource)
    (hHazard : ¬(u.isRead ∧ v.isRead)) :
    ∃ barrier ∈ out.imageBarriers, ImageWait r u v barrier := by
  have hMem := List.mem_of_getElem? hr
  have hUses : out.imageUses resource = neededUses g resource := by
    rw [CompileResult.imageUses, survives_eq_survivors hOk, neededUses_eq hOk]
  rw [hUses] at hNext
  obtain ⟨barrier, hScan, hWait⟩ :=
    ImageScan.exists_wait { currentLayout := resource.initialLayout } hNext hHazard
  have hIn : barrier ∈ out.imageBarriers.filter fun b => b.resource = r := by
    rw [filter_imageBarriers hOk, hr, Option.map_some, Option.getD_some, imageBarriersOf_eq hOk hMem]
    exact List.mem_append_left _ hScan
  exact ⟨barrier, (List.mem_filter.mp hIn).1, hWait⟩

/-- So do those of a buffer. -/
theorem exists_bufferWait {u v : BufferUse} (hNext : [u, v] <:+: out.bufferUses resource)
    (hHazard : ¬(u.isRead ∧ v.isRead)) :
    ∃ barrier ∈ out.bufferBarriers, BufferWait r u v barrier := by
  obtain ⟨barrier, hScan, hWait⟩ := BufferScan.exists_wait (r := r) {} hNext hHazard
  have hUse : u ∈ resource.bufferUses :=
    (List.mem_filter.mp (hNext.subset List.mem_cons_self)).1
  have hBuffer : resource.isImage = false := by
    by_contra hImage
    have hNone := (g.declared resource (List.mem_of_getElem? hr)).image (Bool.not_eq_false _ ▸ hImage)
    rw [hNone] at hUse
    cases hUse
  have hOf : barrier ∈ bufferBarriersOf out.survives resource r := by
    unfold bufferBarriersOf
    rw [if_neg]
    · exact hScan
    · rintro (hImage | hNone)
      · exact Bool.false_ne_true (hBuffer.symm.trans hImage)
      · rw [hNone] at hUse
        cases hUse
  refine ⟨barrier, ?_, hWait⟩
  rw [survives_eq_survivors hOk] at hOf
  obtain ⟨-, rfl⟩ := compile_eq_ok_iff.mp hOk
  exact List.mem_flatMap.mpr ⟨(resource, r), List.mk_mem_zipIdx_iff_getElem?.mpr hr, hOf⟩

end Compiled

-- ---------------------------------------------------------------------------
-- Lifetimes
-- ---------------------------------------------------------------------------

/-- Extending a lifetime does not change whose it is. -/
theorem resource_foldl_extendLifetime (uses : List UseMark) (lifetime : ResourceLifetime) :
    (uses.foldl extendLifetime lifetime).resource = lifetime.resource := by
  induction uses generalizing lifetime with
  | nil => rfl
  | cons use uses ih => exact ih _

/-- The first pass stays. -/
theorem firstPass_foldl_extendLifetime (uses : List UseMark) {lifetime : ResourceLifetime}
    (h : lifetime.firstPass ≠ INVALID_PASS) :
    (uses.foldl extendLifetime lifetime).firstPass = lifetime.firstPass := by
  induction uses generalizing lifetime with
  | nil => rfl
  | cons use uses ih =>
    have hSame : (extendLifetime lifetime use).firstPass = lifetime.firstPass := if_neg h
    rw [List.foldl_cons, ih (hSame ▸ h), hSame]

/-- The last pass is the one seen last. -/
theorem foldl_extendLifetime_snoc (front : List UseMark) (last : UseMark)
    (lifetime : ResourceLifetime) :
    ((front ++ [last]).foldl extendLifetime lifetime).used = true ∧
      ((front ++ [last]).foldl extendLifetime lifetime).lastPass = last.pass := by
  rw [List.foldl_append]
  exact ⟨rfl, rfl⟩

/-- A resource with a use is used. -/
theorem used_foldl_extendLifetime {uses : List UseMark} {lifetime : ResourceLifetime}
    (hFresh : lifetime.used = false) :
    (uses.foldl extendLifetime lifetime).used = true ↔ uses ≠ [] := by
  rcases List.eq_nil_or_concat uses with rfl | ⟨front, last, rfl⟩
  · rw [List.foldl_nil, hFresh]
    simp
  · rw [List.concat_eq_append]
    exact iff_of_true (foldl_extendLifetime_snoc front last lifetime).1 (by simp)

/-- A fresh lifetime reaches from the user seen first to the one seen last. -/
theorem ends_foldl_extendLifetime {uses : List UseMark} {lifetime : ResourceLifetime}
    {first last : UseMark} (hFirst : uses.head? = some first) (hLast : uses.getLast? = some last)
    (hFresh : lifetime.firstPass = INVALID_PASS) (hValid : first.pass ≠ INVALID_PASS) :
    (uses.foldl extendLifetime lifetime).firstPass = first.pass ∧
      (uses.foldl extendLifetime lifetime).lastPass = last.pass := by
  constructor
  · obtain ⟨rest, rfl⟩ := List.head?_eq_some_iff.mp hFirst
    have hTaken : (extendLifetime lifetime first).firstPass = first.pass := if_pos hFresh
    rw [List.foldl_cons, firstPass_foldl_extendLifetime rest (hTaken ▸ hValid), hTaken]
  · obtain ⟨front, rfl⟩ := List.getLast?_eq_some_iff.mp hLast
    exact (foldl_extendLifetime_snoc front last lifetime).2

/-- Ever larger users make a fresh lifetime reach from the smallest to the largest. -/
theorem bounds_foldl_extendLifetime {uses : List UseMark} {lifetime : ResourceLifetime}
    (hSorted : uses.Pairwise fun u v => u.pass < v.pass)
    (hValid : ∀ use ∈ uses, use.pass ≠ INVALID_PASS) (hSome : uses ≠ [])
    (hFresh : lifetime.firstPass = INVALID_PASS) :
    ∃ first last, first ∈ uses ∧ (uses.foldl extendLifetime lifetime).firstPass = first.pass ∧
      last ∈ uses ∧ (uses.foldl extendLifetime lifetime).lastPass = last.pass ∧
      ∀ use ∈ uses, first.pass ≤ use.pass ∧ use.pass ≤ last.pass := by
  obtain ⟨first, rest, hFront⟩ := List.exists_cons_of_ne_nil hSome
  obtain ⟨front, last, hBack⟩ := (List.eq_nil_or_concat uses).resolve_left hSome
  rw [List.concat_eq_append] at hBack
  have hEnds := ends_foldl_extendLifetime (List.head?_eq_some_iff.mpr ⟨rest, hFront⟩)
    (List.getLast?_eq_some_iff.mpr ⟨front, hBack⟩) hFresh
    (hValid first (hFront ▸ List.mem_cons_self))
  refine ⟨first, last, hFront ▸ List.mem_cons_self, hEnds.1, by rw [hBack]; simp, hEnds.2,
    fun use hUse => ⟨?_, ?_⟩⟩
  · rw [hFront] at hSorted hUse
    rcases List.mem_cons.mp hUse with rfl | hRest
    · exact Nat.le_refl _
    · exact ((List.pairwise_cons.mp hSorted).1 use hRest).le
  · rw [hBack] at hSorted hUse
    rcases List.mem_append.mp hUse with hBefore | hSelf
    · exact ((List.pairwise_append.mp hSorted).2.2 use hBefore last List.mem_cons_self).le
    · rw [List.mem_singleton.mp hSelf]

/-- The marks of the uses that are executed. -/
def CompileResult.executedUses (out : CompileResult) (resource : Resource) : List UseMark :=
  resource.uses.filter fun use => out.survives use.pass

/-- The passes that use a resource after the sweep. -/
theorem mem_users_iff {out : CompileResult} {resource : Resource} {p : PassId} :
    p ∈ out.users resource ↔ ∃ use ∈ out.executedUses resource, use.pass = p := by
  constructor
  · rintro ⟨hSurvives, use, hUse, rfl⟩
    exact ⟨use, List.mem_filter.mpr ⟨hUse, hSurvives⟩, rfl⟩
  · rintro ⟨use, hUse, rfl⟩
    obtain ⟨hIn, hSurvives⟩ := List.mem_filter.mp hUse
    exact ⟨hSurvives, use, hIn, rfl⟩

/-- A resource is used when a surviving pass uses it. -/
theorem used_lifetimeOf_iff {out : CompileResult} {resource : Resource} {r : ResourceId} :
    (lifetimeOf out.survives resource r).used = true ↔ (out.users resource).Nonempty := by
  have hUsed : (lifetimeOf out.survives resource r).used = true ↔
      out.executedUses resource ≠ [] := used_foldl_extendLifetime rfl
  rw [hUsed]
  constructor
  · intro hSome
    obtain ⟨use, hUse⟩ := List.exists_mem_of_ne_nil _ hSome
    exact ⟨use.pass, mem_users_iff.mpr ⟨use, hUse, rfl⟩⟩
  · rintro ⟨p, hp⟩
    obtain ⟨use, hUse, -⟩ := mem_users_iff.mp hp
    exact List.ne_nil_of_mem hUse

section Compiled

variable {g : Graph} {out : CompileResult} (hOk : compile g = .ok out) {r : ResourceId}
  {resource : Resource} (hr : g.resources[r]? = some resource)

include hr

/-- No use is of the invalid pass. -/
theorem executedUses_ne_invalid {use : UseMark} (hUse : use ∈ out.executedUses resource) :
    use.pass ≠ INVALID_PASS := by
  have hDeclared := g.declared resource (List.mem_of_getElem? hr)
  exact g.pass_ne_invalid (hDeclared.pass_lt (List.mem_filter.mp hUse).1)

include hOk

/-- The lifetime of each resource, under its id. -/
theorem lifetimes_getElem : out.lifetimes[r]? = some (lifetimeOf out.survives resource r) := by
  rw [survives_eq_survivors hOk]
  obtain ⟨-, rfl⟩ := compile_eq_ok_iff.mp hOk
  show (g.resources.zipIdx.map _)[r]? = _
  rw [List.getElem?_map, List.getElem?_zipIdx, hr]
  simp

/-- The lifetime of a resource with ever larger users. -/
theorem lifetimeSpans_of_pairwise (hUses : resource.uses.Pairwise fun u v => u.pass < v.pass) :
    LifetimeSpans out r resource (lifetimeOf out.survives resource r) := by
  have hSorted : (out.executedUses resource).Pairwise fun u v => u.pass < v.pass :=
    hUses.filter _
  have hBounds : (lifetimeOf out.survives resource r).used = true →
      IsLeast (out.users resource) (lifetimeOf out.survives resource r).firstPass ∧
      IsGreatest (out.users resource) (lifetimeOf out.survives resource r).lastPass := by
    intro hSome
    have hFresh : ({ resource := r, isImage := resource.isImage } : ResourceLifetime).firstPass =
        INVALID_PASS := rfl
    have hSome' : out.executedUses resource ≠ [] := (used_foldl_extendLifetime rfl).mp hSome
    obtain ⟨first, last, hFirstIn, hFirst, hLastIn, hLast, hBetween⟩ :=
      bounds_foldl_extendLifetime hSorted (fun use => executedUses_ne_invalid hr) hSome' hFresh
    refine ⟨⟨mem_users_iff.mpr ⟨first, hFirstIn, hFirst.symm⟩, fun p hp => ?_⟩,
      mem_users_iff.mpr ⟨last, hLastIn, hLast.symm⟩, fun p hp => ?_⟩
    · obtain ⟨use, hUse, rfl⟩ := mem_users_iff.mp hp
      exact hFirst.le.trans (hBetween use hUse).1
    · obtain ⟨use, hUse, rfl⟩ := mem_users_iff.mp hp
      exact (hBetween use hUse).2.trans hLast.ge
  exact ⟨lifetimes_getElem hOk hr, resource_foldl_extendLifetime _ _, used_lifetimeOf_iff,
    fun hSome => (hBounds hSome).1, fun hSome => (hBounds hSome).2⟩

end Compiled

-- ---------------------------------------------------------------------------
-- Whole programs
-- ---------------------------------------------------------------------------

/-- A program that declares its uses in pass order and meets the checks of the declarations
is compiled, and compiled correctly. -/
theorem compile_inPassOrder {g : Graph} (hChecks : MeetsChecks g) (hOrder : InPassOrder g) :
    ∃ out, compile g = .ok out ∧ CompiledInOrder g out := by
  have hAccepted := hOrder.accepted hChecks
  have hOk := compile_eq_ok_iff.mpr ⟨hAccepted, rfl⟩
  refine ⟨_, hOk, ⟨?_, ?_, ?_, ?_, ?_⟩⟩
  · rw [executionOrder_eq hOk, survives_eq_survivors hOk,
      topologicalOrder_eq_range hOrder hAccepted]
  · exact layoutsChain_of_agree hOk fun resource hMem =>
      layoutsAgree_of_inPassOrder hOrder hMem hOk
  · intro r resource hr u v hNext hHazard
    exact exists_imageWait hOk hr hNext hHazard
  · intro r resource hr u v hNext hHazard
    exact exists_bufferWait hOk hr hNext hHazard
  · intro r resource hr
    exact ⟨_, lifetimeSpans_of_pairwise hOk hr (hOrder resource (List.mem_of_getElem? hr))⟩

theorem compile_inPassOrder_presentGraph :
    ∃ out, compile presentGraph = .ok out ∧ CompiledInOrder presentGraph out := by
  refine compile_inPassOrder ⟨by decide, by decide, ?_, ?_⟩ ?_
  · decide
  · intro resource hMem _ use hFirst
    rw [List.mem_singleton.mp hMem] at hFirst
    cases hFirst
    rfl
  · intro resource hMem
    rw [List.mem_singleton.mp hMem]
    exact .cons (by decide) (.cons (by decide) .nil)

end Ithax.RenderGraph
