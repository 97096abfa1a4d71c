import Ithax.Lib.KeyedRun
import Ithax.RenderGraph.Order
import Mathlib.Data.List.Induction

/-!
# Image layouts

The image layouts along the execution of a compiled graph. The barriers are made in
the order in which the uses are declared; a run gets through when the passes that
are executed before a use leave the image as the uses declared before it do.

## Results

* `runEvents_executed_iff`     — the run of one image, pass by pass.
* `leftIn_layoutAfter`         — how the executed passes leave an image.
* `layoutsChain_iff_agree`     — which graphs are executed with matching layouts.
-/

namespace Ithax.RenderGraph

open Ithax.Lib

-- ---------------------------------------------------------------------------
-- Execution
-- ---------------------------------------------------------------------------

/-- What the execution of a frame asks of an image. -/
inductive LayoutEvent where
  | barrier (b : ImageBarrier)
  | use (image : ResourceId) (layout : ImageLayout)

/-- The image an event is about. -/
def LayoutEvent.image : LayoutEvent → ResourceId
  | .barrier b => b.resource
  | .use image _ => image

/-- A barrier must find its old layout, a use the layout of its access. -/
def layoutStep (current : ImageLayout) : LayoutEvent → Option ImageLayout
  | .barrier b => if b.oldLayout = current then some b.newLayout else none
  | .use _ layout => if layout = current then some current else none

/-- A use, as an event of the image `r`. -/
def useEvent (r : ResourceId) (use : ImageUse) : LayoutEvent := .use r use.access.layout

/-- The barriers that stand before a pass. -/
def barriersBefore (barriers : List ImageBarrier) (p : PassId) : List LayoutEvent :=
  (barriers.filter fun barrier => barrier.beforePass = p).map .barrier

/-- The uses that a pass makes of an image. -/
def usesBy (uses : List ImageUse) (p : PassId) : List ImageUse :=
  uses.filter fun use => use.pass = p

/-- The uses that a pass makes of all images. -/
def imageUsesOf (g : Graph) (p : PassId) : List LayoutEvent :=
  g.resources.zipIdx.flatMap fun (resource, r) => (usesBy resource.imageUses p).map (useEvent r)

/-- The barriers of a pass come before its uses, those of no pass at the end. -/
def frameEvents (g : Graph) (out : CompileResult) : List LayoutEvent :=
  (out.executionOrder.flatMap fun p =>
    barriersBefore out.imageBarriers p ++ imageUsesOf g p) ++
  barriersBefore out.imageBarriers INVALID_PASS

/-- The layouts in which the images are registered. -/
def initialLayouts (g : Graph) (r : ResourceId) : ImageLayout :=
  (g.resources[r]?.map Resource.initialLayout).getD .undefined

/-- Every barrier and every use finds the layout it expects, and presented images end
ready to be presented. -/
def LayoutsChain (g : Graph) (out : CompileResult) : Prop :=
  ∃ final, runEvents (stepAt LayoutEvent.image layoutStep) (initialLayouts g) (frameEvents g out) =
      some final ∧
    ∀ r resource, g.resources[r]? = some resource → resource.presented = true →
      final r = .presentSrc

-- ---------------------------------------------------------------------------
-- The declared side
-- ---------------------------------------------------------------------------

/-- The layout after the use declared last. -/
def declaredLayout (initial : ImageLayout) : Option ImageUse → ImageLayout
  | none => initial
  | some use => use.access.layout

/-- The use changes the layout, or it or the use declared before it writes. -/
def needsTransition (initial : ImageLayout) : Option ImageUse → ImageUse → Bool
  | none, use => use.access.layout != initial
  | some previous, use =>
    use.access.layout != previous.access.layout || !previous.isRead || !use.isRead

/-- The declared layouts that the transitions before `p` start from. -/
def transitionsInto (initial : ImageLayout) (p : PassId) :
    Option ImageUse → List ImageUse → List ImageLayout
  | _, [] => []
  | previous, use :: uses =>
    if use.pass = p ∧ needsTransition initial previous use = true then
      declaredLayout initial previous :: transitionsInto initial p (some use) uses
    else transitionsInto initial p (some use) uses

/-- Transitions to `own` that start from `olds` can be made one after the other when the
image is in `current`. -/
def Enters (current own : ImageLayout) : List ImageLayout → Prop
  | [] => current = own
  | old :: olds => old = current ∧ ∀ next ∈ olds, next = own

/-- The layout after the passes of `done`: that of the user executed last. -/
def LeftIn (first : PassId → PassId → Prop) (initial : ImageLayout) (uses : List ImageUse)
    (done : PassId → Prop) (layout : ImageLayout) : Prop :=
  (layout = initial ∧ ∀ use ∈ uses, ¬done use.pass) ∨
  ∃ use ∈ uses, done use.pass ∧ layout = use.access.layout ∧
    ∀ other ∈ uses, done other.pass → other.pass = use.pass ∨ first other.pass use.pass

open Classical in
/-- The uses by passes that are not culled. -/
noncomputable def neededUses (g : Graph) (resource : Resource) : List ImageUse :=
  resource.imageUses.filter fun use => Needed g use.pass

/-- The layouts of an image are the same in the order of declaration, where its barriers
come from, and in the order of execution. -/
structure LayoutsAgree (g : Graph) (resource : Resource) : Prop where
  /-- No pass needs the image in two layouts. -/
  single : ∀ use ∈ neededUses g resource, ∀ other ∈ neededUses g resource,
    other.pass = use.pass → other.access.layout = use.access.layout
  /-- The transitions of a pass start from the layout in which the passes executed
  before it leave the image. -/
  enters : ∀ use ∈ neededUses g resource, ∀ current,
    LeftIn (RunsFirst g) resource.initialLayout (neededUses g resource)
      (fun q => RunsFirst g q use.pass) current →
    Enters current use.access.layout
      (transitionsInto resource.initialLayout use.pass none (neededUses g resource))
  /-- The use declared last and the user executed last leave the image in one layout. -/
  presents : resource.presented = true → ∀ current,
    LeftIn (RunsFirst g) resource.initialLayout (neededUses g resource) (fun _ => True) current →
    declaredLayout resource.initialLayout (neededUses g resource).getLast? = current

-- ---------------------------------------------------------------------------
-- The barriers of one image
-- ---------------------------------------------------------------------------

/-- The scan stands behind the use `previous`. -/
structure ScanAt (initial : ImageLayout) (previous : Option ImageUse) (s : ImageScan) : Prop where
  current : s.currentLayout = declaredLayout initial previous
  later : s.havePrevious = previous.isSome
  write : ∀ use, previous = some use → s.previousWasWrite = !use.isRead

/-- The scan asks for a barrier where the declarations need a transition. -/
theorem ScanAt.needsBarrier {initial : ImageLayout} {previous : Option ImageUse} {s : ImageScan}
    (h : ScanAt initial previous s) (use : ImageUse) :
    s.needsBarrier use = needsTransition initial previous use := by
  unfold ImageScan.needsBarrier
  rw [h.current, h.later]
  rcases previous with - | before
  · rfl
  · rw [h.write before rfl]
    rfl

/-- The scan goes on to the next use. -/
theorem ScanAt.next (initial : ImageLayout) {s : ImageScan} {r : ResourceId} {use : ImageUse} :
    ScanAt initial (some use) (s.use r use) where
  current := rfl
  later := rfl
  write other hOther := by
    obtain rfl := Option.some.inj hOther
    rfl

/-- The barriers before a pass start from the declared layouts. -/
theorem ScanAt.oldLayouts_fold {initial : ImageLayout} {r : ResourceId} {p : PassId} :
    ∀ (uses : List ImageUse) {previous : Option ImageUse} {s : ImageScan},
    ScanAt initial previous s →
    ((uses.foldl (ImageScan.use r) s).barriers.filter fun b => b.beforePass = p).map
        ImageBarrier.oldLayout =
      ((s.barriers.filter fun b => b.beforePass = p).map ImageBarrier.oldLayout) ++
        transitionsInto initial p previous uses
  | [], _, _, _ => by simp [transitionsInto]
  | use :: uses, previous, s, h => by
    rw [List.foldl_cons, ScanAt.oldLayouts_fold uses (ScanAt.next initial), transitionsInto]
    rcases hNeeds : needsTransition initial previous use with - | -
    · simp [ImageScan.use, h.needsBarrier, hNeeds]
    · by_cases hp : use.pass = p
      · simp [ImageScan.use, h.needsBarrier, hNeeds, hp, h.current]
      · simp [ImageScan.use, h.needsBarrier, hNeeds, hp]

/-- The scan ends in the declared layout. -/
theorem ScanAt.currentLayout_fold {initial : ImageLayout} {r : ResourceId} :
    ∀ (uses : List ImageUse) {previous : Option ImageUse} {s : ImageScan},
    ScanAt initial previous s →
    (uses.foldl (ImageScan.use r) s).currentLayout =
      declaredLayout initial (uses.getLast?.or previous)
  | [], _, _, h => h.current
  | use :: uses, previous, s, _ => by
    rw [List.foldl_cons, ScanAt.currentLayout_fold uses (ScanAt.next initial), List.getLast?_cons]
    rcases uses.getLast? with - | last <;> rfl

/-- Every barrier of the scan comes from a use. -/
theorem mem_barriers_fold {r : ResourceId} {b : ImageBarrier} :
    ∀ (uses : List ImageUse) {s : ImageScan}, b ∈ (uses.foldl (ImageScan.use r) s).barriers →
    b ∈ s.barriers ∨ b.resource = r ∧ ∃ use ∈ uses, b.beforePass = use.pass ∧
      b.newLayout = use.access.layout
  | [], _, h => Or.inl h
  | use :: uses, s, h => by
    rcases mem_barriers_fold uses h with hIn | ⟨hr, other, hOther, hRest⟩
    · simp only [ImageScan.use] at hIn
      split at hIn
      · rcases List.mem_append.mp hIn with hOld | hNew
        · exact Or.inl hOld
        · rw [List.mem_singleton.mp hNew]
          exact Or.inr ⟨rfl, use, List.mem_cons_self, rfl, rfl⟩
      · exact Or.inl hIn
    · exact Or.inr ⟨hr, other, List.mem_cons_of_mem _ hOther, hRest⟩

-- ---------------------------------------------------------------------------
-- The run of one image
-- ---------------------------------------------------------------------------

/-- A barrier is passed in its old layout only. -/
theorem layoutStep_barrier_eq_some {current final : ImageLayout} {b : ImageBarrier} :
    layoutStep current (.barrier b) = some final ↔
      b.oldLayout = current ∧ b.newLayout = final := by
  rw [layoutStep, Option.ite_none_right_eq_some, Option.some.injEq]

/-- Transitions from where one is already. -/
theorem enters_own_iff {own : ImageLayout} : ∀ {olds : List ImageLayout},
    Enters own own olds ↔ ∀ old ∈ olds, old = own
  | [] => by simp [Enters]
  | old :: olds => by simp [Enters]

/-- Barriers into one layout are passed when each finds what the one before has left. -/
theorem runEvents_barriers_iff {own : ImageLayout} : ∀ {barriers : List ImageBarrier}
    {current : ImageLayout}, (∀ b ∈ barriers, b.newLayout = own) →
    (runEvents layoutStep current (barriers.map .barrier) = some own ↔
      Enters current own (barriers.map ImageBarrier.oldLayout))
  | [], current, _ => by simp [Enters]
  | b :: barriers, current, hNew => by
    obtain ⟨hFirst, hRest⟩ := List.forall_mem_cons.mp hNew
    have ih := @runEvents_barriers_iff own barriers own hRest
    rw [List.map_cons, runEvents_cons_eq_some, List.map_cons, Enters, ← enters_own_iff, ← ih]
    constructor
    · rintro ⟨mid, hStep, hRun⟩
      obtain ⟨hOld, rfl⟩ := layoutStep_barrier_eq_some.mp hStep
      rw [hFirst] at hRun
      exact ⟨hOld, hRun⟩
    · rintro ⟨hOld, hRun⟩
      exact ⟨own, layoutStep_barrier_eq_some.mpr ⟨hOld, hFirst⟩, hRun⟩

/-- Uses are passed when all of them want the layout that is there. -/
theorem runEvents_uses_iff {r : ResourceId} {current final : ImageLayout} :
    ∀ {uses : List ImageUse}, runEvents layoutStep current (uses.map (useEvent r)) = some final ↔
      current = final ∧ ∀ use ∈ uses, use.access.layout = final
  | [] => by simp
  | use :: uses => by
    have ih := @runEvents_uses_iff r current final uses
    rw [List.map_cons, runEvents_cons_eq_some, List.forall_mem_cons]
    constructor
    · rintro ⟨mid, hStep, hRun⟩
      rw [useEvent, layoutStep, Option.ite_none_right_eq_some, Option.some.injEq] at hStep
      obtain ⟨hUse, rfl⟩ := hStep
      obtain ⟨rfl, hAll⟩ := ih.mp hRun
      exact ⟨rfl, hUse, hAll⟩
    · rintro ⟨rfl, hUse, hAll⟩
      refine ⟨current, ?_, ih.mpr ⟨rfl, hAll⟩⟩
      rw [useEvent, layoutStep, if_pos hUse]

/-- What a pass asks of an image that it finds in `current`, with transitions that start
from `olds`. -/
def PassAgrees (uses : List ImageUse) (olds : PassId → List ImageLayout) (p : PassId)
    (current : ImageLayout) : Prop :=
  ∀ use ∈ uses, use.pass = p →
    (∀ other ∈ uses, other.pass = p → other.access.layout = use.access.layout) ∧
    Enters current use.access.layout (olds p)

/-- The layout after a pass that found the image in `current`. -/
def passLayout (uses : List ImageUse) (current : ImageLayout) (p : PassId) : ImageLayout :=
  declaredLayout current (uses.find? fun use => use.pass = p)

/-- The layout after some passes. -/
def layoutAfter (uses : List ImageUse) (start : ImageLayout) (passes : List PassId) :
    ImageLayout :=
  passes.foldl (passLayout uses) start

section Run

variable {r : ResourceId} {uses : List ImageUse} {barriers : List ImageBarrier}
  (hNew : ∀ b ∈ barriers, ∀ p, b.beforePass = p → p ≠ INVALID_PASS →
    ∃ use ∈ uses, use.pass = p ∧ b.newLayout = use.access.layout)

/-- The layouts that the barriers before a pass start from. -/
def oldLayoutsBefore (barriers : List ImageBarrier) (p : PassId) : List ImageLayout :=
  (barriers.filter fun b => b.beforePass = p).map ImageBarrier.oldLayout

include hNew

/-- One pass: its barriers, and then its uses. -/
theorem runEvents_pass_iff {p : PassId} (hp : p ≠ INVALID_PASS) {current final : ImageLayout} :
    runEvents layoutStep current (barriersBefore barriers p ++ (usesBy uses p).map (useEvent r)) =
        some final ↔
      PassAgrees uses (oldLayoutsBefore barriers) p current ∧
        final = passLayout uses current p := by
  have hNewBy : ∀ b ∈ barriers.filter (fun b => b.beforePass = p),
      ∃ use ∈ usesBy uses p, b.newLayout = use.access.layout := by
    intro b hb
    obtain ⟨hMem, hBefore⟩ := List.mem_filter.mp hb
    obtain ⟨use, hUse, hPass, hLayout⟩ := hNew b hMem p (of_decide_eq_true hBefore) hp
    exact ⟨use, List.mem_filter.mpr ⟨hUse, decide_eq_true hPass⟩, hLayout⟩
  have hMemBy : ∀ use, use ∈ usesBy uses p ↔ use ∈ uses ∧ use.pass = p := by
    intro use
    rw [usesBy, List.mem_filter, decide_eq_true_eq]
  rw [runEvents_append_eq_some, passLayout]
  rcases hFind : uses.find? (fun use => use.pass = p) with - | first
  · -- a pass that does not use the image has no barriers for it
    have hNone : usesBy uses p = [] := by
      rw [usesBy, List.filter_eq_nil_iff]
      exact List.find?_eq_none.mp hFind
    have hNoBarriers : barriers.filter (fun b => b.beforePass = p) = [] := by
      refine List.eq_nil_iff_forall_not_mem.mpr fun b hb => ?_
      obtain ⟨use, hUse, -⟩ := hNewBy b hb
      rw [hNone] at hUse
      exact List.not_mem_nil hUse
    have hAgrees : PassAgrees uses (oldLayoutsBefore barriers) p current := by
      intro use hUse hPass
      have hIn := (hMemBy use).mpr ⟨hUse, hPass⟩
      rw [hNone] at hIn
      exact absurd hIn List.not_mem_nil
    rw [barriersBefore, hNoBarriers, hNone, hFind]
    simp only [List.map_nil, runEvents_nil, Option.some.injEq, exists_eq_left', declaredLayout]
    exact ⟨fun h => ⟨hAgrees, h.symm⟩, fun h => h.2.symm⟩
  · have hFirst : first ∈ uses ∧ first.pass = p :=
      ⟨List.mem_of_find?_eq_some hFind, by simpa using List.find?_some hFind⟩
    have hFirstBy := (hMemBy first).mpr hFirst
    rw [hFind, declaredLayout]
    constructor
    · rintro ⟨mid, hBarriers, hUses⟩
      obtain ⟨rfl, hAll⟩ := runEvents_uses_iff.mp hUses
      have hTo : ∀ b ∈ barriers.filter (fun b => b.beforePass = p), b.newLayout = mid := by
        intro b hb
        obtain ⟨use, hUse, hLayout⟩ := hNewBy b hb
        exact hLayout.trans (hAll use hUse)
      have hEnters := (runEvents_barriers_iff hTo).mp hBarriers
      refine ⟨fun use hUse hPass => ?_, (hAll first hFirstBy).symm⟩
      have hOwn := hAll use ((hMemBy use).mpr ⟨hUse, hPass⟩)
      rw [hOwn]
      exact ⟨fun other hOther hSame => hAll other ((hMemBy other).mpr ⟨hOther, hSame⟩), hEnters⟩
    · rintro ⟨hAgrees, rfl⟩
      obtain ⟨hSingle, hEnters⟩ := hAgrees first hFirst.1 hFirst.2
      have hAll : ∀ use ∈ usesBy uses p, use.access.layout = first.access.layout := by
        intro use hUse
        obtain ⟨hMem, hPass⟩ := (hMemBy use).mp hUse
        exact hSingle use hMem hPass
      have hTo : ∀ b ∈ barriers.filter (fun b => b.beforePass = p),
          b.newLayout = first.access.layout := by
        intro b hb
        obtain ⟨use, hUse, hLayout⟩ := hNewBy b hb
        exact hLayout.trans (hAll use hUse)
      exact ⟨_, (runEvents_barriers_iff hTo).mpr hEnters, runEvents_uses_iff.mpr ⟨rfl, hAll⟩⟩

/-- The run over the executed passes: each of them enters from where those before it
leave the image. -/
theorem runEvents_executed_iff : ∀ {executed : List PassId} {start final : ImageLayout},
    (∀ p ∈ executed, p ≠ INVALID_PASS) →
    (runEvents layoutStep start (executed.flatMap fun p =>
        barriersBefore barriers p ++ (usesBy uses p).map (useEvent r)) = some final ↔
      (∀ before p after, executed = before ++ p :: after →
        PassAgrees uses (oldLayoutsBefore barriers) p (layoutAfter uses start before)) ∧
      final = layoutAfter uses start executed)
  | [], start, final, _ => by
    simp [layoutAfter, eq_comm]
  | p :: executed, start, final, hValid => by
    obtain ⟨hp, hRest⟩ := List.forall_mem_cons.mp hValid
    rw [List.flatMap_cons, runEvents_append_eq_some]
    constructor
    · rintro ⟨mid, hPass, hRun⟩
      obtain ⟨hAgrees, rfl⟩ := (runEvents_pass_iff hNew hp).mp hPass
      obtain ⟨hAll, rfl⟩ := (runEvents_executed_iff hRest).mp hRun
      refine ⟨fun before q after hSplit => ?_, rfl⟩
      rcases before with - | ⟨first, before⟩
      · obtain ⟨rfl, -⟩ := List.cons.inj hSplit
        exact hAgrees
      · obtain ⟨rfl, hTail⟩ := List.cons.inj hSplit
        exact hAll before q after hTail
    · rintro ⟨hAll, rfl⟩
      refine ⟨_, (runEvents_pass_iff hNew hp).mpr ⟨hAll [] p executed rfl, rfl⟩, ?_⟩
      refine (runEvents_executed_iff hRest).mpr ⟨fun before q after hSplit => ?_, rfl⟩
      exact hAll (p :: before) q after (by rw [hSplit]; rfl)

end Run

-- ---------------------------------------------------------------------------
-- The user executed last
-- ---------------------------------------------------------------------------

section LeftIn

variable {first : PassId → PassId → Prop} {initial : ImageLayout} {uses : List ImageUse}

/-- Only the passes that use the image count. -/
theorem leftIn_congr {done done' : PassId → Prop}
    (h : ∀ use ∈ uses, done use.pass ↔ done' use.pass) {layout : ImageLayout} :
    LeftIn first initial uses done layout ↔ LeftIn first initial uses done' layout := by
  have hNone : (∀ use ∈ uses, ¬done use.pass) ↔ ∀ use ∈ uses, ¬done' use.pass :=
    forall₂_congr fun use hUse => not_congr (h use hUse)
  have hAll : ∀ last, (∀ other ∈ uses, done other.pass → other.pass = last ∨ first other.pass last) ↔
      ∀ other ∈ uses, done' other.pass → other.pass = last ∨ first other.pass last :=
    fun last => forall₂_congr fun other hOther => imp_congr_left (h other hOther)
  unfold LeftIn
  rw [hNone]
  refine or_congr_right (exists_congr fun use => and_congr_right fun hUse => ?_)
  rw [h use hUse, hAll]

/-- What the passes leave is the layout of the last user. -/
theorem leftIn_layoutAfter (passes : List PassId) (hOrdered : passes.Pairwise first) :
    LeftIn first initial uses (· ∈ passes) (layoutAfter uses initial passes) := by
  induction passes using List.reverseRecOn with
  | nil => exact Or.inl ⟨rfl, fun _ _ => List.not_mem_nil⟩
  | append_singleton passes p ih =>
    obtain ⟨hBefore, -, hLast⟩ := List.pairwise_append.mp hOrdered
    rw [layoutAfter, List.foldl_append]
    show LeftIn first initial uses _ (passLayout uses (layoutAfter uses initial passes) p)
    rw [passLayout]
    rcases hFind : uses.find? (fun use => use.pass = p) with - | last
    · -- `p` does not use the image
      rw [hFind, declaredLayout]
      refine (leftIn_congr fun use hUse => ?_).mpr (ih hBefore)
      have hOther : use.pass ≠ p := by simpa using List.find?_eq_none.mp hFind use hUse
      simp [hOther]
    · have hPass : last.pass = p := by simpa using List.find?_some hFind
      rw [hFind, declaredLayout]
      refine Or.inr ⟨last, List.mem_of_find?_eq_some hFind, ?_, rfl, fun other _ hDone => ?_⟩
      · simp [hPass]
      · rw [hPass]
        rcases List.mem_append.mp hDone with hIn | hSelf
        · exact Or.inr (hLast _ hIn p List.mem_cons_self)
        · exact Or.inl (List.mem_singleton.mp hSelf)

/-- There is one such layout, when the order of the users is strict and none of them wants two. -/
theorem leftIn_unique {done : PassId → Prop}
    (hSingle : ∀ use ∈ uses, done use.pass → ∀ other ∈ uses, other.pass = use.pass →
      other.access.layout = use.access.layout)
    (hAsymm : ∀ use ∈ uses, ∀ other ∈ uses, first use.pass other.pass →
      ¬first other.pass use.pass) {a b : ImageLayout}
    (ha : LeftIn first initial uses done a) (hb : LeftIn first initial uses done b) : a = b := by
  rcases ha with ⟨rfl, hNone⟩ | ⟨use, hUse, hDone, rfl, hLast⟩
  · rcases hb with ⟨rfl, -⟩ | ⟨other, hOther, hDone, -⟩
    · rfl
    · exact absurd hDone (hNone other hOther)
  · rcases hb with ⟨-, hNone⟩ | ⟨other, hOther, hDone', rfl, hLast'⟩
    · exact absurd hDone (hNone use hUse)
    · rcases hLast other hOther hDone' with hSame | hFirst
      · exact (hSingle use hUse hDone other hOther hSame).symm
      · rcases hLast' use hUse hDone with hSame | hBack
        · exact hSingle other hOther hDone' use hUse hSame
        · exact absurd hBack (hAsymm other hOther use hUse hFirst)

end LeftIn

-- ---------------------------------------------------------------------------
-- The events of one image
-- ---------------------------------------------------------------------------

/-- Of lists made from the entries of `xs`, those of the entry at `r`. -/
theorem filter_zipIdx_flatMap {α β : Type} (key : β → Nat) {f : α × Nat → List β}
    (hKey : ∀ x i, ∀ b ∈ f (x, i), key b = i) {r : Nat} : ∀ (xs : List α) (start : Nat),
    ((xs.zipIdx start).flatMap f).filter (fun b => key b = r) =
      if start ≤ r then (xs[r - start]?.map fun x => f (x, r)).getD [] else []
  | [], start => by simp
  | x :: xs, start => by
    rw [List.zipIdx_cons, List.flatMap_cons, List.filter_append,
      filter_zipIdx_flatMap key hKey xs (start + 1)]
    by_cases hr : start = r
    · subst hr
      have hAll : (f (x, start)).filter (fun b => key b = start) = f (x, start) :=
        List.filter_eq_self.mpr fun b hb => by simpa using hKey x start b hb
      simp [hAll]
    · have hNone : (f (x, start)).filter (fun b => key b = r) = [] :=
        List.filter_eq_nil_iff.mpr fun b hb => by simpa [hKey x start b hb] using hr
      rw [hNone, List.nil_append]
      by_cases hLe : start ≤ r
      · have hLt : start + 1 ≤ r := by omega
        have hSub : r - start = (r - (start + 1)) + 1 := by omega
        rw [if_pos hLt, if_pos hLe, hSub, List.getElem?_cons_succ]
      · rw [if_neg (by omega), if_neg hLe]

/-- The barriers of one image before a pass. -/
theorem filter_barriersBefore {barriers : List ImageBarrier} {p : PassId} {r : ResourceId} :
    (barriersBefore barriers p).filter (fun e => e.image = r) =
      barriersBefore (barriers.filter fun b => b.resource = r) p := by
  rw [barriersBefore, barriersBefore, List.filter_map, List.filter_filter, List.filter_filter]
  exact congrArg _ (List.filter_congr fun b _ => Bool.and_comm _ _)

/-- A barrier is about the image it was made for. -/
theorem resource_of_mem_imageBarriersOf {surviving : PassId → Bool} {resource : Resource}
    {r : ResourceId} {b : ImageBarrier} (hb : b ∈ imageBarriersOf surviving resource r) :
    b.resource = r := by
  unfold imageBarriersOf at hb
  split at hb
  · exact absurd hb List.not_mem_nil
  · rcases List.mem_append.mp hb with hScan | hPresent
    · rcases mem_barriers_fold _ hScan with hNone | ⟨hr, -⟩
      · exact absurd hNone List.not_mem_nil
      · exact hr
    · split at hPresent
      · rw [List.mem_singleton.mp hPresent]
        rfl
      · exact absurd hPresent List.not_mem_nil

/-- A presented image was used, or the graph would not have been accepted. -/
theorem Accepted.presented_uses {g : Graph} (h : Accepted g) {resource : Resource}
    (hMem : resource ∈ g.resources) (hPresented : resource.presented = true) :
    resource.isImage = true ∧ resource.imageUses ≠ [] := by
  have hImage := (g.declared resource hMem).isImage hPresented
  refine ⟨hImage, fun hNone => ?_⟩
  have hValid := h.validated resource hMem
  rw [validateResource, if_pos hImage, if_pos ⟨hPresented, hNone⟩] at hValid
  exact nomatch hValid

section Chain

variable {g : Graph} {out : CompileResult} (hOk : compile g = .ok out)
  {resource : Resource} (hMem : resource ∈ g.resources)

include hOk

/-- The needed uses are those of the survivors. -/
theorem neededUses_eq : neededUses g resource =
    resource.imageUses.filter fun use => survivors g (topologicalOrder g) use.pass := by
  classical
  refine List.filter_congr fun use _ => ?_
  rw [Bool.eq_iff_iff, decide_eq_true_eq]
  exact (accepted_of_compile hOk).survivors_iff_needed.symm

include hMem

/-- The barriers of an image are those of the scan, and the one for the present. -/
theorem imageBarriersOf_eq (r : ResourceId) :
    imageBarriersOf (survivors g (topologicalOrder g)) resource r =
      ((neededUses g resource).foldl (ImageScan.use r)
        { currentLayout := resource.initialLayout }).barriers ++
      if resource.presented then
        [ImageScan.present r ((neededUses g resource).foldl (ImageScan.use r)
          { currentLayout := resource.initialLayout })]
      else [] := by
  rw [imageBarriersOf, scanImage, ← neededUses_eq hOk]
  split
  · rename_i hNone
    have hUses : resource.imageUses = [] := by
      rcases hNone with hBuffer | hEmpty
      · exact ((g.declared resource hMem).buffer hBuffer).1
      · exact hEmpty
    have hPresented : resource.presented = false := by
      by_contra hPresented
      have hSome := (accepted_of_compile hOk).presented_uses hMem (Bool.not_eq_false _ ▸ hPresented)
      exact hSome.2 hUses
    have hNeeded : neededUses g resource = [] := by
      rw [neededUses, hUses]
      rfl
    rw [hNeeded, hPresented]
    rfl
  · rfl

omit hOk in
/-- A needed use has a pass. -/
theorem pass_ne_invalid {use : ImageUse} (hUse : use ∈ neededUses g resource) :
    use.pass ≠ INVALID_PASS :=
  g.pass_ne_invalid ((g.declared resource hMem).imagePass use (List.mem_filter.mp hUse).1)

/-- The barriers of an image before a pass start where the declarations leave it. -/
theorem oldLayoutsBefore_imageBarriersOf (r : ResourceId) {p : PassId} (hp : p ≠ INVALID_PASS) :
    oldLayoutsBefore (imageBarriersOf (survivors g (topologicalOrder g)) resource r) p =
      transitionsInto resource.initialLayout p none (neededUses g resource) := by
  have hStart : ScanAt resource.initialLayout none
      { currentLayout := resource.initialLayout } := ⟨rfl, rfl, fun _ h => nomatch h⟩
  have hScan := ScanAt.oldLayouts_fold (r := r) (p := p) (neededUses g resource) hStart
  rw [oldLayoutsBefore, imageBarriersOf_eq hOk hMem, List.filter_append, List.map_append, hScan]
  rcases resource.presented with - | -
  · simp
  · simp [ImageScan.present, Ne.symm hp]

/-- What stands at the end of the frame: the transition for the present. -/
theorem barriersBefore_invalid (r : ResourceId) :
    barriersBefore (imageBarriersOf (survivors g (topologicalOrder g)) resource r) INVALID_PASS =
      if resource.presented then
        [.barrier (ImageScan.present r ((neededUses g resource).foldl (ImageScan.use r)
          { currentLayout := resource.initialLayout }))]
      else [] := by
  rw [barriersBefore, imageBarriersOf_eq hOk hMem, List.filter_append]
  have hNone : ((neededUses g resource).foldl (ImageScan.use r)
      { currentLayout := resource.initialLayout }).barriers.filter
        (fun b => b.beforePass = INVALID_PASS) = [] := by
    refine List.filter_eq_nil_iff.mpr fun b hb => ?_
    rcases mem_barriers_fold _ hb with hStart | ⟨-, use, hUse, hPass, -⟩
    · exact absurd hStart List.not_mem_nil
    · rw [hPass, decide_eq_true_eq]
      exact pass_ne_invalid hMem hUse
  rw [hNone, List.nil_append]
  rcases resource.presented with - | -
  · rfl
  · rfl

/-- A barrier before a pass leads into the layout of a use by that pass. -/
theorem newLayout_imageBarriersOf (r : ResourceId) :
    ∀ b ∈ imageBarriersOf (survivors g (topologicalOrder g)) resource r, ∀ p, b.beforePass = p →
      p ≠ INVALID_PASS → ∃ use ∈ neededUses g resource, use.pass = p ∧
        b.newLayout = use.access.layout := by
  intro b hb p hBefore hp
  rw [imageBarriersOf_eq hOk hMem] at hb
  rcases List.mem_append.mp hb with hScan | hPresent
  · rcases mem_barriers_fold _ hScan with hStart | ⟨-, use, hUse, hPass, hLayout⟩
    · exact absurd hStart List.not_mem_nil
    · exact ⟨use, hUse, hPass.symm.trans hBefore, hLayout⟩
  · split at hPresent
    · rw [List.mem_singleton.mp hPresent] at hBefore
      exact absurd hBefore.symm hp
    · exact absurd hPresent List.not_mem_nil

omit hMem in
/-- The barriers of one image. -/
theorem filter_imageBarriers (r : ResourceId) :
    out.imageBarriers.filter (fun b => b.resource = r) = (g.resources[r]?.map fun resource =>
      imageBarriersOf (survivors g (topologicalOrder g)) resource r).getD [] := by
  obtain ⟨-, rfl⟩ := compile_eq_ok_iff.mp hOk
  have hZip := filter_zipIdx_flatMap ImageBarrier.resource (r := r)
    (f := fun x => imageBarriersOf (survivors g (topologicalOrder g)) x.1 x.2)
    (fun x i b hb => resource_of_mem_imageBarriersOf hb) g.resources 0
  rw [if_pos (Nat.zero_le r), Nat.sub_zero] at hZip
  exact hZip

omit hOk hMem in
/-- The uses that a pass makes of one image. -/
theorem filter_imageUsesOf (p : PassId) (r : ResourceId) :
    (imageUsesOf g p).filter (fun e => e.image = r) = (g.resources[r]?.map fun resource =>
      (usesBy resource.imageUses p).map (useEvent r)).getD [] := by
  have hImage : ∀ (x : Resource) i, ∀ e ∈ (usesBy x.imageUses p).map (useEvent i),
      e.image = i := by
    intro x i e he
    obtain ⟨use, -, rfl⟩ := List.mem_map.mp he
    rfl
  have hZip := filter_zipIdx_flatMap LayoutEvent.image (r := r)
    (f := fun x : Resource × Nat => (usesBy x.1.imageUses p).map (useEvent x.2)) hImage
    g.resources 0
  rw [if_pos (Nat.zero_le r), Nat.sub_zero] at hZip
  exact hZip

omit hMem in
/-- The events of the image at `r`, while passes are executed. -/
theorem filter_passEvents {r : ResourceId} (hr : g.resources[r]? = some resource) :
    (out.executionOrder.flatMap fun p => barriersBefore out.imageBarriers p ++
      imageUsesOf g p).filter (fun e => e.image = r) =
      out.executionOrder.flatMap fun p =>
        barriersBefore (imageBarriersOf (survivors g (topologicalOrder g)) resource r) p ++
          (usesBy (neededUses g resource) p).map (useEvent r) := by
  have hBarriers := filter_imageBarriers hOk r
  rw [hr, Option.map_some, Option.getD_some] at hBarriers
  rw [List.filter_flatMap]
  refine List.flatMap_congr fun p hp => ?_
  rw [List.filter_append, filter_barriersBefore, hBarriers, filter_imageUsesOf, hr,
    Option.map_some, Option.getD_some]
  -- an executed pass makes all its uses
  rw [executionOrder_eq hOk] at hp
  have hSurvives := (List.mem_filter.mp hp).2
  have hUses : usesBy resource.imageUses p = usesBy (neededUses g resource) p := by
    rw [neededUses_eq hOk, usesBy, usesBy, List.filter_filter]
    refine List.filter_congr fun use _ => ?_
    by_cases hPass : use.pass = p
    · simp [hPass, hSurvives]
    · simp [hPass]
  rw [hUses]

omit hMem in
/-- The events of the image at `r`. -/
theorem filter_frameEvents {r : ResourceId} (hr : g.resources[r]? = some resource) :
    (frameEvents g out).filter (fun e => e.image = r) =
      (out.executionOrder.flatMap fun p =>
        barriersBefore (imageBarriersOf (survivors g (topologicalOrder g)) resource r) p ++
          (usesBy (neededUses g resource) p).map (useEvent r)) ++
      barriersBefore (imageBarriersOf (survivors g (topologicalOrder g)) resource r)
        INVALID_PASS := by
  have hBarriers := filter_imageBarriers hOk r
  rw [hr, Option.map_some, Option.getD_some] at hBarriers
  rw [frameEvents, List.filter_append, filter_barriersBefore, hBarriers, filter_passEvents hOk hr]

omit hMem in
/-- An image that was not declared is not touched by any pass. -/
theorem filter_passEvents_none {r : ResourceId} (hr : g.resources[r]? = none) :
    (out.executionOrder.flatMap fun p => barriersBefore out.imageBarriers p ++
      imageUsesOf g p).filter (fun e => e.image = r) = [] := by
  have hBarriers := filter_imageBarriers hOk r
  rw [hr, Option.map_none, Option.getD_none] at hBarriers
  rw [List.filter_flatMap]
  refine List.flatMap_eq_nil_iff.mpr fun p _ => ?_
  rw [List.filter_append, filter_barriersBefore, hBarriers, filter_imageUsesOf, hr]
  rfl

omit hMem in
/-- Nor by the rest of the frame. -/
theorem filter_frameEvents_none {r : ResourceId} (hr : g.resources[r]? = none) :
    (frameEvents g out).filter (fun e => e.image = r) = [] := by
  have hBarriers := filter_imageBarriers hOk r
  rw [hr, Option.map_none, Option.getD_none] at hBarriers
  rw [frameEvents, List.filter_append, filter_barriersBefore, hBarriers,
    filter_passEvents_none hOk hr]
  rfl

omit hMem in
/-- The passes run in order. -/
theorem executionOrder_pairwise : out.executionOrder.Pairwise (RunsFirst g) := by
  have hAccepted := accepted_of_compile hOk
  rw [executionOrder_eq hOk]
  refine List.Pairwise.filter _ ?_
  rw [List.pairwise_iff_getElem]
  intro i j hi hj hij
  have hLt : ∀ k (hk : k < (topologicalOrder g).length), (topologicalOrder g)[k] < g.passes.length :=
    fun k hk => hAccepted.mem_iff.mp (List.getElem_mem hk)
  rw [hAccepted.runsFirst_iff (hLt i hi) (hLt j hj), hAccepted.nodup.idxOf_getElem,
    hAccepted.nodup.idxOf_getElem]
  exact hij

omit hMem in
/-- The passes that run are the needed ones. -/
theorem mem_executionOrder_iff {p : PassId} : p ∈ out.executionOrder ↔ Needed g p := by
  have hAccepted := accepted_of_compile hOk
  rw [executionOrder_eq hOk, List.mem_filter, hAccepted.survivors_iff_needed, hAccepted.mem_iff]
  exact and_iff_right_of_imp Needed.lt

omit hMem in
/-- The order of the needed passes is strict. -/
theorem runsFirst_asymm {a b : PassId} (ha : Needed g a) (hb : Needed g b)
    (hFirst : RunsFirst g a b) : ¬RunsFirst g b a := by
  have hAccepted := accepted_of_compile hOk
  rw [hAccepted.runsFirst_iff hb.lt ha.lt]
  exact Nat.lt_asymm ((hAccepted.runsFirst_iff ha.lt hb.lt).mp hFirst)

omit hOk hMem in
/-- A needed use has a needed pass. -/
theorem needed_of_mem {use : ImageUse} (hUse : use ∈ neededUses g resource) :
    Needed g use.pass := by
  classical
  exact of_decide_eq_true (List.mem_filter.mp hUse).2

omit hMem in
/-- The passes before `p` in the execution order are those that run first. -/
theorem mem_before_iff {before after : List PassId} {p q : PassId}
    (hSplit : out.executionOrder = before ++ p :: after) (hq : Needed g q) :
    q ∈ before ↔ RunsFirst g q p := by
  have hPairwise := hSplit ▸ executionOrder_pairwise hOk
  have hp : Needed g p := (mem_executionOrder_iff hOk).mp (by rw [hSplit]; simp)
  obtain ⟨-, hFrom, hBefore⟩ := List.pairwise_append.mp hPairwise
  constructor
  · intro hIn
    exact hBefore q hIn p List.mem_cons_self
  · intro hFirst
    have hMemQ := (mem_executionOrder_iff hOk).mpr hq
    rw [hSplit] at hMemQ
    rcases List.mem_append.mp hMemQ with hIn | hRest
    · exact hIn
    · rcases List.mem_cons.mp hRest with rfl | hAfter
      · exact absurd hFirst (runsFirst_asymm hOk hq hq hFirst)
      · exact absurd hFirst (runsFirst_asymm hOk hp hq ((List.pairwise_cons.mp hFrom).1 q hAfter))

omit hMem in
/-- What the passes before `p` leave. -/
theorem leftIn_before (start : ImageLayout) {before after : List PassId} {p : PassId}
    (hSplit : out.executionOrder = before ++ p :: after) :
    LeftIn (RunsFirst g) start (neededUses g resource) (fun q => RunsFirst g q p)
      (layoutAfter (neededUses g resource) start before) := by
  have hPairwise := hSplit ▸ executionOrder_pairwise hOk
  refine (leftIn_congr fun use hUse => ?_).mpr
    (leftIn_layoutAfter before (List.pairwise_append.mp hPairwise).1)
  exact (mem_before_iff hOk hSplit (needed_of_mem hUse)).symm

omit hMem in
/-- What all passes leave. -/
theorem leftIn_executed :
    LeftIn (RunsFirst g) resource.initialLayout (neededUses g resource) (fun _ => True)
      (layoutAfter (neededUses g resource) resource.initialLayout out.executionOrder) := by
  refine (leftIn_congr fun use hUse => ?_).mpr
    (leftIn_layoutAfter out.executionOrder (executionOrder_pairwise hOk))
  exact iff_of_true trivial ((mem_executionOrder_iff hOk).mpr (needed_of_mem hUse))

omit hMem in
/-- There is one layout that the needed uses leave. -/
theorem leftIn_needed_unique {start : ImageLayout} {done : PassId → Prop} {a b : ImageLayout}
    (hSingle : ∀ use ∈ neededUses g resource, ∀ other ∈ neededUses g resource,
      other.pass = use.pass → other.access.layout = use.access.layout)
    (ha : LeftIn (RunsFirst g) start (neededUses g resource) done a)
    (hb : LeftIn (RunsFirst g) start (neededUses g resource) done b) : a = b :=
  leftIn_unique (fun use hUse _ => hSingle use hUse)
    (fun _ hUse _ hOther => runsFirst_asymm hOk (needed_of_mem hUse) (needed_of_mem hOther)) ha hb

/-- From `start`, the passes get through exactly when none needs the image in two layouts and
each enters from where the passes before it leave the image. -/
theorem passAgrees_iff (r : ResourceId) (start : ImageLayout) :
    (∀ before p after, out.executionOrder = before ++ p :: after →
      PassAgrees (neededUses g resource)
        (oldLayoutsBefore (imageBarriersOf (survivors g (topologicalOrder g)) resource r)) p
        (layoutAfter (neededUses g resource) start before)) ↔
      (∀ use ∈ neededUses g resource, ∀ other ∈ neededUses g resource, other.pass = use.pass →
        other.access.layout = use.access.layout) ∧
      ∀ use ∈ neededUses g resource, ∀ current,
        LeftIn (RunsFirst g) start (neededUses g resource)
          (fun q => RunsFirst g q use.pass) current →
        Enters current use.access.layout
          (transitionsInto resource.initialLayout use.pass none (neededUses g resource)) := by
  constructor
  · intro hAll
    have hAt : ∀ use ∈ neededUses g resource, ∃ before after,
        out.executionOrder = before ++ use.pass :: after := fun use hUse =>
      List.append_of_mem ((mem_executionOrder_iff hOk).mpr (needed_of_mem hUse))
    have hSingle : ∀ use ∈ neededUses g resource, ∀ other ∈ neededUses g resource,
        other.pass = use.pass → other.access.layout = use.access.layout := by
      intro use hUse other hOther hSame
      obtain ⟨before, after, hSplit⟩ := hAt use hUse
      exact (hAll before _ after hSplit use hUse rfl).1 other hOther hSame
    refine ⟨hSingle, fun use hUse current hCurrent => ?_⟩
    obtain ⟨before, after, hSplit⟩ := hAt use hUse
    have hEnters := (hAll before _ after hSplit use hUse rfl).2
    rw [oldLayoutsBefore_imageBarriersOf hOk hMem r (pass_ne_invalid hMem hUse)] at hEnters
    rw [leftIn_needed_unique hOk hSingle hCurrent (leftIn_before hOk start hSplit)]
    exact hEnters
  · rintro ⟨hSingle, hEnters⟩ before p after hSplit use hUse rfl
    refine ⟨hSingle use hUse, ?_⟩
    rw [oldLayoutsBefore_imageBarriersOf hOk hMem r (pass_ne_invalid hMem hUse)]
    exact hEnters use hUse _ (leftIn_before hOk start hSplit)

omit hOk hMem in
/-- The transition of a presented image finds the layout it starts from. -/
theorem runEvents_present_iff {events : List LayoutEvent} {start : ImageLayout} {b : ImageBarrier}
    (hNew : b.newLayout = .presentSrc) {presented : Bool} :
    (∃ final, runEvents layoutStep start
        (events ++ if presented then [.barrier b] else []) = some final ∧
        (presented = true → final = .presentSrc)) ↔
      ∃ mid, runEvents layoutStep start events = some mid ∧
        (presented = true → b.oldLayout = mid) := by
  rcases presented with - | -
  · simp
  · simp only [if_true, runEvents_append_eq_some, runEvents_cons_eq_some,
      layoutStep_barrier_eq_some, forall_const]
    constructor
    · rintro ⟨final, ⟨mid, hRun, -, ⟨hOld, -⟩, -⟩, -⟩
      exact ⟨mid, hRun, hOld⟩
    · rintro ⟨mid, hRun, hOld⟩
      exact ⟨.presentSrc, ⟨mid, hRun, .presentSrc, ⟨hOld, hNew⟩, rfl⟩, rfl⟩

/-- The run of one image gets through exactly when its layouts agree. -/
theorem runEvents_image_iff {r : ResourceId} (hr : g.resources[r]? = some resource) :
    (∃ final, runEvents layoutStep resource.initialLayout
        ((frameEvents g out).filter fun e => e.image = r) = some final ∧
        (resource.presented = true → final = .presentSrc)) ↔
      LayoutsAgree g resource := by
  have hValid : ∀ p ∈ out.executionOrder, p ≠ INVALID_PASS := by
    intro p hp
    exact g.pass_ne_invalid ((mem_executionOrder_iff hOk).mp hp).lt
  have hStart : ScanAt resource.initialLayout none
      { currentLayout := resource.initialLayout } := ⟨rfl, rfl, fun _ h => nomatch h⟩
  have hCurrent := ScanAt.currentLayout_fold (r := r) (neededUses g resource) hStart
  rw [Option.or_none] at hCurrent
  have hOld : (ImageScan.present r ((neededUses g resource).foldl (ImageScan.use r)
      { currentLayout := resource.initialLayout })).oldLayout =
      declaredLayout resource.initialLayout (neededUses g resource).getLast? := hCurrent
  have hRun := fun mid => @runEvents_executed_iff r _ _ (newLayout_imageBarriersOf hOk hMem r)
    out.executionOrder resource.initialLayout mid hValid
  rw [filter_frameEvents hOk hr, barriersBefore_invalid hOk hMem, runEvents_present_iff rfl, hOld]
  simp only [hRun, passAgrees_iff hOk hMem]
  constructor
  · rintro ⟨mid, ⟨⟨hSingle, hEnters⟩, rfl⟩, hPresents⟩
    refine ⟨hSingle, hEnters, fun hPresented current hLast => ?_⟩
    rw [hPresents hPresented]
    exact leftIn_needed_unique hOk hSingle (leftIn_executed hOk) hLast
  · intro hAgree
    exact ⟨_, ⟨⟨hAgree.single, hAgree.enters⟩, rfl⟩,
      fun hPresented => hAgree.presents hPresented _ (leftIn_executed hOk)⟩

end Chain

/-- The layout in which an image is registered. -/
theorem initialLayouts_eq {g : Graph} {r : ResourceId} {resource : Resource}
    (hr : g.resources[r]? = some resource) : initialLayouts g r = resource.initialLayout := by
  rw [initialLayouts, hr]
  rfl

/-- The runs of the images make up the run of the frame. -/
theorem layoutsChain_of_agree {g : Graph} {out : CompileResult} (hOk : compile g = .ok out)
    (hAgree : ∀ resource ∈ g.resources, LayoutsAgree g resource) : LayoutsChain g out := by
  have hEach : ∀ r, ∃ final, runEvents layoutStep (initialLayouts g r)
      ((frameEvents g out).filter fun e => e.image = r) = some final ∧
      ∀ resource, g.resources[r]? = some resource → resource.presented = true →
        final = .presentSrc := by
    intro r
    rcases hr : g.resources[r]? with - | resource
    · rw [filter_frameEvents_none hOk hr]
      exact ⟨_, rfl, fun _ hSome => nomatch hSome⟩
    · have hMem := List.mem_of_getElem? hr
      obtain ⟨final, hRun, hPresented⟩ := (runEvents_image_iff hOk hMem hr).mpr (hAgree resource hMem)
      rw [initialLayouts_eq hr]
      refine ⟨final, hRun, fun other hOther => ?_⟩
      rw [← Option.some.inj hOther]
      exact hPresented
  choose final hFinal hPresented using hEach
  exact ⟨final, runEvents_stepAt_eq_some.mpr hFinal, hPresented⟩

/-- A compiled graph is executed with matching layouts exactly when the layouts of every
image agree between declaration and execution. -/
theorem layoutsChain_iff_agree {g : Graph} {out : CompileResult} (hOk : compile g = .ok out) :
    LayoutsChain g out ↔ ∀ resource ∈ g.resources, LayoutsAgree g resource := by
  constructor
  · rintro ⟨final, hRun, hPresented⟩ resource hMem
    obtain ⟨r, hr⟩ := List.mem_iff_getElem?.mp hMem
    refine (runEvents_image_iff hOk hMem hr).mp ⟨final r, ?_, hPresented r resource hr⟩
    rw [← initialLayouts_eq hr]
    exact runEvents_stepAt_eq_some.mp hRun r
  · intro hAgree
    exact layoutsChain_of_agree hOk hAgree

/-- A texture drawn into by the first pass, read by the second, and presented. -/
def presentGraph : Graph :=
  let (g, texture) := Graph.empty.addImage "backbuffer" .undefined
  let (g, draw) := g.addPass "draw" .graphics
  let (g, sample) := g.addPass "sample" .graphics
  let (g, _) := g.passWritesImage draw texture .colorAttachment
  let (g, _) := g.passReadsImage sample texture .shaderRead
  let (g, _) := g.markPresented texture
  g

/-- A graph whose layouts agree. -/
theorem layoutsChain_presentGraph : ∃ out, compile presentGraph = .ok out ∧
    LayoutsChain presentGraph out ∧ ∀ resource ∈ presentGraph.resources,
      LayoutsAgree presentGraph resource := by
  have hOk : compile presentGraph = .ok (assemble presentGraph [0, 1]) := rfl
  have hChain : LayoutsChain presentGraph (assemble presentGraph [0, 1]) := by
    refine ⟨_, rfl, fun r resource hr _ => ?_⟩
    rcases r with - | r
    · rfl
    · exact nomatch hr
  exact ⟨_, hOk, hChain, (layoutsChain_iff_agree hOk).mp hChain⟩

/-- A texture that is sampled by the second pass and then copied by the first. -/
def copyGraph : Graph :=
  let (g, texture) := Graph.empty.addImage "texture" .shaderReadOnlyOptimal
  let (g, copy) := g.addPass "copy" .graphics
  let (g, sample) := g.addPass "sample" .graphics
  let (g, _) := g.passReadsImage sample texture .shaderRead
  let (g, _) := g.passReadsImage copy texture .transferRead
  g

/-- Two reads have no edge, so the copy is executed first, and the pass that samples the
texture has no barrier back to the layout it needs. -/
theorem not_layoutsChain_copyGraph : ∃ out, compile copyGraph = .ok out ∧
    ¬LayoutsChain copyGraph out := by
  refine ⟨assemble copyGraph [0, 1], rfl, ?_⟩
  rintro ⟨final, hRun, -⟩
  have hNone : runEvents (stepAt LayoutEvent.image layoutStep) (initialLayouts copyGraph)
      (frameEvents copyGraph (assemble copyGraph [0, 1])) = none := rfl
  exact nomatch hNone.symm.trans hRun

end Ithax.RenderGraph
