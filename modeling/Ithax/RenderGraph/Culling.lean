import Ithax.RenderGraph.Hazard

/-!
# Culling

A cullable pass is kept for what it presents and for what a surviving pass reads of it. The
sweep goes once from the last pass of the execution order to the first, so the readers it
looks at are those that come later: a reader that comes first has seen nothing of what the
pass writes.

## Results

* `survives_iff`       — the sweep has reached its fixed point.
* `culling_inOrder`    — what is culled and what is kept, along the execution order.
-/

namespace Ithax.RenderGraph

/-- The culling of a graph when the order of execution is left out of account. -/
structure CullingSound (g : Graph) (out : CompileResult) : Prop where
  /-- What is written for a surviving reader is not culled. -/
  reads : ∀ resource ∈ g.resources, ∀ write read, [write, read].Sublist resource.uses →
    write.isRead = false → read.isRead = true → write.pass ≠ read.pass →
    out.survives read.pass = true → out.survives write.pass = true
  presents : ∀ resource ∈ g.resources, resource.presented = true → ∀ write ∈ resource.uses,
    write.isRead = false → out.survives write.pass = true
  cullable : ∀ p pass, g.passes[p]? = some pass → out.survives p = false → pass.cullable = true
  /-- What a culled pass writes is neither presented nor read by a surviving pass. -/
  unread : ∀ resource ∈ g.resources, ∀ write ∈ resource.uses, write.isRead = false →
    out.survives write.pass = false → resource.presented = false ∧
      ∀ read ∈ resource.uses, read.isRead = true → out.survives read.pass = false

/-- The culling of a graph along the order in which edges and ids put the passes. -/
structure CullingInOrder (g : Graph) (out : CompileResult) : Prop where
  /-- What is written before a surviving reader is not culled. -/
  reads : ∀ resource ∈ g.resources, ∀ write ∈ resource.uses, ∀ read ∈ resource.uses,
    write.isRead = false → read.isRead = true → RunsFirst g write.pass read.pass →
    out.survives read.pass = true → out.survives write.pass = true
  /-- Nor what is declared before it, with no two neighbouring reads from the write to the
  read. -/
  linked : ∀ resource ∈ g.resources, ∀ write between read,
    (write :: between ++ [read]) <:+: resource.uses → Linked (write :: between ++ [read]) →
    write.isRead = false → read.isRead = true → write.pass ≠ read.pass →
    out.survives read.pass = true → out.survives write.pass = true
  presents : ∀ resource ∈ g.resources, resource.presented = true → ∀ write ∈ resource.uses,
    write.isRead = false → out.survives write.pass = true
  cullable : ∀ p pass, g.passes[p]? = some pass → out.survives p = false → pass.cullable = true
  /-- What a culled pass writes is not presented, and its surviving readers come first. -/
  unread : ∀ resource ∈ g.resources, ∀ write ∈ resource.uses, write.isRead = false →
    out.survives write.pass = false → resource.presented = false ∧
      ∀ read ∈ resource.uses, read.isRead = true → out.survives read.pass = true →
        RunsFirst g read.pass write.pass

/-- What keeps a pass, given the survivors. -/
inductive Reason (g : Graph) (out : CompileResult) (p : PassId) : Prop where
  | kept {pass : Pass} (hPass : g.passes[p]? = some pass) (hKept : pass.cullable = false)
  | presents {resource : Resource} (hMem : resource ∈ g.resources)
      (hWrites : writesPresented resource p = true)
  | feeds {resource : Resource} {write read : UseMark} (hMem : resource ∈ g.resources)
      (hWrite : write ∈ resource.uses) (hPass : write.pass = p) (hWrites : write.isRead = false)
      (hRead : read ∈ resource.uses) (hReads : read.isRead = true)
      (hFirst : RunsFirst g p read.pass) (hSurvives : out.survives read.pass = true)

/-- A written image that is presented is written by a pass with a reason. -/
theorem writesPresented_of_mem {n : Nat} {resource : Resource} (hDeclared : resource.Declared n)
    (hPresented : resource.presented = true) {write : UseMark} (hWrite : write ∈ resource.uses)
    (hWrites : write.isRead = false) : writesPresented resource write.pass = true := by
  have hImage := hDeclared.isImage hPresented
  rw [Resource.uses, if_pos hImage] at hWrite
  obtain ⟨use, hUse, rfl⟩ := List.mem_map.mp hWrite
  have hUseWrites : use.isRead = false := hWrites
  simp only [writesPresented, hPresented, hImage, Bool.and_self, Bool.true_and, List.any_eq_true,
    Bool.and_eq_true, beq_iff_eq]
  exact ⟨use, hUse, by rw [hUseWrites]; rfl, rfl⟩

section Compiled

variable {g : Graph} {out : CompileResult} (hOk : compile g = .ok out)

include hOk

/-- One more sweep would change nothing. -/
theorem survives_iff {p : PassId} : out.survives p = true ↔ Reason g out p := by
  rw [survives_iff_needed hOk]
  constructor
  · intro hNeeded
    cases hNeeded with
    | kept hPass hKept => exact .kept hPass hKept
    | presents hMem hWrites => exact .presents hMem hWrites
    | feeds hMem hWrite hWrites hRead hReads hFirst hNeeded =>
      exact .feeds hMem hWrite rfl hWrites hRead hReads hFirst ((survives_iff_needed hOk).mpr hNeeded)
  · intro hReason
    cases hReason with
    | kept hPass hKept => exact .kept hPass hKept
    | presents hMem hWrites => exact .presents hMem hWrites
    | feeds hMem hWrite hPass hWrites hRead hReads hFirst hSurvives =>
      rw [← hPass] at hFirst ⊢
      exact .feeds hMem hWrite hWrites hRead hReads hFirst ((survives_iff_needed hOk).mp hSurvives)

theorem lt_of_survives {p : PassId} (h : out.survives p = true) : p < g.passes.length :=
  ((survives_iff_needed hOk).mp h).lt

/-- Of two passes, one runs first. -/
theorem runsFirst_total {a b : PassId} (ha : a < g.passes.length) (hb : b < g.passes.length)
    (hne : a ≠ b) : RunsFirst g a b ∨ RunsFirst g b a := by
  have hAccepted := accepted_of_compile hOk
  rw [hAccepted.runsFirst_iff ha hb, hAccepted.runsFirst_iff hb ha]
  have hIndex : (topologicalOrder g).idxOf a ≠ (topologicalOrder g).idxOf b :=
    fun hEq => hne (hAccepted.leastFirst.eq_of_idxOf_eq ha hEq)
  omega

/-- In every graph that is compiled, culling follows the order of execution. -/
theorem culling_inOrder : CullingInOrder g out := by
  have hReads : ∀ resource ∈ g.resources, ∀ write ∈ resource.uses, ∀ read ∈ resource.uses,
      write.isRead = false → read.isRead = true → RunsFirst g write.pass read.pass →
      out.survives read.pass = true → out.survives write.pass = true := by
    intro resource hMem write hWrite read hRead hWrites hReads hFirst hSurvives
    exact (survives_iff hOk).mpr (.feeds hMem hWrite rfl hWrites hRead hReads hFirst hSurvives)
  have hPresents : ∀ resource ∈ g.resources, resource.presented = true →
      ∀ write ∈ resource.uses, write.isRead = false → out.survives write.pass = true := by
    intro resource hMem hPresented write hWrite hWrites
    have hDeclared := g.declared resource hMem
    exact (survives_iff hOk).mpr
      (.presents hMem (writesPresented_of_mem hDeclared hPresented hWrite hWrites))
  refine ⟨hReads, ?_, hPresents, ?_, ?_⟩
  · intro resource hMem write between read hInfix hLinked hWrites hIsRead hne hSurvives
    have hWrite : write ∈ resource.uses := hInfix.subset (by simp)
    have hRead : read ∈ resource.uses := hInfix.subset (by simp)
    have hReach := reach_of_linked hMem between write hInfix hLinked
    have hFirst := (accepted_of_compile hOk).runsFirst_of_reach
      ((g.declared resource hMem).pass_lt hWrite) (lt_of_survives hOk hSurvives) hne hReach
    exact hReads resource hMem write hWrite read hRead hWrites hIsRead hFirst hSurvives
  · intro p pass hPass hCulled
    by_contra hKept
    have hSurvives := (survives_iff hOk).mpr (.kept hPass (Bool.eq_false_iff.mpr hKept))
    exact Bool.false_ne_true (hCulled.symm.trans hSurvives)
  · intro resource hMem write hWrite hWrites hCulled
    constructor
    · by_contra hPresented
      have hSurvives := hPresents resource hMem (Bool.not_eq_false _ ▸ hPresented) write hWrite hWrites
      exact Bool.false_ne_true (hCulled.symm.trans hSurvives)
    · intro read hRead hIsRead hSurvives
      have hne : read.pass ≠ write.pass := by
        intro hEq
        rw [hEq] at hSurvives
        exact Bool.false_ne_true (hCulled.symm.trans hSurvives)
      have hWriter := (g.declared resource hMem).pass_lt hWrite
      rcases runsFirst_total hOk (lt_of_survives hOk hSurvives) hWriter hne with hFirst | hLater
      · exact hFirst
      · have hKept := hReads resource hMem write hWrite read hRead hWrites hIsRead hLater hSurvives
        exact absurd (hCulled.symm.trans hKept) Bool.false_ne_true

end Compiled

theorem culling_inOrder_uploadGraph :
    ∃ out, compile (uploadGraph 0 1 2) = .ok out ∧ CullingInOrder (uploadGraph 0 1 2) out :=
  ⟨assemble _ [0, 1, 2], rfl, culling_inOrder rfl⟩

-- Two neighbouring reads cut the chain to the late reader, which is executed first: the write
-- declared before its read is dropped with the pass that no one needs in between.
example : (compile (((uploadGraph 1 2 0).markPassCullable 1).markPassCullable 2)).toOption.map
    (fun out => (out.survives 0, out.survives 1, out.survives 2)) = some (true, false, false) :=
  rfl

/-- A buffer that is drawn from and then refilled, for no one, by a pass that may be dropped. -/
def refillGraph : Graph :=
  let (g, buffer) := Graph.empty.addBuffer "vertexData"
  let (g, draw) := g.addPass "draw" .graphics
  let (g, refill) := g.addPass "refill" .graphics
  let (g, _) := g.passReadsBuffer draw buffer .vertexRead
  let (g, _) := g.passWritesBuffer refill buffer .transferWrite
  g.markPassCullable refill

/-- The refill is dropped, although a surviving pass reads the buffer: it reads it first. -/
theorem not_cullingSound_refillGraph :
    ∃ out, compile refillGraph = .ok out ∧ ¬CullingSound refillGraph out := by
  refine ⟨assemble refillGraph [0, 1], rfl, fun hSound => ?_⟩
  have hUnread := hSound.unread (refillGraph.resources.head (by decide)) (List.head_mem _)
    ⟨1, false⟩ (by decide) rfl rfl
  have hDropped := hUnread.2 ⟨0, true⟩ (by decide) rfl
  exact Bool.false_ne_true (hDropped.symm.trans rfl)

end Ithax.RenderGraph
