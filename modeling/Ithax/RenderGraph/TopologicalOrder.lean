import Ithax.RenderGraph.Hazard
import Mathlib.Data.Set.Function

/-!
# The order of the passes

What the sort does with declarations that pass the checks before it. A circle of ordering
edges, in which an edge may be declared any number of times, is the one thing it reports;
without one, the order is the smallest by the pass ids in which every edge leads forward, and
the passes that are executed are numbered along it.

## Results

* `topologicalOrder_complete_iff` — the sort gets through when there is no circle.
* `leastTopological`              — the order that it finds.
* `indicesFollow`                 — the numbers of the executed passes.
* `compile_topological`           — all of this about `compile`.
-/

namespace Ithax.RenderGraph

open Ithax.Lib

-- ---------------------------------------------------------------------------
-- What is said of the order
-- ---------------------------------------------------------------------------

/-- The declarations pass every check that comes before the sort. -/
structure Checked (g : Graph) : Prop where
  passes : g.passes ≠ []
  resources : g.resources ≠ []
  validated : ∀ resource ∈ g.resources, validateResource resource = .ok ()
  noSelfEdge : ∀ edge ∈ orderingEdges g, edge.1 ≠ edge.2

/-- The ordering edges lead in a circle. -/
def Cyclic (g : Graph) : Prop := ∃ p, Relation.TransGen (LeadsTo g) p p

/-- Every ordering edge leads forward. -/
def Respects (g : Graph) (order : List PassId) : Prop :=
  ∀ a b, LeadsTo g a b → order.idxOf a < order.idxOf b

/-- The smallest list of all passes in which every edge leads forward. -/
structure LeastTopological (g : Graph) (order : List PassId) : Prop where
  perm : order.Perm (List.range g.passes.length)
  respects : Respects g order
  least : ∀ other, other.Perm (List.range g.passes.length) → Respects g other → order ≤ other

/-- The passes that are executed are numbered from zero along the order. -/
structure IndicesFollow (g : Graph) (order : List PassId) (out : CompileResult) : Prop where
  entries : out.passes.map CompiledPass.passId = List.range g.passes.length
  bijective : Set.BijOn out.orderIndex {p | out.survives p = true}
    (Set.Iio (out.passes.countP fun pass => !pass.culled))
  follow : ∀ a b, out.survives a = true → out.survives b = true →
    (out.orderIndex a < out.orderIndex b ↔ order.idxOf a < order.idxOf b)
  culled : ∀ pass ∈ out.passes, pass.culled = true → pass.orderIndex = UINT32_MAX

-- ---------------------------------------------------------------------------
-- The sort
-- ---------------------------------------------------------------------------

/-- Both ends of an edge are passes of the graph. -/
theorem LeadsTo.source_lt {g : Graph} {a b : PassId} (h : LeadsTo g a b) :
    a < g.passes.length := by
  obtain ⟨resource, hMem, hEdge⟩ := List.mem_flatMap.mp h
  obtain ⟨before, u, v, after, hSplit, -, hPair⟩ := mem_useEdges_iff.mp hEdge
  obtain ⟨rfl, -⟩ := Prod.mk.inj hPair
  refine (g.declared resource hMem).pass_lt ?_
  rw [hSplit]
  simp

/-- The order is complete when the edges have no cycle. -/
theorem topologicalOrder_complete_iff (g : Graph) :
    (topologicalOrder g).length = g.passes.length ↔ ¬Cyclic g := by
  have hEdges : ∀ edge ∈ orderingEdges g,
      edge.1 < g.passes.length ∧ edge.2 < g.passes.length := by
    rintro ⟨a, b⟩ hEdge
    exact ⟨LeadsTo.source_lt hEdge, LeadsTo.lt hEdge⟩
  rw [topologicalOrder, kahn_complete_iff hEdges]
  exact not_exists.symm

/-- After the checks, the sort alone decides. -/
theorem Checked.compile_eq {g : Graph} (h : Checked g) :
    compile g = if (topologicalOrder g).length = g.passes.length then
      .ok (assemble g (topologicalOrder g)) else .error "render graph contains a cycle" := by
  unfold compile
  have hValid := forM_eq_ok_iff.mpr h.validated
  have hSelf := checkSelfEdges_eq_ok_iff.mpr h.noSelfEdge
  by_cases hOrder : (topologicalOrder g).length = g.passes.length
  · simp [h.passes, h.resources, hValid, hSelf, hOrder, bind, Except.bind, pure, Except.pure]
  · simp [h.passes, h.resources, hValid, hSelf, hOrder, throw, throwThe, MonadExceptOf.throw,
      bind, Except.bind]

/-- What passes the checks and has no cycle is accepted. -/
theorem Checked.accepted {g : Graph} (h : Checked g) (hAcyclic : ¬Cyclic g) : Accepted g :=
  ⟨h.passes, h.resources, h.validated, h.noSelfEdge,
    (topologicalOrder_complete_iff g).mpr hAcyclic⟩

/-- What comes before a pass contains all that leads to it. -/
theorem Respects.ready {g : Graph} {order : List PassId} (h : Respects g order)
    (hNodup : order.Nodup) {before after : List PassId} {p : PassId}
    (hSplit : order = before ++ p :: after) {a : PassId} (hEdge : LeadsTo g a p) : a ∈ before :=
  (idxOf_lt_iff_mem_before hNodup hSplit).mp (h a p hEdge)

/-- The order of an accepted graph is the least of the topological ones. -/
theorem Accepted.leastTopological {g : Graph} (h : Accepted g) :
    LeastTopological g (topologicalOrder g) := by
  have hPerm : (topologicalOrder g).Perm (List.range g.passes.length) := by
    refine (List.perm_ext_iff_of_nodup h.nodup List.nodup_range).mpr fun p => ?_
    rw [h.mem_iff, List.mem_range]
  refine ⟨hPerm, fun a b hEdge => h.leastFirst.edge_lt hEdge.lt hEdge, ?_⟩
  intro other hOther hRespects
  have hNodup : other.Nodup := hOther.nodup_iff.mpr List.nodup_range
  refine h.leastFirst.lex_le (hOther.trans hPerm.symm) ?_
  intro before p after hSplit a hEdge
  exact hRespects.ready hNodup hSplit hEdge

-- ---------------------------------------------------------------------------
-- The numbers
-- ---------------------------------------------------------------------------

section Compiled

variable {g : Graph} {out : CompileResult} (hOk : compile g = .ok out)

include hOk

/-- What survives is in the execution order. -/
theorem survives_iff_mem_executionOrder {p : PassId} :
    out.survives p = true ↔ p ∈ out.executionOrder := by
  have hAccepted := accepted_of_compile hOk
  rw [executionOrder_eq hOk, List.mem_filter, survives_iff_needed hOk,
    hAccepted.survivors_iff_needed, hAccepted.mem_iff]
  exact ⟨fun hNeeded => ⟨hNeeded.lt, hNeeded⟩, And.right⟩

/-- The index of a pass is its place in the execution order. -/
theorem orderIndex_eq_idxOf {p : PassId} (hSurvives : out.survives p = true) :
    out.orderIndex p = out.executionOrder.idxOf p := by
  rw [executionOrder_eq hOk]
  exact orderIndex_of_needed hOk ((survives_iff_needed hOk).mp hSurvives)

/-- No pass is executed twice. -/
theorem nodup_executionOrder : out.executionOrder.Nodup := by
  rw [executionOrder_eq hOk]
  exact (accepted_of_compile hOk).nodup.filter _

omit hOk in
/-- The execution order has as many passes as are not culled. -/
theorem length_executionOrder (out : CompileResult) :
    out.executionOrder.length = out.passes.countP fun pass => !pass.culled := by
  rw [CompileResult.executionOrder, List.length_map, List.length_insertionSort,
    List.countP_eq_length_filter]

/-- The numbers of the executed passes are their places in the execution. -/
theorem bijOn_orderIndex : Set.BijOn out.orderIndex {p | out.survives p = true}
    (Set.Iio (out.passes.countP fun pass => !pass.culled)) := by
  rw [← length_executionOrder]
  refine ⟨fun p hp => ?_, fun p hp q hq hSame => ?_, fun i hi => ?_⟩
  · rw [Set.mem_Iio, orderIndex_eq_idxOf hOk hp]
    exact List.idxOf_lt_length_iff.mpr ((survives_iff_mem_executionOrder hOk).mp hp)
  · rw [orderIndex_eq_idxOf hOk hp, orderIndex_eq_idxOf hOk hq] at hSame
    exact (List.idxOf_inj ((survives_iff_mem_executionOrder hOk).mp hp)).mp hSame
  · have hLt : i < out.executionOrder.length := hi
    have hSurvives : out.survives out.executionOrder[i] = true :=
      (survives_iff_mem_executionOrder hOk).mpr (List.getElem_mem hLt)
    refine ⟨out.executionOrder[i], hSurvives, ?_⟩
    rw [orderIndex_eq_idxOf hOk hSurvives, (nodup_executionOrder hOk).idxOf_getElem]

/-- Compiled passes stand in the order of their ids. -/
theorem map_passId : out.passes.map CompiledPass.passId = List.range g.passes.length := by
  refine List.ext_getElem? fun p => ?_
  rw [List.getElem?_map]
  by_cases hp : p < g.passes.length
  · rw [passes_getElem hOk hp, List.getElem?_range hp]
    rfl
  · rw [List.getElem?_eq_none (passes_length hOk ▸ Nat.le_of_not_lt hp),
      List.getElem?_eq_none (by simpa using hp)]
    rfl

/-- A culled pass has no index. -/
theorem orderIndex_of_culled {pass : CompiledPass} (hMem : pass ∈ out.passes)
    (hCulled : pass.culled = true) : pass.orderIndex = UINT32_MAX := by
  obtain ⟨p, hp, rfl⟩ := List.mem_iff_getElem.mp hMem
  have hEntry := passes_getElem hOk (passes_length hOk ▸ hp)
  rw [List.getElem?_eq_getElem hp, Option.some_inj] at hEntry
  rw [hEntry] at hCulled ⊢
  simp only [compiledPass, Bool.not_eq_true'] at hCulled
  simp [compiledPass, hCulled]

/-- The indices follow the order. -/
theorem indicesFollow : IndicesFollow g (topologicalOrder g) out := by
  refine ⟨map_passId hOk, bijOn_orderIndex hOk, fun a b ha hb => ?_,
    fun pass hMem hCulled => orderIndex_of_culled hOk hMem hCulled⟩
  have hA := (survives_iff_needed hOk).mp ha
  have hB := (survives_iff_needed hOk).mp hb
  rw [orderIndex_lt_iff_runsFirst hOk hA hB]
  exact (accepted_of_compile hOk).runsFirst_iff hA.lt hB.lt

end Compiled

-- ---------------------------------------------------------------------------
-- The compiler
-- ---------------------------------------------------------------------------

/-- Declarations that pass the checks are refused for a circle of edges and for nothing else,
and are executed in the least order otherwise. -/
theorem compile_topological {g : Graph} (hChecked : Checked g) :
    (compile g = .error "render graph contains a cycle" ↔ Cyclic g) ∧
    (¬Cyclic g → LeastTopological g (topologicalOrder g) ∧
      ∃ out, compile g = .ok out ∧ IndicesFollow g (topologicalOrder g) out) := by
  constructor
  · rw [hChecked.compile_eq]
    by_cases hCyclic : Cyclic g
    · rw [if_neg fun hComplete => (topologicalOrder_complete_iff g).mp hComplete hCyclic]
      exact iff_of_true rfl hCyclic
    · rw [if_pos ((topologicalOrder_complete_iff g).mpr hCyclic)]
      exact iff_of_false (fun hError => nomatch hError) hCyclic
  · intro hAcyclic
    have hAccepted := hChecked.accepted hAcyclic
    have hOk := compile_eq_ok_iff.mpr ⟨hAccepted, rfl⟩
    exact ⟨hAccepted.leastTopological, _, hOk, indicesFollow hOk⟩

/-- Two passes that each read what the other writes. -/
def crossedGraph : Graph :=
  let (g, first) := Graph.empty.addImage "first" .undefined
  let (g, second) := g.addImage "second" .undefined
  let (g, a) := g.addPass "a" .graphics
  let (g, b) := g.addPass "b" .graphics
  let (g, _) := g.passWritesImage a first .transferWrite
  let (g, _) := g.passWritesImage b second .transferWrite
  let (g, _) := g.passReadsImage a second .shaderRead
  let (g, _) := g.passReadsImage b first .shaderRead
  g

/-- The one is in a circle, the other is executed in the order of its pass ids. -/
theorem compile_topological_graphs :
    Cyclic crossedGraph ∧ LeastTopological (uploadGraph 1 2 0) [0, 1, 2] ∧
    ∃ out, compile (uploadGraph 1 2 0) = .ok out ∧
      IndicesFollow (uploadGraph 1 2 0) [0, 1, 2] out := by
  have hCrossed : Checked crossedGraph := ⟨by decide, by decide, by decide, by decide⟩
  have hUpload : Checked (uploadGraph 1 2 0) := ⟨by decide, by decide, by decide, by decide⟩
  have hOrder : topologicalOrder (uploadGraph 1 2 0) = [0, 1, 2] := rfl
  have hAcyclic := (topologicalOrder_complete_iff (uploadGraph 1 2 0)).mp rfl
  exact ⟨(compile_topological hCrossed).1.mp rfl, hOrder ▸ (compile_topological hUpload).2 hAcyclic⟩

end Ithax.RenderGraph
