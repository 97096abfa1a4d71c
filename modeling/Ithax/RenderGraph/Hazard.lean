import Ithax.RenderGraph.Order

/-!
# Hazards

Two uses of a resource of which one writes must be executed in the order in which
they are declared. The edges of `orderingEdges` give this as long as no two reads
are neighbours between the two uses: where they are, the chain of edges is cut, and
only other resources and the pass ids decide.
-/

namespace Ithax.RenderGraph

open Ithax.Lib

/-- `u` is declared before `v` with `between` in between, by another pass, and one of
the two writes. -/
structure Hazard (resource : Resource) (u : UseMark) (between : List UseMark) (v : UseMark) :
    Prop where
  declared : (u :: between ++ [v]) <:+: resource.uses
  passes : u.pass ≠ v.pass
  writes : ¬(u.isRead ∧ v.isRead)

/-- Hazards between executed passes are executed in the order of declaration. -/
def HazardsOrdered (g : Graph) (out : CompileResult) : Prop :=
  ∀ resource ∈ g.resources, ∀ u between v, Hazard resource u between v →
    out.survives u.pass = true → out.survives v.pass = true →
    out.orderIndex u.pass < out.orderIndex v.pass

/-- No two neighbours are both reads. -/
def Linked (uses : List UseMark) : Prop := uses.IsChain fun u v => ¬(u.isRead ∧ v.isRead)

/-- Where neighbouring reads stand between the two uses of a hazard, the declarations
order the two passes all the same. -/
def HazardsCovered (g : Graph) : Prop :=
  ∀ resource ∈ g.resources, ∀ u between v, Hazard resource u between v →
    Needed g u.pass → Needed g v.pass → ¬Linked (u :: between ++ [v]) →
    RunsFirst g u.pass v.pass

/-- Linked uses are joined by a chain of edges. -/
theorem trans_of_linked {g : Graph} {resource : Resource} (hMem : resource ∈ g.resources)
    {v : UseMark} : ∀ (between : List UseMark) (u : UseMark),
    (u :: between ++ [v]) <:+: resource.uses → Linked (u :: between ++ [v]) →
    Relation.TransGen (LeadsTo g) u.pass v.pass
  | [], u, ⟨before, after, hSplit⟩, hLinked => by
    obtain ⟨hHazard, -⟩ := List.isChain_cons_cons.mp hLinked
    have hPair : resource.uses = before ++ u :: v :: after := by
      rw [← hSplit]
      simp
    exact .single (leadsTo_of_neighbours hMem hPair hHazard)
  | w :: between, u, ⟨before, after, hSplit⟩, hLinked => by
    obtain ⟨hHazard, hRest⟩ := List.isChain_cons_cons.mp hLinked
    have hPair : resource.uses = before ++ u :: w :: (between ++ v :: after) := by
      rw [← hSplit]
      simp
    have hInfix : (w :: between ++ [v]) <:+: resource.uses := by
      refine ⟨before ++ [u], after, ?_⟩
      rw [← hSplit]
      simp
    exact .head (leadsTo_of_neighbours hMem hPair hHazard)
      (trans_of_linked hMem between w hInfix hRest)

/-- Linked uses are ordered along the chain of edges between them. -/
theorem reach_of_linked {g : Graph} {resource : Resource} (hMem : resource ∈ g.resources)
    {v : UseMark} (between : List UseMark) (u : UseMark)
    (hDeclared : (u :: between ++ [v]) <:+: resource.uses)
    (hLinked : Linked (u :: between ++ [v])) :
    Relation.ReflTransGen (LeadsTo g) u.pass v.pass :=
  (trans_of_linked hMem between u hDeclared hLinked).to_reflTransGen

/-- A chain of edges between two passes puts the first of them first. -/
theorem Accepted.runsFirst_of_reach {g : Graph} (h : Accepted g) {a b : PassId}
    (ha : a < g.passes.length) (hb : b < g.passes.length) (hne : a ≠ b)
    (hReach : Relation.ReflTransGen (LeadsTo g) a b) : RunsFirst g a b := by
  rw [h.runsFirst_iff ha hb]
  refine Nat.lt_of_le_of_ne (h.leastFirst.reach_le hb hReach) fun hEq => ?_
  exact hne (h.leastFirst.eq_of_idxOf_eq ha hEq)

/-- The hazards of a compiled graph are ordered exactly when those that the edges of
their own resource leave open are ordered by the rest of the declarations. -/
theorem hazardsOrdered_iff_covered {g : Graph} {out : CompileResult}
    (hOk : compile g = .ok out) : HazardsOrdered g out ↔ HazardsCovered g := by
  constructor
  · intro hOrdered resource hMem u between v hHazard hu hv _
    have hSurvives := fun p => @survives_iff_needed g out hOk p
    have hIndex := hOrdered resource hMem u between v hHazard
      ((hSurvives _).mpr hu) ((hSurvives _).mpr hv)
    exact (orderIndex_lt_iff_runsFirst hOk hu hv).mp hIndex
  · intro hCovered resource hMem u between v hHazard hSurvivesU hSurvivesV
    have hu := (survives_iff_needed hOk).mp hSurvivesU
    have hv := (survives_iff_needed hOk).mp hSurvivesV
    rw [orderIndex_lt_iff_runsFirst hOk hu hv]
    by_cases hLinked : Linked (u :: between ++ [v])
    · have hReach := reach_of_linked hMem between u hHazard.declared hLinked
      exact (accepted_of_compile hOk).runsFirst_of_reach hu.lt hv.lt hHazard.passes hReach
    · exact hCovered resource hMem u between v hHazard hu hv hLinked

/-- Three passes: a buffer is written by one and then read by two others. -/
def uploadGraph (writer reader lateReader : PassId) : Graph :=
  let (g, buffer) := Graph.empty.addBuffer "vertexData"
  let (g, _) := g.addPass "first" .graphics
  let (g, _) := g.addPass "second" .graphics
  let (g, _) := g.addPass "third" .graphics
  let (g, _) := g.passWritesBuffer writer buffer .transferWrite
  let (g, _) := g.passReadsBuffer reader buffer .vertexRead
  let (g, _) := g.passReadsBuffer lateReader buffer .vertexRead
  g

/-- With the writer declared first, both readers wait for it. -/
theorem hazardsOrdered_uploadGraph : ∃ out, compile (uploadGraph 0 1 2) = .ok out ∧
    HazardsCovered (uploadGraph 0 1 2) ∧ HazardsOrdered (uploadGraph 0 1 2) out := by
  refine ⟨assemble _ [0, 1, 2], rfl, ?_⟩
  have hOrdered : HazardsOrdered (uploadGraph 0 1 2) (assemble (uploadGraph 0 1 2) [0, 1, 2]) := by
    intro resource hMem u between v hHazard _ _
    have hUses : resource.uses = [⟨0, false⟩, ⟨1, true⟩, ⟨2, true⟩] := by
      rw [List.mem_singleton.mp hMem]
      rfl
    have hSub : [u, v].Sublist [⟨0, false⟩, ⟨1, true⟩, ⟨2, true⟩] := by
      rw [← hUses]
      refine List.Sublist.trans ?_ hHazard.declared.sublist
      simp
    have hu : u ∈ [(⟨0, false⟩ : UseMark), ⟨1, true⟩, ⟨2, true⟩] := hSub.subset (by simp)
    have hv : v ∈ [(⟨0, false⟩ : UseMark), ⟨1, true⟩, ⟨2, true⟩] := hSub.subset (by simp)
    have hWrites := hHazard.writes
    have hPasses := hHazard.passes
    clear hHazard hUses
    simp only [List.mem_cons, List.not_mem_nil, or_false] at hu hv
    rcases hu with rfl | rfl | rfl <;> rcases hv with rfl | rfl | rfl <;>
      revert hSub hWrites hPasses <;> decide
  exact ⟨(hazardsOrdered_iff_covered rfl).mp hOrdered, hOrdered⟩

/-- The second reader of the buffer has no edge from the writer: with the lowest id it
is executed before the write it is declared after. -/
theorem not_hazardsOrdered_uploadGraph : ∃ out, compile (uploadGraph 1 2 0) = .ok out ∧
    ¬HazardsOrdered (uploadGraph 1 2 0) out := by
  refine ⟨assemble _ [0, 1, 2], rfl, fun hOrdered => ?_⟩
  have hHazard : Hazard ((uploadGraph 1 2 0).resources.head (by decide)) ⟨1, false⟩ [⟨2, true⟩]
      ⟨0, true⟩ := ⟨List.infix_refl _, by decide, by decide⟩
  have hIndex := hOrdered _ (List.head_mem _) _ _ _ hHazard rfl rfl
  revert hIndex
  decide

end Ithax.RenderGraph
