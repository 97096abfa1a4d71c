import Ithax.RenderGraph.PassOrder
import Ithax.RenderGraph.TopologicalOrder

/-!
# Passes that read and write one resource

The compiler refuses an edge from a pass to itself, and the sort refuses a circle of edges. A
pass that reads and writes one resource is caught by one of the two as long as the uses from
the read to the write are linked; two neighbouring reads between them cut the chain, and the
pass is accepted.

## Results

* `cyclic_of_linkedSelfHazard` — linked uses of one pass make a circle.
* `accepted_iff_not_refused`   — which graphs are accepted.
* `selfHazard_rejected_iff`    — when a pass that reads and writes one resource is refused.
-/

namespace Ithax.RenderGraph

/-- One pass reads and writes one resource. -/
def SelfHazard (g : Graph) : Prop :=
  ∃ resource ∈ g.resources, ∃ read ∈ resource.uses, ∃ write ∈ resource.uses,
    read.pass = write.pass ∧ read.isRead = true ∧ write.isRead = false

/-- A read and a write by one pass, in either order, have no two neighbouring reads from the
one to the other. -/
def LinkedSelfHazard (g : Graph) : Prop :=
  ∃ resource ∈ g.resources, ∃ u between v, (u :: between ++ [v]) <:+: resource.uses ∧
    u.pass = v.pass ∧ u.isRead ≠ v.isRead ∧ Linked (u :: between ++ [v])

/-- Passes read and write one resource, and on the way from each such read to the write, or
back, stand two neighbouring reads. -/
structure CutSelfHazards (g : Graph) : Prop where
  hazard : SelfHazard g
  cut : ¬LinkedSelfHazard g

/-- What else makes the compiler refuse a graph. -/
inductive RefusedOtherwise (g : Graph) : Prop where
  | cyclic (h : Cyclic g)
  | declarations (h : ¬MeetsChecks g)

/-- A pass that waits for itself is a cycle. -/
theorem cyclic_of_linkedSelfHazard {g : Graph} (h : LinkedSelfHazard g) : Cyclic g := by
  obtain ⟨resource, hMem, u, between, v, hDeclared, hPass, -, hLinked⟩ := h
  have hCircle := trans_of_linked hMem between u hDeclared hLinked
  rw [← hPass] at hCircle
  exact ⟨u.pass, hCircle⟩

/-- An accepted graph has no cycle. -/
theorem not_cyclic_of_accepted {g : Graph} (h : Accepted g) : ¬Cyclic g :=
  (topologicalOrder_complete_iff g).mp h.complete

/-- An edge from a pass to itself is the smallest circle. -/
theorem accepted_of_acyclic {g : Graph} (hChecks : MeetsChecks g) (hAcyclic : ¬Cyclic g) :
    Accepted g := by
  refine ⟨hChecks.passes, hChecks.resources, hChecks.validated, ?_,
    (topologicalOrder_complete_iff g).mpr hAcyclic⟩
  rintro ⟨a, b⟩ hEdge hSelf
  obtain rfl : a = b := hSelf
  exact hAcyclic ⟨a, .single hEdge⟩

/-- An accepted graph passes the checks. -/
theorem meetsChecks_of_accepted {g : Graph} (h : Accepted g) : MeetsChecks g := by
  refine ⟨h.passes, h.resources, ?_, ?_⟩
  · intro resource hMem hPresented hUnused
    have hImage := (g.declared resource hMem).isImage hPresented
    have hValid := h.validated resource hMem
    rw [validateResource, if_pos hImage, if_pos ⟨hPresented, hUnused⟩] at hValid
    cases hValid
  · intro resource hMem hUndefined use hFirst
    by_contra hRead
    have hImage : resource.isImage = true := by
      by_contra hBuffer
      have hNone := ((g.declared resource hMem).buffer (Bool.not_eq_true _ ▸ hBuffer)).1
      rw [hNone] at hFirst
      cases hFirst
    obtain ⟨rest, hUses⟩ : ∃ rest, resource.imageUses = use :: rest :=
      List.head?_eq_some_iff.mp hFirst
    have hValid := h.validated resource hMem
    rw [validateResource, if_pos hImage, hUses, if_neg fun hNone => by cases hNone.2] at hValid
    have hReads : use.isRead = true := Bool.not_eq_false _ ▸ hRead
    dsimp only at hValid
    rw [if_pos ⟨hUndefined, hReads⟩] at hValid
    cases hValid

/-- What is not accepted is refused for some other reason. -/
theorem accepted_iff_not_refused {g : Graph} : Accepted g ↔ ¬RefusedOtherwise g := by
  constructor
  · intro hAccepted hRefused
    cases hRefused with
    | cyclic hCyclic => exact not_cyclic_of_accepted hAccepted hCyclic
    | declarations hChecks => exact hChecks (meetsChecks_of_accepted hAccepted)
  · intro hOpen
    have hChecks : MeetsChecks g := by
      by_contra hChecks
      exact hOpen (.declarations hChecks)
    exact accepted_of_acyclic hChecks fun hCyclic => hOpen (.cyclic hCyclic)

/-- `Compile` throws exactly on the graphs that are not accepted. -/
theorem exists_error_iff {g : Graph} :
    (∃ message, compile g = .error message) ↔ ¬Accepted g := by
  cases hCompile : compile g with
  | error message =>
    refine iff_of_true ⟨message, rfl⟩ fun hAccepted => ?_
    have hOk := compile_eq_ok_iff.mpr ⟨hAccepted, rfl⟩
    rw [hCompile] at hOk
    cases hOk
  | ok out =>
    exact iff_of_false (fun ⟨message, hError⟩ => nomatch hError)
      (not_not_intro (compile_eq_ok_iff.mp hCompile).1)

/-- A pass that reads and writes one resource is refused, unless every such read is cut off
from the write and nothing else is wrong with the graph. -/
theorem selfHazard_rejected_iff {g : Graph} :
    (SelfHazard g → ∃ message, compile g = .error message) ↔
      (CutSelfHazards g → RefusedOtherwise g) := by
  rw [exists_error_iff, accepted_iff_not_refused, not_not]
  constructor
  · intro hRejected hCut
    exact hRejected hCut.hazard
  · intro hOtherwise hHazard
    by_cases hLinked : LinkedSelfHazard g
    · exact .cyclic (cyclic_of_linkedSelfHazard hLinked)
    · exact hOtherwise ⟨hHazard, hLinked⟩

-- A pass that draws from what it has just written is refused.
example : compile (uploadGraph 0 0 1) =
    .error "pass 'first' reads and writes the same resource" := rfl

/-- With another reader in between, the same pass is accepted. -/
theorem selfHazard_accepted_uploadGraph :
    SelfHazard (uploadGraph 0 1 0) ∧ ∃ out, compile (uploadGraph 0 1 0) = .ok out :=
  ⟨⟨_, List.mem_singleton_self _, ⟨0, true⟩, by decide, ⟨0, false⟩, by decide, rfl, rfl, rfl⟩,
    assemble _ [0, 1, 2], rfl⟩

end Ithax.RenderGraph
