import Ithax.RenderGraph.Hazard
import Ithax.RenderGraph.PassOrder

/-!
# Resource lifetimes

The lifetime of a resource is collected along the order in which its uses are declared, and is
read as a stretch of the execution. It is one when the use declared first is also executed
before all others and the use declared last after all others.

## Results

* `ends_lifetimeOf`     — a lifetime runs from the use declared first to the one declared last.
* `lifetimeCovers_iff`  — the lifetime of one resource.
* `lifetimesCover_iff`  — the lifetimes of a graph.
-/

namespace Ithax.RenderGraph

/-- The lifetime of the resource at `r` reaches from the user that is executed first to the
user that is executed last. -/
structure LifetimeCovers (out : CompileResult) (r : ResourceId) (resource : Resource)
    (lifetime : ResourceLifetime) : Prop where
  entry : out.lifetimes[r]? = some lifetime
  owner : lifetime.resource = r
  used : lifetime.used = true ↔ (out.users resource).Nonempty
  first : lifetime.used = true → lifetime.firstPass ∈ out.users resource ∧
    ∀ p ∈ out.users resource, out.orderIndex lifetime.firstPass ≤ out.orderIndex p
  last : lifetime.used = true → lifetime.lastPass ∈ out.users resource ∧
    ∀ p ∈ out.users resource, out.orderIndex p ≤ out.orderIndex lifetime.lastPass

def LifetimesCover (g : Graph) (out : CompileResult) : Prop :=
  ∀ r resource, g.resources[r]? = some resource →
    ∃ lifetime, LifetimeCovers out r resource lifetime

open Classical in
/-- The uses by passes that are not culled, as they are declared. -/
noncomputable def neededMarks (g : Graph) (resource : Resource) : List UseMark :=
  resource.uses.filter fun use => Needed g use.pass

/-- No needed user runs before the one declared first, and none after the one declared last. -/
structure EndsAgree (g : Graph) (resource : Resource) : Prop where
  first : ∀ use, (neededMarks g resource).head? = some use →
    ∀ other ∈ neededMarks g resource, ¬RunsFirst g other.pass use.pass
  last : ∀ use, (neededMarks g resource).getLast? = some use →
    ∀ other ∈ neededMarks g resource, ¬RunsFirst g use.pass other.pass

section Compiled

variable {g : Graph} {out : CompileResult} (hOk : compile g = .ok out) {r : ResourceId}
  {resource : Resource} (hr : g.resources[r]? = some resource)

include hOk

open Classical in
theorem executedUses_eq : out.executedUses resource = neededMarks g resource := by
  refine List.filter_congr fun use _ => ?_
  rw [Bool.eq_iff_iff, decide_eq_true_eq]
  exact survives_iff_needed hOk

theorem orderIndex_le_iff {a b : PassId} (ha : Needed g a) (hb : Needed g b) :
    out.orderIndex a ≤ out.orderIndex b ↔ ¬RunsFirst g b a := by
  rw [← orderIndex_lt_iff_runsFirst hOk hb ha, Nat.not_lt]

theorem needed_of_executed {use : UseMark} (hUse : use ∈ out.executedUses resource) :
    Needed g use.pass :=
  (survives_iff_needed hOk).mp (List.mem_filter.mp hUse).2

/-- A user has the smallest index when no needed use runs before it. -/
theorem least_user_iff {use : UseMark} (hUse : use ∈ out.executedUses resource) :
    (∀ p ∈ out.users resource, out.orderIndex use.pass ≤ out.orderIndex p) ↔
      ∀ other ∈ neededMarks g resource, ¬RunsFirst g other.pass use.pass := by
  rw [← executedUses_eq hOk]
  constructor
  · intro hLeast other hOther
    have hLe := hLeast other.pass (mem_users_iff.mpr ⟨other, hOther, rfl⟩)
    exact (orderIndex_le_iff hOk (needed_of_executed hOk hUse)
      (needed_of_executed hOk hOther)).mp hLe
  · intro hNone p hp
    obtain ⟨other, hOther, rfl⟩ := mem_users_iff.mp hp
    exact (orderIndex_le_iff hOk (needed_of_executed hOk hUse)
      (needed_of_executed hOk hOther)).mpr (hNone other hOther)

/-- A user has the largest index when it runs before no needed use. -/
theorem greatest_user_iff {use : UseMark} (hUse : use ∈ out.executedUses resource) :
    (∀ p ∈ out.users resource, out.orderIndex p ≤ out.orderIndex use.pass) ↔
      ∀ other ∈ neededMarks g resource, ¬RunsFirst g use.pass other.pass := by
  rw [← executedUses_eq hOk]
  constructor
  · intro hGreatest other hOther
    have hLe := hGreatest other.pass (mem_users_iff.mpr ⟨other, hOther, rfl⟩)
    exact (orderIndex_le_iff hOk (needed_of_executed hOk hOther)
      (needed_of_executed hOk hUse)).mp hLe
  · intro hNone p hp
    obtain ⟨other, hOther, rfl⟩ := mem_users_iff.mp hp
    exact (orderIndex_le_iff hOk (needed_of_executed hOk hOther)
      (needed_of_executed hOk hUse)).mpr (hNone other hOther)

omit hOk in
include hr in
/-- The ends of the lifetime are the users declared first and last. -/
theorem ends_lifetimeOf {first last : UseMark}
    (hFirst : (out.executedUses resource).head? = some first)
    (hLast : (out.executedUses resource).getLast? = some last) :
    (lifetimeOf out.survives resource r).firstPass = first.pass ∧
      (lifetimeOf out.survives resource r).lastPass = last.pass :=
  ends_foldl_extendLifetime hFirst hLast rfl
    (executedUses_ne_invalid hr (List.mem_of_mem_head? hFirst))

include hr

/-- The lifetime of a resource is right when the declarations of its uses begin with the first
user and end with the last. -/
theorem lifetimeCovers_iff :
    (∃ lifetime, LifetimeCovers out r resource lifetime) ↔ EndsAgree g resource := by
  have hEntry := lifetimes_getElem hOk hr
  constructor
  · rintro ⟨lifetime, hCovers⟩
    obtain rfl : lifetimeOf out.survives resource r = lifetime :=
      Option.some.inj (hEntry.symm.trans hCovers.entry)
    -- the two ends belong to one list, which is not empty
    have hEnds : ∀ first last, (neededMarks g resource).head? = some first →
        (neededMarks g resource).getLast? = some last →
        (∀ other ∈ neededMarks g resource, ¬RunsFirst g other.pass first.pass) ∧
        ∀ other ∈ neededMarks g resource, ¬RunsFirst g last.pass other.pass := by
      intro first last hFirst hLast
      rw [← executedUses_eq hOk] at hFirst hLast
      have hFirstIn := List.mem_of_mem_head? hFirst
      have hLastIn := List.mem_of_mem_getLast? hLast
      have hUsed := hCovers.used.mpr ⟨first.pass, mem_users_iff.mpr ⟨first, hFirstIn, rfl⟩⟩
      have hSame := ends_lifetimeOf hr hFirst hLast
      have hLeast := (hCovers.first hUsed).2
      have hGreatest := (hCovers.last hUsed).2
      rw [hSame.1] at hLeast
      rw [hSame.2] at hGreatest
      exact ⟨(least_user_iff hOk hFirstIn).mp hLeast, (greatest_user_iff hOk hLastIn).mp hGreatest⟩
    refine ⟨fun first hFirst => ?_, fun last hLast => ?_⟩
    · have hSome : neededMarks g resource ≠ [] := fun hNil => by
        rw [hNil] at hFirst
        cases hFirst
      exact (hEnds first _ hFirst (List.getLast?_eq_some_getLast hSome)).1
    · have hSome : neededMarks g resource ≠ [] := fun hNil => by
        rw [hNil] at hLast
        cases hLast
      exact (hEnds _ last (List.head?_eq_some_head hSome) hLast).2
  · intro hAgree
    have hEnds : (lifetimeOf out.survives resource r).used = true → ∃ first last,
        (out.executedUses resource).head? = some first ∧
        (out.executedUses resource).getLast? = some last := by
      intro hUsed
      have hSome : out.executedUses resource ≠ [] := (used_foldl_extendLifetime rfl).mp hUsed
      exact ⟨_, _, List.head?_eq_some_head hSome, List.getLast?_eq_some_getLast hSome⟩
    refine ⟨_, hEntry, resource_foldl_extendLifetime _ _, used_lifetimeOf_iff,
      fun hUsed => ?_, fun hUsed => ?_⟩
    · obtain ⟨first, last, hFirst, hLast⟩ := hEnds hUsed
      have hFirstIn := List.mem_of_mem_head? hFirst
      rw [(ends_lifetimeOf hr hFirst hLast).1]
      refine ⟨mem_users_iff.mpr ⟨first, hFirstIn, rfl⟩, (least_user_iff hOk hFirstIn).mpr ?_⟩
      exact hAgree.first first (executedUses_eq hOk ▸ hFirst)
    · obtain ⟨first, last, hFirst, hLast⟩ := hEnds hUsed
      have hLastIn := List.mem_of_mem_getLast? hLast
      rw [(ends_lifetimeOf hr hFirst hLast).2]
      refine ⟨mem_users_iff.mpr ⟨last, hLastIn, rfl⟩, (greatest_user_iff hOk hLastIn).mpr ?_⟩
      exact hAgree.last last (executedUses_eq hOk ▸ hLast)

end Compiled

/-- The lifetimes of a compiled graph cover the executed uses exactly when, resource by
resource, the uses declared first and last are executed first and last. -/
theorem lifetimesCover_iff {g : Graph} {out : CompileResult} (hOk : compile g = .ok out) :
    LifetimesCover g out ↔ ∀ resource ∈ g.resources, EndsAgree g resource := by
  constructor
  · intro hCover resource hMem
    obtain ⟨r, hr⟩ := List.mem_iff_getElem?.mp hMem
    exact (lifetimeCovers_iff hOk hr).mp (hCover r resource hr)
  · intro hAgree r resource hr
    exact (lifetimeCovers_iff hOk hr).mpr (hAgree resource (List.mem_of_getElem? hr))

/-- With the writer declared and executed first, the lifetime of the buffer is right. -/
theorem lifetimesCover_uploadGraph : ∃ out, compile (uploadGraph 0 1 2) = .ok out ∧
    LifetimesCover (uploadGraph 0 1 2) out ∧
    ∀ resource ∈ (uploadGraph 0 1 2).resources, EndsAgree (uploadGraph 0 1 2) resource := by
  have hOk : compile (uploadGraph 0 1 2) = .ok (assemble (uploadGraph 0 1 2) [0, 1, 2]) := rfl
  have hCover : LifetimesCover (uploadGraph 0 1 2) (assemble (uploadGraph 0 1 2) [0, 1, 2]) := by
    intro r resource hr
    obtain rfl : r = 0 := Nat.lt_one_iff.mp (List.getElem?_eq_some_iff.mp hr).1
    obtain rfl := List.mem_singleton.mp (List.mem_of_getElem? hr)
    refine ⟨_, lifetimes_getElem hOk hr, rfl, used_lifetimeOf_iff, fun _ => ⟨?_, ?_⟩,
      fun _ => ⟨?_, ?_⟩⟩
    · exact ⟨rfl, ⟨0, false⟩, by decide, rfl⟩
    · exact fun p _ => Nat.zero_le _
    · exact ⟨rfl, ⟨2, true⟩, by decide, rfl⟩
    · rintro p ⟨-, use, hUse, rfl⟩
      revert use
      decide
  exact ⟨_, hOk, hCover, (lifetimesCover_iff hOk).mp hCover⟩

/-- The reader declared last is executed before the writer declared first. -/
theorem not_lifetimesCover_uploadGraph : ∃ out, compile (uploadGraph 1 2 0) = .ok out ∧
    ¬LifetimesCover (uploadGraph 1 2 0) out := by
  refine ⟨assemble _ [0, 1, 2], rfl, fun hCover => ?_⟩
  obtain ⟨lifetime, hCovers⟩ := hCover 0 _ rfl
  obtain rfl := Option.some.inj (hCovers.entry.symm.trans rfl)
  have hLast := (hCovers.last rfl).2 2 ⟨rfl, ⟨2, true⟩, by decide, rfl⟩
  revert hLast
  decide

end Ithax.RenderGraph
