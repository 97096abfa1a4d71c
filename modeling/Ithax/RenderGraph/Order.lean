import Ithax.RenderGraph.Compile

/-!
# Execution order and culling

What an accepted graph is, and which passes are executed in which order, said
about the declarations alone: `RunsFirst` for the order, `Needed` for culling.

## Results

* `compile_eq_ok_iff`           — which graphs are accepted, and the result.
* `survives_iff_needed`         — the passes that are not culled.
* `orderIndex_lt_iff_runsFirst` — the order in which they are executed.
-/

namespace Ithax.RenderGraph

open Ithax.Lib

namespace CompileResult

/-- The pass is executed. -/
def survives (out : CompileResult) (p : PassId) : Bool :=
  out.passes[p]?.any fun pass => !pass.culled

/-- The place of a pass among the executed ones. -/
def orderIndex (out : CompileResult) (p : PassId) : Nat :=
  (out.passes[p]?.map CompiledPass.orderIndex).getD UINT32_MAX

/-- The passes that are executed, in the order of their indices. -/
def executionOrder (out : CompileResult) : List PassId :=
  ((out.passes.filter fun pass => !pass.culled).insertionSort fun a b =>
    a.orderIndex ≤ b.orderIndex).map CompiledPass.passId

end CompileResult

-- ---------------------------------------------------------------------------
-- Accepted graphs
-- ---------------------------------------------------------------------------

/-- The graph passes all checks of `compile`. -/
structure Accepted (g : Graph) : Prop where
  passes : g.passes ≠ []
  resources : g.resources ≠ []
  validated : ∀ resource ∈ g.resources, validateResource resource = .ok ()
  noSelfEdge : ∀ edge ∈ orderingEdges g, edge.1 ≠ edge.2
  complete : (topologicalOrder g).length = g.passes.length

/-- A check of all elements passes when each passes. -/
theorem forM_eq_ok_iff {α : Type} {check : α → Except String Unit} :
    ∀ {xs : List α}, xs.forM check = .ok () ↔ ∀ x ∈ xs, check x = .ok ()
  | [] => by simp [pure, Except.pure]
  | x :: xs => by
    have hStep : (x :: xs).forM check = check x >>= fun _ => xs.forM check := rfl
    rw [hStep, List.forall_mem_cons]
    rcases hCheck : check x with error | value
    · simp [bind, Except.bind]
    · show xs.forM check = .ok () ↔ _
      rw [forM_eq_ok_iff]
      simp

/-- No edge from a pass to itself was declared. -/
theorem checkSelfEdges_eq_ok_iff {g : Graph} :
    checkSelfEdges g = .ok () ↔ ∀ edge ∈ orderingEdges g, edge.1 ≠ edge.2 := by
  unfold checkSelfEdges
  rcases hFind : (orderingEdges g).find? fun edge => edge.1 = edge.2 with - | edge
  · rw [hFind]
    simpa using hFind
  · have hMem := List.mem_of_find?_eq_some hFind
    have hSelf := List.find?_some hFind
    simp only [decide_eq_true_eq] at hSelf
    rw [hFind]
    exact iff_of_false (fun hOk => nomatch hOk) fun hNone => hNone edge hMem hSelf

/-- The graphs that `Compile` accepts, and what it makes of them: the order of the scheduler and
the tables assembled along it. -/
theorem compile_eq_ok_iff {g : Graph} {out : CompileResult} :
    compile g = .ok out ↔ Accepted g ∧ out = assemble g (topologicalOrder g) := by
  constructor
  · intro h
    unfold compile at h
    by_cases hPasses : g.passes = []
    · simp [hPasses, throw, throwThe, MonadExceptOf.throw, bind, Except.bind] at h
    by_cases hResources : g.resources = []
    · simp [hPasses, hResources, throw, throwThe, MonadExceptOf.throw, bind, Except.bind] at h
    simp only [hPasses, hResources, if_false] at h
    rcases hValid : g.resources.forM validateResource with error | ⟨⟨⟩⟩
    · simp [hValid, bind, Except.bind] at h
    rcases hSelf : checkSelfEdges g with error | ⟨⟨⟩⟩
    · simp [hValid, hSelf, bind, Except.bind] at h
    by_cases hOrder : (topologicalOrder g).length = g.passes.length
    · simp [hValid, hSelf, hOrder, bind, Except.bind, pure, Except.pure] at h
      exact ⟨⟨hPasses, hResources, forM_eq_ok_iff.mp hValid, checkSelfEdges_eq_ok_iff.mp hSelf,
        hOrder⟩, h.symm⟩
    · simp [hValid, hSelf, hOrder, throw, throwThe, MonadExceptOf.throw, bind, Except.bind] at h
  · rintro ⟨h, rfl⟩
    unfold compile
    simp [h.passes, h.resources, h.complete, forM_eq_ok_iff.mpr h.validated,
      checkSelfEdges_eq_ok_iff.mpr h.noSelfEdge, bind, Except.bind, pure, Except.pure]

-- ---------------------------------------------------------------------------
-- Edges
-- ---------------------------------------------------------------------------

/-- An ordering edge stands between neighbouring uses that are not two reads. -/
theorem mem_useEdges_iff {edge : PassId × PassId} : ∀ {uses : List UseMark},
    edge ∈ useEdges uses ↔ ∃ before u v after, uses = before ++ u :: v :: after ∧
      ¬(u.isRead ∧ v.isRead) ∧ edge = (u.pass, v.pass)
  | [] => by simp [useEdges]
  | [u] => by
    refine iff_of_false (by simp [useEdges]) ?_
    rintro ⟨before, u', v, after, hSplit, -⟩
    have hLength := congrArg List.length hSplit
    simp at hLength
    omega
  | u :: v :: rest => by
    have ih := @mem_useEdges_iff edge (v :: rest)
    have hStep : edge ∈ useEdges (u :: v :: rest) ↔
        (¬(u.isRead ∧ v.isRead) ∧ edge = (u.pass, v.pass)) ∨ edge ∈ useEdges (v :: rest) := by
      rw [useEdges]
      by_cases hReads : u.isRead ∧ v.isRead
      · simp [hReads]
      · rw [if_neg hReads, List.mem_cons]
        simp [hReads]
    rw [hStep, ih]
    constructor
    · rintro (hHere | ⟨before, u', v', after, hSplit, hRest⟩)
      · exact ⟨[], u, v, rest, rfl, hHere⟩
      · exact ⟨u :: before, u', v', after, by rw [hSplit]; rfl, hRest⟩
    · rintro ⟨before, u', v', after, hSplit, hRest⟩
      rcases before with - | ⟨first, before⟩
      · obtain ⟨rfl, rfl, rfl⟩ : u = u' ∧ v = v' ∧ rest = after := by simpa using hSplit
        exact Or.inl hRest
      · obtain ⟨-, hTail⟩ : u = first ∧ v :: rest = before ++ u' :: v' :: after := by
          simpa using hSplit
        exact Or.inr ⟨before, u', v', after, hTail, hRest⟩

/-- There is an ordering edge from `a` to `b`. -/
def LeadsTo (g : Graph) (a b : PassId) : Prop := (a, b) ∈ orderingEdges g

/-- Neighbouring uses that are not two reads are ordered. -/
theorem leadsTo_of_neighbours {g : Graph} {resource : Resource} (hMem : resource ∈ g.resources)
    {before after : List UseMark} {u v : UseMark}
    (hSplit : resource.uses = before ++ u :: v :: after) (hHazard : ¬(u.isRead ∧ v.isRead)) :
    LeadsTo g u.pass v.pass :=
  List.mem_flatMap.mpr
    ⟨resource, hMem, mem_useEdges_iff.mpr ⟨before, u, v, after, hSplit, hHazard, rfl⟩⟩

/-- An edge ends in a declared pass. -/
theorem LeadsTo.lt {g : Graph} {a b : PassId} (h : LeadsTo g a b) : b < g.passes.length := by
  obtain ⟨resource, hMem, hEdge⟩ := List.mem_flatMap.mp h
  obtain ⟨before, u, v, after, hSplit, -, hPair⟩ := mem_useEdges_iff.mp hEdge
  obtain ⟨-, rfl⟩ := Prod.mk.inj hPair
  refine (g.declared resource hMem).pass_lt ?_
  rw [hSplit]
  simp

/-- `a` comes before `b`, by the declared edges and, where these leave the choice,
by the ids: from the highest id down, the passes it leads to come after all others. -/
def RunsFirst (g : Graph) : PassId → PassId → Prop :=
  Precedes (Relation.ReflTransGen (LeadsTo g)) (List.range g.passes.length).reverse
    (· < g.passes.length)

namespace Accepted

variable {g : Graph} (h : Accepted g)

include h

/-- The scheduler's order is the topological order that prefers low ids. -/
theorem leastFirst :
    LeastFirst (· < g.passes.length) (LeadsTo g) (topologicalOrder g) :=
  leastFirst_kahn (fun _ hEdge => LeadsTo.lt hEdge) h.complete

/-- No pass is scheduled twice. -/
theorem nodup : (topologicalOrder g).Nodup := h.leastFirst.nodup

/-- Every pass is scheduled. -/
theorem mem_iff {p : PassId} : p ∈ topologicalOrder g ↔ p < g.passes.length :=
  h.leastFirst.mem_iff p

/-- `RunsFirst` is the order of the schedule. -/
theorem runsFirst_iff {a b : PassId} (ha : a < g.passes.length) (hb : b < g.passes.length) :
    RunsFirst g a b ↔ (topologicalOrder g).idxOf a < (topologicalOrder g).idxOf b := by
  have hSorted : (List.range g.passes.length).reverse.Pairwise (· > ·) :=
    List.pairwise_reverse.mpr List.pairwise_lt_range
  refine precedes_iff h.leastFirst hSorted (fun x hx => ?_) ha hb
  exact List.mem_reverse.mpr (List.mem_range.mpr hx)

end Accepted

-- ---------------------------------------------------------------------------
-- Culling
-- ---------------------------------------------------------------------------

/-- The passes worth executing. What a pass writes counts when a needed pass that
runs later reads it. -/
inductive Needed (g : Graph) : PassId → Prop where
  | kept {p : PassId} {pass : Pass} (hPass : g.passes[p]? = some pass)
      (hKept : pass.cullable = false) : Needed g p
  | presents {p : PassId} {resource : Resource} (hMem : resource ∈ g.resources)
      (hWrites : writesPresented resource p = true) : Needed g p
  | feeds {resource : Resource} {write read : UseMark} (hMem : resource ∈ g.resources)
      (hWrite : write ∈ resource.uses) (hWrites : write.isRead = false)
      (hRead : read ∈ resource.uses) (hReads : read.isRead = true)
      (hFirst : RunsFirst g write.pass read.pass) (hNeeded : Needed g read.pass) :
      Needed g write.pass

/-- A pass that writes a presented image is declared. -/
theorem writesPresented_lt {n : Nat} {resource : Resource} (hDeclared : resource.Declared n)
    {p : PassId} (h : writesPresented resource p = true) : p < n := by
  simp only [writesPresented, Bool.and_eq_true, List.any_eq_true, beq_iff_eq] at h
  obtain ⟨-, use, hUse, -, rfl⟩ := h
  exact hDeclared.imagePass use hUse

/-- A needed pass is declared. -/
theorem Needed.lt {g : Graph} {p : PassId} (h : Needed g p) : p < g.passes.length := by
  cases h with
  | kept hPass => exact (List.getElem?_eq_some_iff.mp hPass).1
  | presents hMem hWrites => exact writesPresented_lt (g.declared _ hMem) hWrites
  | feeds hMem hWrite => exact (g.declared _ hMem).pass_lt hWrite

/-- What the sweep looks for: a write of the pass and a surviving read by another. -/
theorem feedsSurvivor_iff {uses : List UseMark} {surviving : PassId → Bool} {p : PassId} :
    feedsSurvivor uses surviving p = true ↔ ∃ write ∈ uses, ∃ read ∈ uses,
      write.pass = p ∧ write.isRead = false ∧ read.pass ≠ p ∧ read.isRead = true ∧
      surviving read.pass = true := by
  simp only [feedsSurvivor, List.any_eq_true, Bool.and_eq_true, beq_iff_eq, bne_iff_ne, ne_eq,
    Bool.not_eq_true']
  constructor
  · rintro ⟨write, hWrite, ⟨hPass, hWrites⟩, read, hRead, ⟨hOther, hReads⟩, hSurvives⟩
    exact ⟨write, hWrite, read, hRead, hPass, hWrites, hOther, hReads, hSurvives⟩
  · rintro ⟨write, hWrite, read, hRead, hPass, hWrites, hOther, hReads, hSurvives⟩
    exact ⟨write, hWrite, ⟨hPass, hWrites⟩, read, hRead, ⟨hOther, hReads⟩, hSurvives⟩

/-- The image and the buffer uses of a resource are not both there. -/
theorem feedsSurvivor_uses {n : Nat} {resource : Resource} (hDeclared : resource.Declared n)
    (surviving : PassId → Bool) (p : PassId) :
    (feedsSurvivor (resource.imageUses.map ImageUse.mark) surviving p ||
      feedsSurvivor (resource.bufferUses.map BufferUse.mark) surviving p) =
      feedsSurvivor resource.uses surviving p := by
  rcases hKind : resource.isImage with - | -
  · simp [Resource.uses, hKind, (hDeclared.buffer hKind).1, feedsSurvivor]
  · simp [Resource.uses, hKind, hDeclared.image hKind, feedsSurvivor]

/-- Why the sweep keeps a pass. -/
theorem hasReasonToSurvive_iff {g : Graph} {surviving : PassId → Bool} {p : PassId}
    (hp : p < g.passes.length) :
    hasReasonToSurvive g surviving p = true ↔ g.passes[p].cullable = false ∨
      ∃ resource ∈ g.resources, writesPresented resource p = true ∨
        feedsSurvivor resource.uses surviving p = true := by
  unfold hasReasonToSurvive
  rw [List.getElem?_eq_getElem hp, Option.any_some, Bool.or_eq_true, Bool.not_eq_true',
    List.any_eq_true]
  refine or_congr_right (exists_congr fun resource => and_congr_right fun hMem => ?_)
  rw [Bool.or_assoc, feedsSurvivor_uses (g.declared resource hMem), Bool.or_eq_true]

/-- The sweep decides the passes from the last to the first. -/
theorem survivors_cons (g : Graph) (p : PassId) (order : List PassId) :
    survivors g (p :: order) = cullStep g (survivors g order) p := by
  rw [survivors, List.reverse_cons, List.foldl_append]
  rfl

/-- A step decides one pass only. -/
theorem cullStep_of_ne {g : Graph} {surviving : PassId → Bool} {p q : PassId} (hne : q ≠ p) :
    cullStep g surviving p q = surviving q := by
  unfold cullStep
  split
  · exact Function.update_of_ne hne _ _
  · rfl

/-- Only passes that were looked at survive. -/
theorem mem_of_survivors {g : Graph} {q : PassId} :
    ∀ {order : List PassId}, survivors g order q = true → q ∈ order
  | [], h => (Bool.false_ne_true h).elim
  | p :: order, h => by
    rw [survivors_cons] at h
    by_cases hq : q = p
    · exact hq ▸ List.mem_cons_self
    · rw [cullStep_of_ne hq] at h
      exact List.mem_cons_of_mem _ (mem_of_survivors h)

/-- What comes before a pass in the order does not decide it. -/
theorem survivors_append {g : Graph} {q : PassId} {after : List PassId} :
    ∀ {before : List PassId}, q ∉ before → survivors g (before ++ after) q = survivors g after q
  | [], _ => rfl
  | p :: before, hOut => by
    obtain ⟨hq, hRest⟩ := not_or.mp (mt List.mem_cons.mpr hOut)
    rw [List.cons_append, survivors_cons, cullStep_of_ne hq]
    exact survivors_append hRest

/-- A pass survives for a reason found among the survivors after it. -/
theorem survivors_split {g : Graph} {before after : List PassId} {p : PassId}
    (hNodup : (before ++ p :: after).Nodup) :
    survivors g (before ++ p :: after) p = hasReasonToSurvive g (survivors g after) p := by
  have hBefore : p ∉ before := fun hIn =>
    (List.nodup_append.mp hNodup).2.2 p hIn p List.mem_cons_self rfl
  have hAfter : p ∉ after := (List.nodup_cons.mp (List.nodup_append.mp hNodup).2.1).1
  have hOpen : survivors g after p = false :=
    Bool.eq_false_iff.mpr fun h => hAfter (mem_of_survivors h)
  rw [survivors_append hBefore, survivors_cons, cullStep]
  rcases hReason : hasReasonToSurvive g (survivors g after) p with - | -
  · simpa using hOpen
  · simp

namespace Accepted

variable {g : Graph} (h : Accepted g)

include h

/-- A survivor is needed. By induction on the part of the order that the sweep has been
through: the reason was found among the survivors of that part. -/
theorem needed_of_survivors : ∀ (after before : List PassId),
    topologicalOrder g = before ++ after → ∀ p, survivors g after p = true → Needed g p
  | [], _, _, _, hSurvives => (Bool.false_ne_true hSurvives).elim
  | q :: after, before, hSplit, p, hSurvives => by
    have ih := needed_of_survivors after (before ++ [q]) (by rw [hSplit]; simp)
    by_cases hp : p = q
    · subst hp
      have hNodup := hSplit ▸ h.nodup
      have hlt : p < g.passes.length := h.mem_iff.mp (by rw [hSplit]; simp)
      have hReason : hasReasonToSurvive g (survivors g after) p = true := by
        have hOwn := @survivors_split g [] after p (List.nodup_append.mp hNodup).2.1
        exact hOwn.symm.trans hSurvives
      rcases (hasReasonToSurvive_iff hlt).mp hReason with hKept | ⟨resource, hMem, hWrites | hFeeds⟩
      · exact .kept (List.getElem?_eq_getElem hlt) hKept
      · exact .presents hMem hWrites
      · obtain ⟨write, hWrite, read, hRead, rfl, hWrites, -, hReads, hReader⟩ :=
          feedsSurvivor_iff.mp hFeeds
        refine .feeds hMem hWrite hWrites hRead hReads ?_ (ih _ hReader)
        -- the reader comes after the writer, being among the survivors found so far
        refine (h.runsFirst_iff hlt (ih _ hReader).lt).mpr ?_
        have hNotIn : read.pass ∉ before ++ [write.pass] := by
          intro hIn
          have hNodup' : ((before ++ [write.pass]) ++ after).Nodup := by simpa using hNodup
          exact (List.nodup_append.mp hNodup').2.2 _ hIn _ (mem_of_survivors hReader) rfl
        rw [← Nat.not_le]
        intro hLe
        rcases Nat.lt_or_eq_of_le hLe with hLt | hEq
        · exact hNotIn (List.mem_append_left _ ((idxOf_lt_iff_mem_before h.nodup hSplit).mp hLt))
        · rw [h.leastFirst.eq_of_idxOf_eq (ih _ hReader).lt hEq] at hNotIn
          exact hNotIn (List.mem_append_right _ List.mem_cons_self)
    · rw [survivors_cons, cullStep_of_ne hp] at hSurvives
      exact ih p hSurvives

/-- A pass with a surviving reader after it survives. -/
theorem survivors_of_reason {p : PassId} (hp : p < g.passes.length)
    (hReason : g.passes[p].cullable = false ∨ ∃ resource ∈ g.resources,
      writesPresented resource p = true ∨ ∃ write ∈ resource.uses, ∃ read ∈ resource.uses,
        write.pass = p ∧ write.isRead = false ∧ read.isRead = true ∧ RunsFirst g p read.pass ∧
        survivors g (topologicalOrder g) read.pass = true) :
    survivors g (topologicalOrder g) p = true := by
  obtain ⟨before, after, hSplit⟩ := List.append_of_mem (h.mem_iff.mpr hp)
  have hNodup := h.nodup
  rw [hSplit] at hNodup ⊢
  rw [survivors_split hNodup, hasReasonToSurvive_iff hp]
  refine hReason.imp_right ?_
  rintro ⟨resource, hMem, hWrites | ⟨write, hWrite, read, hRead, hPass, hWrites, hReads, hFirst, hReader⟩⟩
  · exact ⟨resource, hMem, Or.inl hWrites⟩
  · have hLt : read.pass < g.passes.length := (g.declared resource hMem).pass_lt hRead
    have hIdx := (h.runsFirst_iff hp hLt).mp hFirst
    -- the reader is decided before the writer is looked at
    have hNotBefore : read.pass ∉ before ++ [p] := by
      intro hIn
      rcases List.mem_append.mp hIn with hBefore | hSelf
      · exact Nat.lt_asymm hIdx ((idxOf_lt_iff_mem_before h.nodup hSplit).mpr hBefore)
      · rw [List.mem_singleton.mp hSelf] at hIdx
        exact Nat.lt_irrefl _ hIdx
    refine ⟨resource, hMem, Or.inr (feedsSurvivor_iff.mpr
      ⟨write, hWrite, read, hRead, hPass, hWrites, ?_, hReads, ?_⟩)⟩
    · intro hSelf
      exact hNotBefore (by simp [hSelf])
    · rw [hSplit, List.append_cons, survivors_append hNotBefore] at hReader
      exact hReader

/-- **Culling.** The survivors of the one sweep are the needed passes. -/
theorem survivors_iff_needed {p : PassId} :
    survivors g (topologicalOrder g) p = true ↔ Needed g p := by
  refine ⟨h.needed_of_survivors _ [] rfl p, fun hNeeded => ?_⟩
  induction hNeeded with
  | kept hPass hKept =>
    obtain ⟨hlt, rfl⟩ := List.getElem?_eq_some_iff.mp hPass
    exact h.survivors_of_reason hlt (Or.inl hKept)
  | presents hMem hWrites =>
    have hlt := writesPresented_lt (g.declared _ hMem) hWrites
    exact h.survivors_of_reason hlt (Or.inr ⟨_, hMem, Or.inl hWrites⟩)
  | feeds hMem hWrite hWrites hRead hReads hFirst _ ih =>
    have hlt := (g.declared _ hMem).pass_lt hWrite
    exact h.survivors_of_reason hlt (Or.inr ⟨_, hMem, Or.inr
      ⟨_, hWrite, _, hRead, rfl, hWrites, hReads, hFirst, ih⟩⟩)

end Accepted

-- ---------------------------------------------------------------------------
-- Numbering
-- ---------------------------------------------------------------------------

/-- The entry of a pass that comes with the given number of survivors before it. -/
def compiledPass (g : Graph) (surviving : PassId → Bool) (index : Nat) (p : PassId) :
    CompiledPass :=
  let declared := g.passes[p]?.getD { name := "" }
  { passId := p
    name := declared.name
    queue := declared.queue
    culled := !surviving p
    orderIndex := if surviving p then index else UINT32_MAX }

/-- One step of the numbering writes one entry. -/
theorem numberPass_eq (g : Graph) (surviving : PassId → Bool) (s : List CompiledPass × Nat)
    (p : PassId) :
    numberPass g surviving s p = (s.1.set p (compiledPass g surviving s.2 p),
      if surviving p then s.2 + 1 else s.2) := by
  rcases hSurvives : surviving p with - | - <;> simp [numberPass, compiledPass, hSurvives]

/-- The entry of a pass is touched at its own turn only. -/
theorem numberPass_fold_untouched (g : Graph) (surviving : PassId → Bool) {p : PassId} :
    ∀ (order : List PassId) (s : List CompiledPass × Nat), p ∉ order →
      (order.foldl (numberPass g surviving) s).1[p]? = s.1[p]?
  | [], _, _ => rfl
  | q :: order, s, hOut => by
    obtain ⟨hq, hRest⟩ := not_or.mp (mt List.mem_cons.mpr hOut)
    rw [List.foldl_cons, numberPass_fold_untouched g surviving order _ hRest, numberPass_eq]
    exact List.getElem?_set_ne (Ne.symm hq)

/-- Its index is the number of survivors before it. -/
theorem numberPass_fold_getElem (g : Graph) (surviving : PassId → Bool) {p : PassId} :
    ∀ (order : List PassId) (s : List CompiledPass × Nat), order.Nodup → p ∈ order →
      p < s.1.length →
      (order.foldl (numberPass g surviving) s).1[p]? =
        some (compiledPass g surviving (s.2 + (order.filter surviving).idxOf p) p)
  | q :: order, s, hNodup, hMem, hLt => by
    obtain ⟨hOut, hRest⟩ := List.nodup_cons.mp hNodup
    rw [List.foldl_cons, numberPass_eq]
    by_cases hq : p = q
    · -- the entry is written here and not touched again
      subst hq
      rw [numberPass_fold_untouched g surviving order _ hOut]
      rcases hSurvives : surviving p with - | -
      · simp [compiledPass, hSurvives, hLt]
      · simp [compiledPass, hSurvives, hLt]
    · have hIn : p ∈ order := (List.mem_cons.mp hMem).resolve_left hq
      have ih := numberPass_fold_getElem g surviving order
        (s.1.set q (compiledPass g surviving s.2 q), if surviving q then s.2 + 1 else s.2)
        hRest hIn (by simpa using hLt)
      rw [ih]
      rcases hSurvives : surviving q with - | -
      · simp [hSurvives]
      · have hIdx : (q :: order.filter surviving).idxOf p =
            (order.filter surviving).idxOf p + 1 := List.idxOf_cons_ne _ (Ne.symm hq)
        simp [hSurvives, hIdx, Nat.add_assoc, Nat.add_comm 1]

/-- Leaving some elements out keeps the order of the others. -/
theorem idxOf_filter_lt_iff {keep : PassId → Bool} {a b : PassId} (ha : keep a = true)
    (hb : keep b = true) : ∀ (order : List PassId),
    (order.filter keep).idxOf a < (order.filter keep).idxOf b ↔ order.idxOf a < order.idxOf b
  | [] => Iff.rfl
  | p :: order => by
    have ih := idxOf_filter_lt_iff ha hb order
    by_cases hpa : p = a
    · subst hpa
      rw [List.filter_cons_of_pos ha, List.idxOf_cons_self, List.idxOf_cons_self]
      by_cases hpb : p = b
      · simp [hpb]
      · simp [List.idxOf_cons_ne _ hpb]
    · by_cases hpb : p = b
      · subst hpb
        simp [List.filter_cons_of_pos hb]
      · rcases hKeep : keep p with - | -
        · simp [hKeep, List.idxOf_cons_ne _ hpa, List.idxOf_cons_ne _ hpb, ih]
        · simp [hKeep, List.idxOf_cons_ne _ hpa, List.idxOf_cons_ne _ hpb, ih]

section Compiled

variable {g : Graph} {out : CompileResult} (hOk : compile g = .ok out)

include hOk

/-- A result comes from an accepted graph. -/
theorem accepted_of_compile : Accepted g := (compile_eq_ok_iff.mp hOk).1

/-- The entry of each pass in the result. -/
theorem passes_getElem {p : PassId} (hp : p < g.passes.length) :
    out.passes[p]? = some (compiledPass g (survivors g (topologicalOrder g))
      (((topologicalOrder g).filter (survivors g (topologicalOrder g))).idxOf p) p) := by
  obtain ⟨hAccepted, rfl⟩ := compile_eq_ok_iff.mp hOk
  have hEntry := numberPass_fold_getElem g (survivors g (topologicalOrder g)) (topologicalOrder g)
    (List.replicate g.passes.length {}, 0) hAccepted.nodup (hAccepted.mem_iff.mpr hp)
    (by simpa using hp)
  rw [Nat.zero_add] at hEntry
  exact hEntry

/-- The result has an entry for each pass. -/
theorem passes_length : out.passes.length = g.passes.length := by
  obtain ⟨-, rfl⟩ := compile_eq_ok_iff.mp hOk
  have hFold : ∀ (order : List PassId) (s : List CompiledPass × Nat),
      (order.foldl (numberPass g (survivors g (topologicalOrder g))) s).1.length = s.1.length := by
    intro order
    induction order with
    | nil => exact fun _ => rfl
    | cons p order ih =>
      intro s
      rw [List.foldl_cons, ih, numberPass_eq]
      exact List.length_set
  exact (hFold _ _).trans List.length_replicate

/-- The passes that are executed are the needed ones. -/
theorem survives_iff_needed {p : PassId} : out.survives p = true ↔ Needed g p := by
  by_cases hp : p < g.passes.length
  · rw [CompileResult.survives, passes_getElem hOk hp, Option.any_some, compiledPass, Bool.not_not]
    exact (accepted_of_compile hOk).survivors_iff_needed
  · refine iff_of_false (fun hSurvives => ?_) fun hNeeded => hp hNeeded.lt
    have hNone : out.passes[p]? = none :=
      List.getElem?_eq_none (passes_length hOk ▸ Nat.le_of_not_lt hp)
    rw [CompileResult.survives, hNone] at hSurvives
    exact Bool.false_ne_true hSurvives

/-- A needed pass has its place among the survivors of the schedule. -/
theorem orderIndex_of_needed {p : PassId} (hNeeded : Needed g p) :
    out.orderIndex p =
      ((topologicalOrder g).filter (survivors g (topologicalOrder g))).idxOf p := by
  have hSurvives := (accepted_of_compile hOk).survivors_iff_needed.mpr hNeeded
  rw [CompileResult.orderIndex, passes_getElem hOk hNeeded.lt, Option.map_some, compiledPass]
  simp [hSurvives]

/-- Needed passes are executed in the order of `RunsFirst`. -/
theorem orderIndex_lt_iff_runsFirst {a b : PassId} (ha : Needed g a) (hb : Needed g b) :
    out.orderIndex a < out.orderIndex b ↔ RunsFirst g a b := by
  have hAccepted := accepted_of_compile hOk
  rw [orderIndex_of_needed hOk ha, orderIndex_of_needed hOk hb,
    idxOf_filter_lt_iff (hAccepted.survivors_iff_needed.mpr ha)
      (hAccepted.survivors_iff_needed.mpr hb),
    hAccepted.runsFirst_iff ha.lt hb.lt]

/-- The executed passes are the schedule without the culled ones. -/
theorem executionOrder_eq :
    out.executionOrder = (topologicalOrder g).filter (survivors g (topologicalOrder g)) := by
  have hAccepted := accepted_of_compile hOk
  set surviving := survivors g (topologicalOrder g) with hSurviving
  set executed := (topologicalOrder g).filter surviving with hExecuted
  let entry := fun p => compiledPass g surviving (executed.idxOf p) p
  have hNodup : executed.Nodup := hAccepted.nodup.filter _
  have hPasses : out.passes = (List.range g.passes.length).map entry := by
    refine List.ext_getElem? fun p => ?_
    by_cases hp : p < g.passes.length
    · rw [passes_getElem hOk hp, List.getElem?_map, List.getElem?_range hp]
      rfl
    · rw [List.getElem?_eq_none (passes_length hOk ▸ Nat.le_of_not_lt hp),
        List.getElem?_eq_none (by simpa using hp)]
  have hFilter : out.passes.filter (fun pass => !pass.culled) =
      ((List.range g.passes.length).filter surviving).map entry := by
    rw [hPasses, List.filter_map]
    refine congrArg _ (List.filter_congr fun p _ => ?_)
    simp [entry, compiledPass]
  have hPerm : executed.Perm ((List.range g.passes.length).filter surviving) := by
    refine (List.perm_ext_iff_of_nodup hNodup (List.nodup_range.filter _)).mpr fun p => ?_
    rw [List.mem_filter, List.mem_filter, hAccepted.mem_iff, List.mem_range]
  have hIndex : ∀ p ∈ executed, (entry p).orderIndex = executed.idxOf p := by
    intro p hp
    simp [entry, compiledPass, (List.mem_filter.mp hp).2]
  -- the entries, listed in execution order, are sorted already
  have hSorted : (executed.map entry).Pairwise fun a b => a.orderIndex ≤ b.orderIndex := by
    rw [List.pairwise_map, List.pairwise_iff_getElem]
    intro i j hi hj hij
    rw [hIndex _ (List.getElem_mem hi), hIndex _ (List.getElem_mem hj), hNodup.idxOf_getElem,
      hNodup.idxOf_getElem]
    exact hij.le
  have hSort : (out.passes.filter fun pass => !pass.culled).insertionSort
      (fun a b => a.orderIndex ≤ b.orderIndex) = executed.map entry := by
    refine List.Perm.eq_of_pairwise ?_ (List.pairwise_insertionSort _ _) hSorted ?_
    · intro a b ha hb hab hba
      rw [List.mem_insertionSort, hFilter] at ha
      obtain ⟨p, hp, rfl⟩ := List.mem_map.mp ha
      obtain ⟨q, hq, rfl⟩ := List.mem_map.mp hb
      have hp' := hPerm.mem_iff.mpr hp
      rw [hIndex p hp', hIndex q hq] at hab hba
      rw [(List.idxOf_inj hp').mp (Nat.le_antisymm hab hba)]
    · rw [hFilter]
      exact (List.perm_insertionSort _ _).trans (hPerm.symm.map entry)
  rw [CompileResult.executionOrder, hSort, List.map_map]
  exact List.map_id' executed

end Compiled

end Ithax.RenderGraph
