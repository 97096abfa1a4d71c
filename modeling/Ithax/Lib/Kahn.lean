import Ithax.Lib.LeastOrder
import Mathlib.Data.Set.Finite.Basic
import Mathlib.Data.List.Sort
import Mathlib.Logic.Function.Basic

/-!
# Kahn's algorithm with a least-first queue

Vertices are the numbers below `n`, edges may repeat. A vertex goes into the queue
when the last edge into it is removed, and the least vertex of the queue leaves it
first: the result is a least-first order (`LeastFirst`), or short of some vertices.
-/

namespace Ithax.Lib

/-- The edges that are left into each vertex, the queue, and what has been put out. -/
structure KahnState where
  inDegree : Nat → Nat
  /-- The priority queue, least first. -/
  ready : List Nat
  order : List Nat

/-- Insertion into the priority queue. -/
def enqueue (ready : List Nat) (p : Nat) : List Nat := ready.orderedInsert (· ≤ ·) p

/-- The number of edges into each vertex. -/
def inDegrees (edges : List (Nat × Nat)) : Nat → Nat :=
  edges.foldl (fun degree edge => Function.update degree edge.2 (degree edge.2 + 1)) fun _ => 0

/-- The targets of each vertex, in the order of the edges. -/
def outgoing (edges : List (Nat × Nat)) : Nat → List Nat :=
  edges.foldl (fun out edge => Function.update out edge.1 (out edge.1 ++ [edge.2])) fun _ => []

/-- Removes one edge into `next`. -/
def release (s : KahnState) (next : Nat) : KahnState :=
  let degree := s.inDegree next - 1
  { s with
    inDegree := Function.update s.inDegree next degree
    ready := if degree = 0 then enqueue s.ready next else s.ready }

/-- At most `fuel` rounds of the loop over the queue. -/
def kahnLoop (out : Nat → List Nat) : Nat → KahnState → KahnState
  | 0, s => s
  | fuel + 1, s =>
    match s.ready with
    | [] => s
    | p :: ready =>
      kahnLoop out fuel ((out p).foldl release { s with ready, order := s.order ++ [p] })

/-- Before the loop what has no edge into it is ready. -/
def kahnStart (n : Nat) (edges : List (Nat × Nat)) : KahnState where
  inDegree := inDegrees edges
  ready := (List.range n).foldl
    (fun ready p => if inDegrees edges p = 0 then enqueue ready p else ready) []
  order := []

/-- Every round takes a vertex out for good, so `n` rounds are enough. -/
def kahn (n : Nat) (edges : List (Nat × Nat)) : KahnState :=
  kahnLoop (outgoing edges) n (kahnStart n edges)

-- ---------------------------------------------------------------------------
-- Degrees
-- ---------------------------------------------------------------------------

/-- The loop counts the edges into a vertex. -/
theorem inDegrees_eq (edges : List (Nat × Nat)) (q : Nat) :
    inDegrees edges q = edges.countP fun edge => edge.2 = q := by
  have hFold : ∀ (edges : List (Nat × Nat)) (degree : Nat → Nat),
      edges.foldl (fun degree edge => Function.update degree edge.2 (degree edge.2 + 1))
        degree q = degree q + edges.countP fun edge => edge.2 = q := by
    intro edges
    induction edges with
    | nil => intro degree; rfl
    | cons edge edges ih =>
      intro degree
      rw [List.foldl_cons, ih, List.countP_cons]
      by_cases hq : edge.2 = q
      · rw [← hq, Function.update_self]
        simp
        omega
      · rw [Function.update_of_ne (Ne.symm hq)]
        simp [hq]
  rw [inDegrees, hFold, Nat.zero_add]

/-- The loop collects the edges out of a vertex. -/
theorem outgoing_eq (edges : List (Nat × Nat)) (p : Nat) :
    outgoing edges p = (edges.filter fun edge => edge.1 = p).map Prod.snd := by
  have hFold : ∀ (edges : List (Nat × Nat)) (out : Nat → List Nat),
      edges.foldl (fun (out : Nat → List Nat) edge =>
        Function.update out edge.1 (out edge.1 ++ [edge.2])) out p =
      out p ++ (edges.filter fun edge => edge.1 = p).map Prod.snd := by
    intro edges
    induction edges with
    | nil => intro out; simp
    | cons edge edges ih =>
      intro out
      rw [List.foldl_cons, ih]
      by_cases hp : edge.1 = p
      · rw [← hp, Function.update_self]
        simp
      · rw [Function.update_of_ne (Ne.symm hp)]
        simp [hp]
  rw [outgoing, hFold, List.nil_append]

/-- A target is at the end of an edge. -/
theorem mem_outgoing {edges : List (Nat × Nat)} {p q : Nat} :
    q ∈ outgoing edges p ↔ (p, q) ∈ edges := by
  rw [outgoing_eq]
  simp

/-- The edges into `q` that are left. -/
def openDegree (edges : List (Nat × Nat)) (order : List Nat) (q : Nat) : Nat :=
  edges.countP fun edge => edge.2 = q ∧ edge.1 ∉ order

/-- Everything that a vertex waits for has been put out. -/
theorem openDegree_eq_zero {edges : List (Nat × Nat)} {order : List Nat} {q : Nat} :
    openDegree edges order q = 0 ↔ ∀ a, (a, q) ∈ edges → a ∈ order := by
  rw [openDegree, List.countP_eq_zero]
  constructor
  · intro h a hEdge
    by_contra hOut
    exact h (a, q) hEdge (by simp [hOut])
  · rintro h ⟨a, b⟩ hEdge hOpen
    simp only [decide_eq_true_eq] at hOpen
    obtain ⟨rfl, hOut⟩ := hOpen
    exact hOut (h a hEdge)

/-- Taking `p` out removes the edges that leave it. -/
theorem openDegree_snoc {edges : List (Nat × Nat)} {order : List Nat} {p : Nat}
    (hp : p ∉ order) (q : Nat) :
    openDegree edges order q =
      openDegree edges (order ++ [p]) q + (outgoing edges p).count q := by
  rw [outgoing_eq, openDegree, openDegree]
  induction edges with
  | nil => rfl
  | cons edge edges ih =>
    obtain ⟨a, b⟩ := edge
    rw [List.countP_cons, List.countP_cons, ih]
    by_cases ha : a = p
    · subst ha
      by_cases hb : b = q
      · simp [hb, hp]
        omega
      · simp [hb]
    · by_cases hb : b = q
      · simp [hb, ha]
        omega
      · simp [hb, ha]

-- ---------------------------------------------------------------------------
-- The queue
-- ---------------------------------------------------------------------------

/-- One more is in the queue. -/
theorem mem_enqueue {ready : List Nat} {p q : Nat} :
    q ∈ enqueue ready p ↔ q = p ∨ q ∈ ready := by
  rw [enqueue, (List.perm_orderedInsert _ p ready).mem_iff, List.mem_cons]

/-- What a priority queue keeps: least first, no vertex twice. -/
structure Queued (ready : List Nat) : Prop where
  sorted : ready.Pairwise (· ≤ ·)
  nodup : ready.Nodup

/-- The queue stays sorted. -/
theorem Queued.enqueue {ready : List Nat} (h : Queued ready) {p : Nat} (hp : p ∉ ready) :
    Queued (enqueue ready p) where
  sorted := h.sorted.orderedInsert p ready
  nodup := (List.perm_orderedInsert _ p ready).nodup_iff.mpr (List.nodup_cons.mpr ⟨hp, h.nodup⟩)

/-- Removing the edges into `targets`: the degrees fall by what is removed, and the
vertices that lose their last edge join the queue. -/
theorem foldl_release : ∀ (targets : List Nat) (s : KahnState), Queued s.ready →
    (∀ q ∈ s.ready, s.inDegree q = 0) → (∀ q, targets.count q ≤ s.inDegree q) →
    Queued (targets.foldl release s).ready ∧
    (targets.foldl release s).order = s.order ∧
    (∀ q, (targets.foldl release s).inDegree q = s.inDegree q - targets.count q) ∧
    ∀ q, q ∈ (targets.foldl release s).ready ↔
      q ∈ s.ready ∨ (q ∈ targets ∧ s.inDegree q = targets.count q)
  | [], s, hQueued, _, _ => ⟨hQueued, rfl, fun _ => rfl, fun q => by simp⟩
  | t :: targets, s, hQueued, hZero, hCount => by
    have hPos : targets.count t + 1 ≤ s.inDegree t := by
      have hHead := hCount t
      rwa [List.count_cons_self] at hHead
    have hOut : t ∉ s.ready := fun hMem => by
      have hNone := hZero t hMem
      omega
    have hReady : Queued (release s t).ready := by
      unfold release
      by_cases hLast : s.inDegree t - 1 = 0
      · simp only [hLast, if_true]
        exact hQueued.enqueue hOut
      · simp only [hLast, if_false]
        exact hQueued
    have hMemReady : ∀ q, q ∈ (release s t).ready ↔
        q ∈ s.ready ∨ (q = t ∧ s.inDegree t = 1) := by
      intro q
      unfold release
      by_cases hLast : s.inDegree t - 1 = 0
      · have hOne : s.inDegree t = 1 := by omega
        simp [hOne, mem_enqueue, or_comm]
      · have hMore : s.inDegree t ≠ 1 := by omega
        simp [hLast, hMore]
    have hDegree : ∀ q, (release s t).inDegree q =
        if q = t then s.inDegree t - 1 else s.inDegree q := by
      intro q
      exact Function.update_apply _ _ _ _
    have hZero' : ∀ q ∈ (release s t).ready, (release s t).inDegree q = 0 := by
      intro q hMem
      rw [hDegree]
      rcases (hMemReady q).mp hMem with hOld | ⟨rfl, hOne⟩
      · rw [if_neg (fun hEq : q = t => hOut (hEq ▸ hOld)), hZero q hOld]
      · rw [if_pos rfl, hOne]
    have hCount' : ∀ q, targets.count q ≤ (release s t).inDegree q := by
      intro q
      rw [hDegree]
      by_cases hq : q = t
      · subst hq
        rw [if_pos rfl]
        omega
      · rw [if_neg hq]
        have hOther := hCount q
        rwa [List.count_cons_of_ne (Ne.symm hq)] at hOther
    obtain ⟨hQueued', hOrder, hDegrees, hMem⟩ :=
      foldl_release targets (release s t) hReady hZero' hCount'
    rw [List.foldl_cons]
    refine ⟨hQueued', hOrder, fun q => ?_, fun q => ?_⟩
    · rw [hDegrees, hDegree]
      by_cases hq : q = t
      · subst hq
        rw [if_pos rfl, List.count_cons_self]
        omega
      · rw [if_neg hq, List.count_cons_of_ne (Ne.symm hq)]
    · rw [hMem, hMemReady, hDegree]
      by_cases hq : q = t
      · subst hq
        have hSeen : q ∈ targets ↔ 0 < targets.count q := List.count_pos_iff.symm
        rw [if_pos rfl, List.count_cons_self, hSeen]
        simp only [hOut, List.mem_cons_self, true_and, false_or]
        omega
      · rw [if_neg hq, List.count_cons_of_ne (Ne.symm hq)]
        simp [hq]

-- ---------------------------------------------------------------------------
-- The loop
-- ---------------------------------------------------------------------------

/-- What every round of the loop keeps. -/
structure KahnInv (n : Nat) (edges : List (Nat × Nat)) (s : KahnState) : Prop where
  nodup : s.order.Nodup
  lt : ∀ p ∈ s.order, p < n
  queued : Queued s.ready
  degree : ∀ q, s.inDegree q = openDegree edges s.order q
  mem_ready : ∀ q, q ∈ s.ready ↔ q < n ∧ q ∉ s.order ∧ s.inDegree q = 0
  ready : ∀ before p after, s.order = before ++ p :: after →
    ∀ a, (a, p) ∈ edges → a ∈ before
  least : ∀ before p after, s.order = before ++ p :: after →
    ∀ q, q < n → q ∉ before → (∀ a, (a, q) ∈ edges → a ∈ before) → p ≤ q

/-- A vertex of the longer order is the new one or was there before. -/
theorem split_snoc {α : Type} {order before after : List α} {p q : α}
    (h : order ++ [p] = before ++ q :: after) :
    (before = order ∧ q = p) ∨ ∃ after', order = before ++ q :: after' := by
  rcases List.eq_nil_or_concat after with rfl | ⟨after', r, rfl⟩
  · have hSplit := List.append_inj' h rfl
    exact Or.inl ⟨hSplit.1.symm, (List.cons.inj hSplit.2).1.symm⟩
  · rw [List.concat_eq_append, ← List.cons_append, ← List.append_assoc] at h
    exact Or.inr ⟨after', (List.append_inj' h rfl).1⟩

/-- The invariant at the start. -/
theorem kahnInv_start (n : Nat) (edges : List (Nat × Nat)) :
    KahnInv n edges (kahnStart n edges) := by
  have hDegree : ∀ q, inDegrees edges q = openDegree edges [] q := by
    intro q
    rw [inDegrees_eq, openDegree]
    simp
  -- the vertices put into the queue so far are the tested ones without edges
  have hFold : ∀ (vertices ready : List Nat), Queued ready → vertices.Nodup →
      (∀ p ∈ vertices, p ∉ ready) →
      Queued (vertices.foldl
        (fun ready p => if inDegrees edges p = 0 then enqueue ready p else ready) ready) ∧
      ∀ q, q ∈ vertices.foldl
        (fun ready p => if inDegrees edges p = 0 then enqueue ready p else ready) ready ↔
          q ∈ ready ∨ (q ∈ vertices ∧ inDegrees edges q = 0) := by
    intro vertices
    induction vertices with
    | nil => intro ready hQueued _ _; exact ⟨hQueued, fun q => by simp⟩
    | cons p vertices ih =>
      intro ready hQueued hNodup hFresh
      obtain ⟨hp, hNodup⟩ := List.nodup_cons.mp hNodup
      have hNew := hFresh p List.mem_cons_self
      have hRest : ∀ q ∈ vertices, q ∉ ready := fun q hq => hFresh q (List.mem_cons_of_mem _ hq)
      rw [List.foldl_cons]
      by_cases hZero : inDegrees edges p = 0
      · rw [if_pos hZero]
        have hFresh' : ∀ q ∈ vertices, q ∉ enqueue ready p := by
          intro q hq hMem
          rcases mem_enqueue.mp hMem with rfl | hOld
          · exact hp hq
          · exact hRest q hq hOld
        obtain ⟨hQueued', hMem⟩ := ih _ (hQueued.enqueue hNew) hNodup hFresh'
        refine ⟨hQueued', fun q => ?_⟩
        rw [hMem, mem_enqueue, List.mem_cons]
        by_cases hq : q = p
        · simp [hq, hZero]
        · simp [hq]
      · rw [if_neg hZero]
        obtain ⟨hQueued', hMem⟩ := ih ready hQueued hNodup hRest
        refine ⟨hQueued', fun q => ?_⟩
        rw [hMem, List.mem_cons]
        by_cases hq : q = p
        · simp [hq, hZero, hp]
        · simp [hq]
  obtain ⟨hQueued, hMem⟩ := hFold (List.range n) [] ⟨List.Pairwise.nil, List.nodup_nil⟩
    List.nodup_range fun _ _ => List.not_mem_nil
  have hNil : ∀ (before after : List Nat) (p : Nat), [] ≠ before ++ p :: after :=
    fun before after p h => by simp at h
  refine ⟨List.nodup_nil, fun p hp => absurd hp List.not_mem_nil, hQueued, hDegree,
    fun q => ?_, fun before p after h => absurd h (hNil before after p),
    fun before p after h => absurd h (hNil before after p)⟩
  refine (hMem q).trans ?_
  simp [kahnStart]

/-- One round: the least vertex of the queue is taken out with its edges. -/
theorem KahnInv.round {n : Nat} {edges : List (Nat × Nat)}
    (hEdges : ∀ edge ∈ edges, edge.2 < n) {s : KahnState} (h : KahnInv n edges s) {p : Nat}
    {ready : List Nat} (hReady : s.ready = p :: ready) :
    KahnInv n edges
      ((outgoing edges p).foldl release { s with ready, order := s.order ++ [p] }) := by
  have hMemReady := h.mem_ready
  rw [hReady] at hMemReady
  obtain ⟨hpn, hpOut, hpZero⟩ := (hMemReady p).mp List.mem_cons_self
  have hSorted := h.queued.sorted
  have hNodup := h.queued.nodup
  rw [hReady] at hSorted hNodup
  obtain ⟨hLeast, hSorted⟩ := List.pairwise_cons.mp hSorted
  obtain ⟨hpReady, hNodup⟩ := List.nodup_cons.mp hNodup
  have hPreds := openDegree_eq_zero.mp ((h.degree p).symm.trans hpZero)
  have hSplitDegree := fun q => (h.degree q).trans (openDegree_snoc hpOut q)
  have hCount : ∀ q, (outgoing edges p).count q ≤ s.inDegree q := by
    intro q
    rw [hSplitDegree]
    exact Nat.le_add_left _ _
  have hZero : ∀ q ∈ ready, s.inDegree q = 0 := fun q hq =>
    ((hMemReady q).mp (List.mem_cons_of_mem _ hq)).2.2
  obtain ⟨hQueued, hOrder, hDegree, hMem⟩ := foldl_release (outgoing edges p)
    { s with ready, order := s.order ++ [p] } ⟨hSorted, hNodup⟩ hZero hCount
  -- a vertex with an edge from `p` is not out yet
  have hTarget : ∀ q, (p, q) ∈ edges → q ∉ s.order ∧ q ≠ p := by
    intro q hEdge
    constructor
    · intro hq
      obtain ⟨before, after, hSplit⟩ := List.append_of_mem hq
      have hBefore := h.ready _ _ _ hSplit p hEdge
      exact hpOut (hSplit ▸ List.mem_append_left _ hBefore)
    · rintro rfl
      exact hpOut (hPreds q hEdge)
  refine ⟨?_, ?_, hQueued, ?_, ?_, ?_, ?_⟩
  · rw [hOrder]
    exact List.nodup_append.mpr ⟨h.nodup, List.nodup_singleton p, fun a ha b hb hEq =>
      hpOut (List.mem_singleton.mp hb ▸ hEq ▸ ha)⟩
  · intro q hq
    rw [hOrder] at hq
    rcases List.mem_append.mp hq with hOld | hNew
    · exact h.lt q hOld
    · rw [List.mem_singleton.mp hNew]
      exact hpn
  · intro q
    rw [hDegree, hOrder]
    show s.inDegree q - _ = _
    rw [hSplitDegree]
    exact Nat.add_sub_cancel _ _
  · intro q
    rw [hMem, hDegree, hOrder, mem_outgoing]
    show q ∈ ready ∨ (p, q) ∈ edges ∧ s.inDegree q = _ ↔ _ ∧ _ ∧ s.inDegree q - _ = 0
    have hOld := hMemReady q
    rw [List.mem_cons] at hOld
    rw [List.mem_append, List.mem_singleton, not_or]
    have hBound := hCount q
    constructor
    · rintro (hIn | ⟨hEdge, hLast⟩)
      · obtain ⟨hqn, hqOut, hqZero⟩ := hOld.mp (Or.inr hIn)
        refine ⟨hqn, ⟨hqOut, fun hEq => hpReady (hEq ▸ hIn)⟩, ?_⟩
        rw [hqZero, Nat.zero_sub]
      · refine ⟨hEdges _ hEdge, hTarget q hEdge, ?_⟩
        rw [hLast, Nat.sub_self]
    · rintro ⟨hqn, ⟨hqOut, hqp⟩, hGone⟩
      by_cases hEdge : (p, q) ∈ edges
      · exact Or.inr ⟨hEdge, by omega⟩
      · have hNone : (outgoing edges p).count q = 0 :=
          List.count_eq_zero.mpr fun hIn => hEdge (mem_outgoing.mp hIn)
        have hIn := hOld.mpr ⟨hqn, hqOut, by omega⟩
        exact Or.inl (hIn.resolve_left hqp)
  · intro before q after hSplit
    rw [hOrder] at hSplit
    rcases split_snoc hSplit with ⟨rfl, rfl⟩ | ⟨after', hSplit⟩
    · exact hPreds
    · exact h.ready _ _ _ hSplit
  · intro before q after hSplit x hx hxOut hxPreds
    rw [hOrder] at hSplit
    rcases split_snoc hSplit with ⟨rfl, rfl⟩ | ⟨after', hSplit⟩
    · -- `x` is ready too, and the queue gives out the least
      have hxZero := (h.degree x).trans (openDegree_eq_zero.mpr hxPreds)
      rcases List.mem_cons.mp ((hMemReady x).mpr ⟨hx, hxOut, hxZero⟩) with rfl | hIn
      · exact le_refl _
      · exact hLeast x hIn
    · exact h.least _ _ _ hSplit x hx hxOut hxPreds

/-- The invariant after the loop, by induction on the fuel. -/
theorem KahnInv.loop {n : Nat} {edges : List (Nat × Nat)}
    (hEdges : ∀ edge ∈ edges, edge.2 < n) : ∀ (fuel : Nat) (s : KahnState),
    KahnInv n edges s → KahnInv n edges (kahnLoop (outgoing edges) fuel s)
  | 0, _, h => h
  | fuel + 1, s, h => by
    rw [kahnLoop]
    rcases hReady : s.ready with - | ⟨p, ready⟩
    · exact h
    · exact KahnInv.loop hEdges fuel _ (h.round hEdges hReady)

/-- An order with all vertices is a least-first one. -/
theorem leastFirst_kahn {n : Nat} {edges : List (Nat × Nat)}
    (hEdges : ∀ edge ∈ edges, edge.2 < n) (hAll : (kahn n edges).order.length = n) :
    LeastFirst (· < n) (fun a b => (a, b) ∈ edges) (kahn n edges).order := by
  have h : KahnInv n edges (kahn n edges) := KahnInv.loop hEdges n _ (kahnInv_start n edges)
  refine ⟨h.nodup, fun p => ⟨h.lt p, fun hp => ?_⟩, h.ready, h.least⟩
  have hPerm : (kahn n edges).order.Perm (List.range n) := by
    refine (List.subperm_of_subset h.nodup fun q hq => List.mem_range.mpr (h.lt q hq)).perm_of_length_le ?_
    rw [hAll, List.length_range]
  exact hPerm.mem_iff.mpr (List.mem_range.mpr hp)

/-- Releasing targets puts nothing out. -/
theorem order_foldl_release (targets : List Nat) (s : KahnState) :
    (targets.foldl release s).order = s.order := by
  induction targets generalizing s with
  | nil => rfl
  | cons next targets ih =>
    rw [List.foldl_cons, ih]
    rfl

/-- The loop stops on an empty queue, or when its rounds are used up. -/
theorem kahnLoop_done (out : Nat → List Nat) (fuel : Nat) (s : KahnState) :
    (kahnLoop out fuel s).ready = [] ∨
      (kahnLoop out fuel s).order.length = s.order.length + fuel := by
  induction fuel generalizing s with
  | zero => exact Or.inr rfl
  | succ fuel ih =>
    rw [kahnLoop]
    rcases hReady : s.ready with - | ⟨p, ready⟩
    · exact Or.inl hReady
    · have hRound := ih ((out p).foldl release { s with ready, order := s.order ++ [p] })
      rw [order_foldl_release, List.length_append, List.length_singleton] at hRound
      refine hRound.imp_right fun hLength => ?_
      rw [hLength]
      omega

/-- Without cycles every vertex is listed. -/
theorem kahn_complete {n : Nat} {edges : List (Nat × Nat)}
    (hEdges : ∀ edge ∈ edges, edge.1 < n ∧ edge.2 < n)
    (hAcyclic : WellFounded fun a b => (a, b) ∈ edges) : (kahn n edges).order.length = n := by
  have h : KahnInv n edges (kahn n edges) :=
    KahnInv.loop (fun edge hEdge => (hEdges edge hEdge).2) n _ (kahnInv_start n edges)
  rcases kahnLoop_done (outgoing edges) n (kahnStart n edges) with hEmpty | hLength
  · -- a vertex whose predecessors are all listed would be in the queue
    have hAll : ∀ q, q < n → q ∈ (kahn n edges).order := by
      intro q
      induction q using hAcyclic.induction with
      | _ q ih =>
        intro hq
        by_contra hOut
        have hZero := (h.degree q).trans
          (openDegree_eq_zero.mpr fun a hEdge => ih a hEdge (hEdges _ hEdge).1)
        have hQueued := (h.mem_ready q).mpr ⟨hq, hOut, hZero⟩
        rw [show (kahn n edges).ready = [] from hEmpty] at hQueued
        cases hQueued
    have hPerm : (kahn n edges).order.Perm (List.range n) := by
      refine (List.perm_ext_iff_of_nodup h.nodup List.nodup_range).mpr fun q => ?_
      rw [List.mem_range]
      exact ⟨h.lt q, hAll q⟩
    rw [hPerm.length_eq, List.length_range]
  · have hStart : (kahnStart n edges).order.length = 0 := rfl
    rw [hStart, Nat.zero_add] at hLength
    exact hLength

/-- A relation that leads from a finite set, and never in a circle, is well-founded. -/
theorem wellFounded_of_acyclic {α : Type} {E : α → α → Prop} {S : Set α} (hFinite : S.Finite)
    (hSource : ∀ a b, E a b → a ∈ S) (hAcyclic : ∀ p, ¬Relation.TransGen E p p) :
    WellFounded E := by
  have hTypeFinite : Finite S := hFinite
  let reaches : S → S → Prop := fun a b => Relation.TransGen E a b
  have hTrans : IsTrans S reaches := ⟨fun _ _ _ hab hbc => hab.trans hbc⟩
  have hIrrefl : Std.Irrefl reaches := ⟨fun a => hAcyclic a⟩
  have hReaches : WellFounded reaches := Finite.wellFounded_of_trans_of_irrefl reaches
  have hAcc : ∀ a : S, Acc E a := by
    intro a
    induction a using hReaches.induction with
    | _ a ih => exact Acc.intro _ fun b hE => ih ⟨b, hSource b a hE⟩ (.single hE)
  exact ⟨fun q => Acc.intro q fun a hE => hAcc ⟨a, hSource a q hE⟩⟩

/-- The vertices are all listed exactly when no edges lead in a circle. -/
theorem kahn_complete_iff {n : Nat} {edges : List (Nat × Nat)}
    (hEdges : ∀ edge ∈ edges, edge.1 < n ∧ edge.2 < n) :
    (kahn n edges).order.length = n ↔
      ∀ p, ¬Relation.TransGen (fun a b => (a, b) ∈ edges) p p := by
  constructor
  · intro hAll p hCycle
    obtain ⟨a, -, hLast⟩ := Relation.TransGen.tail'_iff.mp hCycle
    have hp : p < n := (hEdges _ hLast).2
    exact (leastFirst_kahn (fun edge hEdge => (hEdges edge hEdge).2) hAll).acyclic hp hCycle
  · intro hAcyclic
    refine kahn_complete hEdges (wellFounded_of_acyclic (Set.finite_lt_nat n) ?_ hAcyclic)
    intro a b hEdge
    exact (hEdges _ hEdge).1

end Ithax.Lib
