import Mathlib.Data.List.Lex
import Mathlib.Data.List.Nodup
import Mathlib.Logic.Relation
import Mathlib.Order.Lattice
import Mathlib.Order.RelClasses
import Mathlib.Data.Nat.Find

/-!
# Least-first topological orders

A topological order that always goes on with the least element whose predecessors
are all done. `precedes_iff` says which of two elements comes first without running
anything: going down from the largest element `m`, the elements that `m` leads to
come after all others, and elements on the same side are told apart by the next `m`
of their side.
-/

namespace Ithax.Lib

variable {α : Type} [LinearOrder α]

/-- `order` lists `S` so that each element is, at its turn, the least of those whose
`E`-predecessors have come before. -/
structure LeastFirst (S : α → Prop) (E : α → α → Prop) (order : List α) : Prop where
  nodup : order.Nodup
  mem_iff : ∀ p, p ∈ order ↔ S p
  ready : ∀ before p after, order = before ++ p :: after → ∀ a, E a p → a ∈ before
  least : ∀ before p after, order = before ++ p :: after →
    ∀ q, S q → q ∉ before → (∀ a, E a q → a ∈ before) → p ≤ q

/-- What comes before an element of the order is in the part in front of it. -/
theorem idxOf_lt_iff_mem_before {order before after : List α} {p a : α}
    (hNodup : order.Nodup) (hSplit : order = before ++ p :: after) :
    order.idxOf a < order.idxOf p ↔ a ∈ before := by
  subst hSplit
  have hp : p ∉ before := by
    intro hMem
    exact (List.nodup_append.mp hNodup).2.2 p hMem p List.mem_cons_self rfl
  rw [List.idxOf_append_of_notMem hp, List.idxOf_cons_self, Nat.add_zero]
  constructor
  · intro hLt
    by_contra hOut
    rw [List.idxOf_append_of_notMem hOut] at hLt
    omega
  · intro hMem
    rw [List.idxOf_append_of_mem hMem]
    exact List.idxOf_lt_length_of_mem hMem

/-- Two lists of one length are in order if the elements are with which they first differ. -/
theorem le_of_first_difference {xs ys : List α} (hLength : xs.length = ys.length)
    (hFirst : ∀ before x y after after', xs = before ++ x :: after → ys = before ++ y :: after' →
      x ≤ y) : xs ≤ ys := by
  induction xs generalizing ys with
  | nil =>
    rw [List.length_eq_zero_iff.mp hLength.symm]
  | cons x xs ih =>
    cases ys with
    | nil => cases hLength
    | cons y ys =>
      have hHead : x ≤ y := hFirst [] x y xs ys rfl rfl
      rcases lt_or_eq_of_le hHead with hLt | rfl
      · exact le_of_lt (List.Lex.rel hLt)
      · refine List.cons_le_cons x (ih (Nat.succ.inj hLength) ?_)
        intro before x' y' after after' hxs hys
        exact hFirst (x :: before) x' y' after after' (congrArg _ hxs) (congrArg _ hys)

namespace LeastFirst

variable {S : α → Prop} {E : α → α → Prop} {order : List α} (h : LeastFirst S E order)

include h

/-- An edge leads forward. -/
theorem edge_lt {a b : α} (hb : S b) (hE : E a b) : order.idxOf a < order.idxOf b := by
  obtain ⟨before, after, hSplit⟩ := List.append_of_mem ((h.mem_iff b).mpr hb)
  exact (idxOf_lt_iff_mem_before h.nodup hSplit).mpr (h.ready _ _ _ hSplit a hE)

/-- What leads into the set is in it. -/
theorem edge_mem {a b : α} (hb : S b) (hE : E a b) : S a := by
  obtain ⟨before, after, hSplit⟩ := List.append_of_mem ((h.mem_iff b).mpr hb)
  have hMem := h.ready _ _ _ hSplit a hE
  exact (h.mem_iff a).mp (hSplit ▸ List.mem_append_left _ hMem)

/-- An element whose predecessors are all in front of `p` is not smaller than `p`. -/
theorem le_of_ready {p q : α} (hp : S p) (hq : S q) (hAfter : order.idxOf p ≤ order.idxOf q)
    (hReady : ∀ a, E a q → order.idxOf a < order.idxOf p) : p ≤ q := by
  obtain ⟨before, after, hSplit⟩ := List.append_of_mem ((h.mem_iff p).mpr hp)
  have hBefore := fun a => idxOf_lt_iff_mem_before (a := a) h.nodup hSplit
  refine h.least _ _ _ hSplit q hq ?_ fun a hE => (hBefore a).mp (hReady a hE)
  intro hMem
  exact absurd ((hBefore q).mpr hMem) (Nat.not_lt.mpr hAfter)

/-- Elements of the set differ in their places. -/
theorem eq_of_idxOf_eq {p q : α} (hp : S p) (hEq : order.idxOf p = order.idxOf q) : p = q :=
  (List.idxOf_inj ((h.mem_iff p).mpr hp)).mp hEq

/-- So is what leads there along many edges. -/
theorem reach_mem {a b : α} (hb : S b) (hReach : Relation.ReflTransGen E a b) : S a := by
  induction hReach using Relation.ReflTransGen.head_induction_on with
  | refl => exact hb
  | head hE _ ih => exact h.edge_mem ih hE

/-- Along edges one does not go back. -/
theorem reach_le {a b : α} (hb : S b) (hReach : Relation.ReflTransGen E a b) :
    order.idxOf a ≤ order.idxOf b := by
  induction hReach using Relation.ReflTransGen.head_induction_on with
  | refl => exact le_refl _
  | head hE hRest ih => exact le_trans (h.edge_lt (h.reach_mem hb hRest) hE).le ih

/-- Along at least one edge one goes forward. -/
theorem trans_lt {a b : α} (hb : S b) (hReach : Relation.TransGen E a b) :
    order.idxOf a < order.idxOf b := by
  induction hReach using Relation.TransGen.head_induction_on with
  | single hE => exact h.edge_lt hb hE
  | head hE hRest ih =>
    have hNext := h.edge_lt (h.reach_mem hb hRest.to_reflTransGen) hE
    exact lt_trans hNext ih

/-- What can be ordered has no cycles. -/
theorem acyclic {p : α} (hp : S p) : ¬Relation.TransGen E p p :=
  fun hCycle => lt_irrefl _ (h.trans_lt hp hCycle)

/-- Of all orders in which predecessors come first, the least-first one is the smallest. -/
theorem lex_le {other : List α} (hPerm : other.Perm order)
    (hReady : ∀ before p after, other = before ++ p :: after → ∀ a, E a p → a ∈ before) :
    order ≤ other := by
  refine le_of_first_difference hPerm.length_eq.symm fun before x y after after' hOrder hOther => ?_
  refine h.least before x after hOrder y ?_ ?_ (hReady before y after' hOther)
  · refine (h.mem_iff y).mp (hPerm.mem_iff.mp ?_)
    rw [hOther]
    simp
  · intro hMem
    have hNodup := hPerm.nodup_iff.mpr h.nodup
    rw [hOther] at hNodup
    exact (List.nodup_append.mp hNodup).2.2 y hMem y List.mem_cons_self rfl

/-- What comes after `m` is led to by something at least as large that `m` does not
come after. -/
theorem exists_source {m x : α} (hm : S m) (hx : S x) (hAfter : order.idxOf m ≤ order.idxOf x) :
    ∃ y, Relation.ReflTransGen E y x ∧ m ≤ y ∧ order.idxOf m ≤ order.idxOf y ∧
      order.idxOf y ≤ order.idxOf x := by
  classical
  -- the first ancestor of `x` that does not come before `m` is ready at the turn of `m`
  have hSome : ∃ n y, Relation.ReflTransGen E y x ∧ order.idxOf m ≤ order.idxOf y ∧
      order.idxOf y = n := ⟨_, x, .refl, hAfter, rfl⟩
  obtain ⟨y, hReach, hFrom, hPos⟩ := Nat.find_spec hSome
  have hMin := fun n (hn : n < Nat.find hSome) => Nat.find_min hSome hn
  have hy := h.reach_mem hx hReach
  refine ⟨y, hReach, h.le_of_ready hm hy hFrom fun a hE => ?_, hFrom, h.reach_le hx hReach⟩
  by_contra hLate
  have hLt := h.edge_lt hy hE
  exact hMin (order.idxOf a) (hPos ▸ hLt)
    ⟨a, .head hE hReach, Nat.le_of_not_lt hLate, rfl⟩

/-- Where edges lead from smaller to larger elements, the order is that of the elements. -/
theorem le_of_increasing [WellFoundedLT α] (hIncreasing : ∀ {a b}, E a b → a < b) {p q : α}
    (hp : S p) (hq : S q) (hAfter : order.idxOf p ≤ order.idxOf q) : p ≤ q := by
  induction q using WellFoundedLT.induction with
  | _ q ih =>
    by_cases hReady : ∀ a, E a q → order.idxOf a < order.idxOf p
    · exact h.le_of_ready hp hq hAfter hReady
    · push Not at hReady
      obtain ⟨a, hE, hLate⟩ := hReady
      have hLt := hIncreasing hE
      exact (ih a hLt (h.edge_mem hq hE) hLate).trans hLt.le

end LeastFirst

/-- Whether `a` comes before `b` in the part `block`, going down the list `ids`. -/
def Precedes (reach : α → α → Prop) : List α → (α → Prop) → α → α → Prop
  | [], _, _, _ => False
  | m :: ids, block, a, b =>
    (¬block m ∧ Precedes reach ids block a b) ∨
    (block m ∧ reach m b ∧ ¬reach m a) ∨
    (block m ∧ reach m a ∧ reach m b ∧
      Precedes reach ids (fun x => block x ∧ reach m x) a b) ∨
    (block m ∧ ¬reach m a ∧ ¬reach m b ∧
      Precedes reach ids (fun x => block x ∧ ¬reach m x) a b)

/-- A stretch of the order in which the elements outside `ids` lead to all others. -/
structure Stretch (E : α → α → Prop) (order : List α) (S : α → Prop) (ids : List α)
    (block : α → Prop) : Prop where
  mem : ∀ x, block x → S x
  convex : ∀ {x y z}, block x → block z → S y → order.idxOf x ≤ order.idxOf y →
    order.idxOf y ≤ order.idxOf z → block y
  top : ∀ {y x}, block y → y ∉ ids → block x → Relation.ReflTransGen E y x

section Precedes

variable {S : α → Prop} {E : α → α → Prop} {order : List α} (h : LeastFirst S E order)
  {m : α} {ids : List α} {block : α → Prop} (hLarger : ∀ x ∈ ids, x < m)

include h hLarger

/-- In a stretch whose largest open element is `m`, what `m` leads to is what does not
come before `m`. -/
theorem Stretch.reach_iff (hStretch : Stretch E order S (m :: ids) block) (hm : block m)
    {x : α} (hx : block x) :
    Relation.ReflTransGen E m x ↔ order.idxOf m ≤ order.idxOf x := by
  refine ⟨h.reach_le (hStretch.mem x hx), fun hAfter => ?_⟩
  obtain ⟨y, hReach, hLe, hFrom, hTo⟩ :=
    h.exists_source (hStretch.mem m hm) (hStretch.mem x hx) hAfter
  have hy := h.reach_mem (hStretch.mem x hx) hReach
  rcases eq_or_lt_of_le hLe with rfl | hLt
  · exact hReach
  · -- a larger `y` of the stretch would lead to `m`
    have hBlock := hStretch.convex hm hx hy hFrom hTo
    have hOut : y ∉ m :: ids := by
      intro hMem
      rcases List.mem_cons.mp hMem with rfl | hIn
      · exact lt_irrefl _ hLt
      · exact lt_asymm hLt (hLarger y hIn)
    have hBack := h.reach_le (hStretch.mem m hm) (hStretch.top hBlock hOut hm)
    exact absurd (h.eq_of_idxOf_eq (hStretch.mem m hm) (le_antisymm hFrom hBack)) (ne_of_lt hLt)

/-- The part of the block that `m` leads to. -/
theorem Stretch.after (hStretch : Stretch E order S (m :: ids) block) (hm : block m) :
    Stretch E order S ids fun x => block x ∧ Relation.ReflTransGen E m x where
  mem x hx := hStretch.mem x hx.1
  convex := by
    intro x y z hx hz hy hxy hyz
    have hBlock := hStretch.convex hx.1 hz.1 hy hxy hyz
    refine ⟨hBlock, (hStretch.reach_iff h hLarger hm hBlock).mpr (le_trans ?_ hxy)⟩
    exact (hStretch.reach_iff h hLarger hm hx.1).mp hx.2
  top := by
    intro y x hy hOut hx
    by_cases hSame : y = m
    · rw [hSame]
      exact hx.2
    · exact hStretch.top hy.1 (by simp [hSame, hOut]) hx.1

/-- The part of the block that `m` does not lead to. -/
theorem Stretch.before (hStretch : Stretch E order S (m :: ids) block) (hm : block m) :
    Stretch E order S ids fun x => block x ∧ ¬Relation.ReflTransGen E m x where
  mem x hx := hStretch.mem x hx.1
  convex := by
    intro x y z hx hz hy hxy hyz
    have hBlock := hStretch.convex hx.1 hz.1 hy hxy hyz
    refine ⟨hBlock, fun hReach => hz.2 ?_⟩
    have hFrom := (hStretch.reach_iff h hLarger hm hBlock).mp hReach
    exact (hStretch.reach_iff h hLarger hm hz.1).mpr (le_trans hFrom hyz)
  top := by
    intro y x hy hOut hx
    refine hStretch.top hy.1 ?_ hx.1
    intro hMem
    rcases List.mem_cons.mp hMem with rfl | hIn
    · exact hy.2 .refl
    · exact hOut hIn

omit h hLarger in
/-- An element outside of the block changes nothing. -/
theorem Stretch.skip (hStretch : Stretch E order S (m :: ids) block) (hm : ¬block m) :
    Stretch E order S ids block where
  mem := hStretch.mem
  convex := hStretch.convex
  top := by
    intro y x hy hOut hx
    refine hStretch.top hy ?_ hx
    intro hMem
    rcases List.mem_cons.mp hMem with rfl | hIn
    · exact hm hy
    · exact hOut hIn

end Precedes

/-- `Precedes` is the order, on every stretch of it. -/
theorem precedes_iff_of_stretch {S : α → Prop} {E : α → α → Prop} {order : List α}
    (h : LeastFirst S E order) : ∀ (ids : List α) (block : α → Prop) {a b : α},
    ids.Pairwise (· > ·) → Stretch E order S ids block → block a → block b →
    (Precedes (Relation.ReflTransGen E) ids block a b ↔ order.idxOf a < order.idxOf b)
  | [], block, a, b, _, hStretch, ha, hb => by
    -- everything in the stretch leads to everything
    have hBack := h.reach_le (hStretch.mem a ha) (hStretch.top hb List.not_mem_nil ha)
    exact iff_of_false id (Nat.not_lt.mpr hBack)
  | m :: ids, block, a, b, hSorted, hStretch, ha, hb => by
    obtain ⟨hLarger, hRest⟩ := List.pairwise_cons.mp hSorted
    rw [Precedes]
    by_cases hm : block m
    · have hReachA := hStretch.reach_iff h hLarger hm ha
      have hReachB := hStretch.reach_iff h hLarger hm hb
      by_cases hA : Relation.ReflTransGen E m a
      · by_cases hB : Relation.ReflTransGen E m b
        · have hSide := precedes_iff_of_stretch h ids _ hRest
            (hStretch.after h hLarger hm) ⟨ha, hA⟩ ⟨hb, hB⟩
          simp [hm, hA, hB, hSide]
        · have hOrder : ¬order.idxOf a < order.idxOf b := by
            have hFromA := hReachA.mp hA
            have hToB : order.idxOf b < order.idxOf m := Nat.lt_of_not_le (hB ∘ hReachB.mpr)
            omega
          simp [hm, hA, hB, hOrder]
      · by_cases hB : Relation.ReflTransGen E m b
        · have hOrder : order.idxOf a < order.idxOf b := by
            have hFromB := hReachB.mp hB
            have hToA : order.idxOf a < order.idxOf m := Nat.lt_of_not_le (hA ∘ hReachA.mpr)
            omega
          simp [hm, hA, hB, hOrder]
        · have hSide := precedes_iff_of_stretch h ids _ hRest
            (hStretch.before h hLarger hm) ⟨ha, hA⟩ ⟨hb, hB⟩
          simp [hm, hA, hB, hSide]
    · have hSide := precedes_iff_of_stretch h ids block hRest (hStretch.skip hm) ha hb
      simp [hm, hSide]

/-- Which of two elements a least-first order lists first. -/
theorem precedes_iff {S : α → Prop} {E : α → α → Prop} {order ids : List α}
    (h : LeastFirst S E order) (hSorted : ids.Pairwise (· > ·)) (hIds : ∀ x, S x → x ∈ ids)
    {a b : α} (ha : S a) (hb : S b) :
    Precedes (Relation.ReflTransGen E) ids S a b ↔ order.idxOf a < order.idxOf b := by
  have hAll : Stretch E order S ids S :=
    ⟨fun _ hx => hx, fun _ _ hy _ _ => hy, fun hy hOut _ => absurd (hIds _ hy) hOut⟩
  exact precedes_iff_of_stretch h ids S hSorted hAll ha hb

end Ithax.Lib
