import Mathlib.Data.List.Induction
import Mathlib.Data.Nat.Init

/-!
# Arenas

A block of memory that is given out from its front: each request takes the least aligned
start from the offset on, and a reset takes everything back.

* `alignUp_le_iff`     — the start that is taken is the least one there is;
* `Arena.Valid.take`   — blocks that are out stay apart when another is taken.
-/

namespace Ithax.Lib

-- ---------------------------------------------------------------------------
-- Aligned starts
-- ---------------------------------------------------------------------------

/-- The distance to the next multiple of `alignment`. -/
def paddingTo (offset alignment : Nat) : Nat :=
  if offset % alignment = 0 then 0 else alignment - offset % alignment

/-- The next multiple of `alignment`. -/
def alignUp (offset alignment : Nat) : Nat := offset + paddingTo offset alignment

/-- Nothing is taken back by aligning. -/
theorem le_alignUp (offset alignment : Nat) : offset ≤ alignUp offset alignment :=
  Nat.le_add_right _ _

/-- What is aligned is a multiple. -/
theorem dvd_alignUp {alignment : Nat} (h : 0 < alignment) (offset : Nat) :
    alignment ∣ alignUp offset alignment := by
  have hLess : offset % alignment < alignment := Nat.mod_lt _ h
  have hSplit : alignment * (offset / alignment) + offset % alignment = offset :=
    Nat.div_add_mod _ _
  unfold alignUp paddingTo
  by_cases hZero : offset % alignment = 0
  · simp [hZero, Nat.dvd_of_mod_eq_zero]
  · have hNext : offset + (alignment - offset % alignment) =
        alignment * (offset / alignment + 1) := by
      rw [Nat.mul_add, Nat.mul_one]
      omega
    rw [if_neg hZero, hNext]
    exact Nat.dvd_mul_right _ _

/-- A multiple of the alignment is from the offset on as soon as it is from the aligned
offset on. -/
theorem alignUp_le_iff {offset alignment start : Nat} (h : alignment ∣ start) :
    alignUp offset alignment ≤ start ↔ offset ≤ start := by
  have hFirst := le_alignUp offset alignment
  constructor
  · omega
  · intro hFrom
    obtain ⟨k, rfl⟩ := h
    have hSplit : alignment * (offset / alignment) + offset % alignment = offset :=
      Nat.div_add_mod _ _
    unfold alignUp paddingTo
    by_cases hZero : offset % alignment = 0
    · simp [hZero, hFrom]
    · -- the multiple is past the one below the offset
      have hPast : alignment * (offset / alignment) < alignment * k := by omega
      have hNext : offset / alignment + 1 ≤ k := Nat.lt_of_mul_lt_mul_left hPast
      have hTop := Nat.mul_le_mul_left alignment hNext
      rw [Nat.mul_add, Nat.mul_one] at hTop
      simp [hZero]
      omega

-- ---------------------------------------------------------------------------
-- Blocks
-- ---------------------------------------------------------------------------

/-- A block: where it starts, how long it is, and how it is aligned. -/
structure Block where
  start : Nat
  size : Nat
  alignment : Nat

/-- The blocks have no byte in common. -/
def Block.Apart (b c : Block) : Prop := b.start + b.size ≤ c.start ∨ c.start + c.size ≤ b.start

/-- What is out, the latest first, and the end of it. -/
structure Arena where
  offset : Nat
  blocks : List Block

namespace Arena

variable {arena : Arena} {capacity size alignment : Nat}

/-- Nothing is taken. -/
def empty : Arena := ⟨0, []⟩

/-- The block that a request takes. -/
def next (arena : Arena) (size alignment : Nat) : Block :=
  ⟨alignUp arena.offset alignment, size, alignment⟩

/-- The next block begins at the next multiple. -/
def take (arena : Arena) (size alignment : Nat) : Arena :=
  ⟨alignUp arena.offset alignment + size, arena.next size alignment :: arena.blocks⟩

/-- Whether a request has room, whatever start it is given. -/
def Fits (arena : Arena) (capacity size alignment : Nat) : Prop :=
  ∃ start, arena.offset ≤ start ∧ alignment ∣ start ∧ start + size ≤ capacity

/-- The blocks are aligned, apart from each other and within what is taken. -/
structure Valid (arena : Arena) (capacity : Nat) : Prop where
  offset_le : arena.offset ≤ capacity
  below : ∀ block ∈ arena.blocks, block.start + block.size ≤ arena.offset
  aligned : ∀ block ∈ arena.blocks, block.alignment ∣ block.start
  apart : arena.blocks.Pairwise Block.Apart

/-- An arena of which nothing is taken. -/
theorem valid_empty (capacity : Nat) : empty.Valid capacity where
  offset_le := Nat.zero_le _
  below := by simp [empty]
  aligned := by simp [empty]
  apart := by simp [empty]

/-- The least start is enough to know. -/
theorem fits_iff (h : 0 < alignment) :
    arena.Fits capacity size alignment ↔ alignUp arena.offset alignment + size ≤ capacity := by
  constructor
  · rintro ⟨start, hFrom, hAligned, hRoom⟩
    have hLeast := (alignUp_le_iff hAligned).mpr hFrom
    omega
  · intro hRoom
    exact ⟨_, le_alignUp _ _, dvd_alignUp h _, hRoom⟩

/-- The new block is past the offset, and so past every block that is out. -/
theorem Valid.take (hValid : arena.Valid capacity) (h : 0 < alignment)
    (hRoom : alignUp arena.offset alignment + size ≤ capacity) :
    (arena.take size alignment).Valid capacity where
  offset_le := hRoom
  below := by
    intro block hBlock
    have hFirst := le_alignUp arena.offset alignment
    simp only [Arena.take, List.mem_cons] at hBlock ⊢
    obtain rfl | hOld := hBlock
    · simp [next]
    · have hBelow := hValid.below block hOld
      omega
  aligned := by
    intro block hBlock
    simp only [Arena.take, List.mem_cons] at hBlock
    obtain rfl | hOld := hBlock
    · exact dvd_alignUp h _
    · exact hValid.aligned block hOld
  apart := by
    have hFirst := le_alignUp arena.offset alignment
    simp only [Arena.take, List.pairwise_cons]
    refine ⟨fun block hOld => ?_, hValid.apart⟩
    have hBelow := hValid.below block hOld
    unfold Block.Apart next
    simp only
    omega

end Arena

end Ithax.Lib
