import Ithax.Lib.Truncated

/-!
# Rows with a pitch

Slices of rows in one run of bytes. Each row takes `pitch` bytes, and the slices lie
`slicePitch` bytes from each other, so that row `y` of slice `z` begins at
`z * slicePitch + y * pitch`. A program that computes the two products in 32 bits may come
to another place.

## Results

* `row_within`            — where the rows of a slice fit the slice, each ends inside the slices.
* `last_row_within_iff`   — and only there: the last row says so.
* `truncated_offset_iff`  — when an offset from truncated products is the exact one.
* `mem_counters`          — the values that the counter of a loop takes.
-/

namespace Ithax.Lib.PitchedRows

/-- Where row `y` of slice `z` begins. -/
def rowOffset (pitch slicePitch z y : Nat) : Nat := z * slicePitch + y * pitch

section Bounds

variable {pitch slicePitch depth height z y : Nat}

/-- A row ends in the data when a slice holds its rows. -/
theorem row_within (hz : z < depth) (hy : y < height) (hFits : height * pitch ≤ slicePitch) :
    rowOffset pitch slicePitch z y + pitch ≤ slicePitch * depth := by
  have hRow : (y + 1) * pitch ≤ height * pitch := Nat.mul_le_mul_right pitch hy
  have hSlice : (z + 1) * slicePitch ≤ depth * slicePitch := Nat.mul_le_mul_right slicePitch hz
  rw [Nat.add_mul, Nat.one_mul] at hRow hSlice
  rw [Nat.mul_comm slicePitch depth]
  unfold rowOffset
  omega

/-- The last row decides. -/
theorem last_row_within_iff (hDepth : 0 < depth) (hHeight : 0 < height) :
    rowOffset pitch slicePitch (depth - 1) (height - 1) + pitch ≤ slicePitch * depth ↔
      height * pitch ≤ slicePitch := by
  obtain ⟨d, rfl⟩ : ∃ d, depth = d + 1 := ⟨depth - 1, by omega⟩
  obtain ⟨h, rfl⟩ : ∃ h, height = h + 1 := ⟨height - 1, by omega⟩
  have hSlices : slicePitch * (d + 1) = d * slicePitch + slicePitch := by
    rw [Nat.mul_add, Nat.mul_one, Nat.mul_comm]
  have hRows : (h + 1) * pitch = h * pitch + pitch := by rw [Nat.add_mul, Nat.one_mul]
  rw [hSlices, hRows, Nat.add_sub_cancel, Nat.add_sub_cancel]
  unfold rowOffset
  omega

end Bounds

-- ---------------------------------------------------------------------------
-- Products of 32 bits
-- ---------------------------------------------------------------------------

/-- Neither of two truncated products can make up for the other. -/
theorem truncated_offset_iff (pitch slicePitch z y : UInt32) :
    (z * slicePitch).toNat + (y * pitch).toNat =
        rowOffset pitch.toNat slicePitch.toNat z.toNat y.toNat ↔
      z.toNat * slicePitch.toNat < 2 ^ 32 ∧ y.toNat * pitch.toNat < 2 ^ 32 := by
  rw [← truncated_mul_iff, ← truncated_mul_iff]
  have hSlice := toNat_mul_le z slicePitch
  have hRow := toNat_mul_le y pitch
  unfold rowOffset
  omega

-- ---------------------------------------------------------------------------
-- Loops
-- ---------------------------------------------------------------------------

/-- The values of the counter in `for (uint32_t i = 0; i < n; ++i)`. -/
def counters (n : UInt32) : List UInt32 := (List.range n.toNat).map UInt32.ofNat

/-- The loop counts up to `n`. -/
theorem mem_counters {n i : UInt32} : i ∈ counters n ↔ i < n := by
  unfold counters
  rw [List.mem_map, UInt32.lt_iff_toNat_lt]
  constructor
  · rintro ⟨k, hk, rfl⟩
    have hLt : k < n.toNat := List.mem_range.mp hk
    have hSize : k < 2 ^ 32 := Nat.lt_trans hLt n.toNat_lt
    rw [UInt32.toNat_ofNat_of_lt' hSize]
    exact hLt
  · intro h
    exact ⟨i.toNat, List.mem_range.mpr h, UInt32.ofNat_toNat⟩

end Ithax.Lib.PitchedRows
