import Ithax.Marshal.PackedRow

/-!
# The layout of a packed row

Both column loops walk `sizeOrder`, the same permutation of the column
indices, and advance two counters: the byte offset into the packed scalars
and the index of the next boolean bit. Here is what those counters can be.

* `mem_sizeOrder` — an entry is a column index with that column's width;
* `sizeOrder_indices` — every index occurs, and occurs once;
* `scalarBytes_sizeOrder`, `boolBits_sizeOrder` — over the whole walk the
  counters end at the sizes the row was declared to have.
-/

namespace Ithax.Marshal

open Ithax.Lib

-- ---------------------------------------------------------------------------
-- Widths
-- ---------------------------------------------------------------------------

/-- Only a boolean has one bit. -/
theorem dbTypeSizeBits_eq_one {type : DbType} :
    dbTypeSizeBits type = 1 ↔ type = .bool := by
  cases type <;> simp [dbTypeSizeBits]

/-- Only a boolean is narrower than a byte. -/
theorem dbTypeSizeBits_dvd {type : DbType} (h : type ≠ .bool) :
    8 ∣ dbTypeSizeBits type := by
  cases type <;> simp [dbTypeSizeBits] at h ⊢

/-- Packed bytes a `sizeOrder` entry takes. -/
def entryBytes (entry : Nat × Nat) : Nat := if entry.1 = 1 then 0 else entry.1 / 8

/-- Packed bytes of a list of entries. -/
def scalarBytes (entries : List (Nat × Nat)) : Nat := (entries.map entryBytes).sum

/-- Boolean bits of a list of entries. -/
def boolBits (entries : List (Nat × Nat)) : Nat :=
  entries.countP fun entry => entry.1 == 1

/-- Entries one after the other, in bytes. -/
@[simp] theorem scalarBytes_append (xs ys : List (Nat × Nat)) :
    scalarBytes (xs ++ ys) = scalarBytes xs + scalarBytes ys := by
  simp [scalarBytes]

/-- One entry more, in bytes. -/
@[simp] theorem scalarBytes_cons (x : Nat × Nat) (xs : List (Nat × Nat)) :
    scalarBytes (x :: xs) = entryBytes x + scalarBytes xs := by
  simp [scalarBytes]

@[simp] theorem scalarBytes_nil : scalarBytes [] = 0 := rfl

/-- Entries one after the other, in bits. -/
@[simp] theorem boolBits_append (xs ys : List (Nat × Nat)) :
    boolBits (xs ++ ys) = boolBits xs + boolBits ys := by
  simp [boolBits]

/-- One entry more, in bits. -/
@[simp] theorem boolBits_cons (x : Nat × Nat) (xs : List (Nat × Nat)) :
    boolBits (x :: xs) = boolBits xs + if x.1 = 1 then 1 else 0 := by
  simp [boolBits, List.countP_cons]

@[simp] theorem boolBits_nil : boolBits [] = 0 := rfl

-- ---------------------------------------------------------------------------
-- The column order
-- ---------------------------------------------------------------------------

/-- The columns in declaration order, as `sizeOrder` entries. -/
def columnEntries (columns : List PackedColumn) : List (Nat × Nat) :=
  columns.zipIdx.map fun (column, i) => (dbTypeSizeBits column.type, i)

/-- The walk passes every column. -/
theorem sizeOrder_perm (columns : List PackedColumn) :
    (sizeOrder columns).Perm (columnEntries columns) :=
  List.perm_insertionSort _ _

/-- An entry of the walk is a column's index with its width. -/
theorem mem_sizeOrder {columns : List PackedColumn} {entry : Nat × Nat} :
    entry ∈ sizeOrder columns ↔
      ∃ column, columns[entry.2]? = some column ∧
        entry.1 = dbTypeSizeBits column.type := by
  obtain ⟨size, i⟩ := entry
  rw [(sizeOrder_perm columns).mem_iff, columnEntries, List.mem_map]
  constructor
  · rintro ⟨⟨column, j⟩, hMem, hEq⟩
    obtain ⟨rfl, rfl⟩ := Prod.mk.inj hEq
    exact ⟨column, List.mem_zipIdx_iff_getElem?.mp hMem, rfl⟩
  · rintro ⟨column, hColumn, hSize⟩
    exact ⟨(column, i), List.mem_zipIdx_iff_getElem?.mpr hColumn,
      Prod.ext hSize.symm rfl⟩

/-- Every index occurs. -/
theorem sizeOrder_indices (columns : List PackedColumn) :
    ((sizeOrder columns).map Prod.snd).Perm (List.range columns.length) := by
  refine ((sizeOrder_perm columns).map Prod.snd).trans ?_
  have hIdx : (columnEntries columns).map Prod.snd = List.range columns.length := by
    rw [columnEntries, List.map_map, List.range_eq_range',
      ← List.zipIdx_map_snd 0 columns]
    rfl
  rw [hIdx]

/-- None occurs twice. -/
theorem nodup_sizeOrder_indices (columns : List PackedColumn) :
    ((sizeOrder columns).map Prod.snd).Nodup :=
  (sizeOrder_indices columns).nodup_iff.mpr List.nodup_range

/-- Every column has its entry. -/
theorem exists_mem_sizeOrder {columns : List PackedColumn} {i : Nat}
    (h : i < columns.length) :
    (dbTypeSizeBits columns[i].type, i) ∈ sizeOrder columns :=
  mem_sizeOrder.mpr ⟨columns[i], by simp [h], rfl⟩

-- ---------------------------------------------------------------------------
-- Where the counters end
-- ---------------------------------------------------------------------------

/-- The declared bits of a row are those of its entries. -/
theorem fixedBits_eq (columns : List PackedColumn) (k : Nat) :
    fixedBits columns =
      8 * scalarBytes ((columns.zipIdx k).map fun (column, i) =>
        (dbTypeSizeBits column.type, i)) := by
  induction columns generalizing k with
  | nil => rfl
  | cons column columns ih =>
    have hHead : (if column.type = .bool then 0 else dbTypeSizeBits column.type) =
        8 * entryBytes (dbTypeSizeBits column.type, k) := by
      by_cases hBool : column.type = .bool
      · simp [hBool, entryBytes, dbTypeSizeBits]
      · have hWide : dbTypeSizeBits column.type ≠ 1 :=
          fun h => hBool (dbTypeSizeBits_eq_one.mp h)
        obtain ⟨w, hw⟩ := dbTypeSizeBits_dvd hBool
        rw [if_neg hBool, entryBytes, if_neg hWide]
        omega
    have hTail := ih (k + 1)
    simp only [fixedBits, List.map_cons, List.sum_cons, List.zipIdx_cons,
      scalarBytes_cons] at hTail ⊢
    omega

/-- At the end of the walk the offset is the declared size. -/
theorem scalarBytes_sizeOrder (columns : List PackedColumn) :
    scalarBytes (sizeOrder columns) = fixedBits columns / 8 := by
  have hPerm : scalarBytes (sizeOrder columns) = scalarBytes (columnEntries columns) :=
    ((sizeOrder_perm columns).map entryBytes).sum_nat
  have hBits := fixedBits_eq columns 0
  rw [hPerm, hBits, columnEntries]
  omega

/-- The declared booleans of a row are those of its entries. -/
theorem boolCount_eq (columns : List PackedColumn) (k : Nat) :
    boolCount columns =
      boolBits ((columns.zipIdx k).map fun (column, i) =>
        (dbTypeSizeBits column.type, i)) := by
  induction columns generalizing k with
  | nil => rfl
  | cons column columns ih =>
    have hTail := ih (k + 1)
    simp only [List.zipIdx_cons, List.map_cons, boolBits_cons, ← hTail, boolCount,
      List.countP_cons, dbTypeSizeBits_eq_one, beq_iff_eq]

/-- At the end of the walk the bit counter is their number. -/
theorem boolBits_sizeOrder (columns : List PackedColumn) :
    boolBits (sizeOrder columns) = boolCount columns := by
  rw [boolCount_eq columns 0]
  exact (sizeOrder_perm columns).countP_eq _

/-- A walk of the column order stopped at an entry: the column it stands for,
and room for it behind both counters. -/
theorem sizeOrder_split {columns : List PackedColumn}
    {done todo : List (Nat × Nat)} {size i : Nat}
    (h : sizeOrder columns = done ++ (size, i) :: todo) :
    (∃ hi : i < columns.length, size = dbTypeSizeBits columns[i].type) ∧
      scalarBytes done + entryBytes (size, i) ≤ fixedBits columns / 8 ∧
      boolBits done + (if size = 1 then 1 else 0) ≤ boolCount columns ∧
      i ∉ done.map Prod.snd := by
  have hMem : (size, i) ∈ sizeOrder columns := by simp [h]
  obtain ⟨column, hColumn, hSize⟩ := mem_sizeOrder.mp hMem
  obtain ⟨hi, hGet⟩ := List.getElem?_eq_some_iff.mp hColumn
  have hBytes := scalarBytes_sizeOrder columns
  have hBools := boolBits_sizeOrder columns
  have hNodup := nodup_sizeOrder_indices columns
  rw [h] at hBytes hBools hNodup
  simp only [scalarBytes_append, scalarBytes_cons] at hBytes
  simp only [boolBits_append, boolBits_cons] at hBools
  refine ⟨⟨hi, by rw [hGet]; exact hSize⟩, by omega, by omega, ?_⟩
  -- a repeated index would contradict the permutation
  intro hDup
  rw [List.map_append, List.map_cons] at hNodup
  exact (List.nodup_append.mp hNodup).2.2 i hDup i (by simp) rfl

end Ithax.Marshal
