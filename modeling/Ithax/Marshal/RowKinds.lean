import Ithax.Marshal.Encodable

/-!
# Rows with cells of their columns' kinds

The documentation lists a width for every column type, the two real ones among them.
`AppendPackedScalar` reads the integer of a cell before it looks at the type, so a real
never gets into a packed row.

## Results

* `encode_row_ok_iff`  — the rows with cells of their columns' kinds that `Encode` accepts.
* `row_roundTrip_iff`  — the ones that come back as they were.
-/

namespace Ithax.Marshal

open Ithax.Lib

/-- The values of a fixed-size column; a real column of 32 bits has those of a `float`. -/
def OfKind (type : DbType) (value : Value) : Prop :=
  match type with
  | .bool => ∃ b, value = .bool b
  | .r8 => ∃ bits, value = .real bits
  | .r4 => ∃ bits, value = .real (widenReal bits)
  | _ => ∃ n, value = .int n ∧ ColumnRange type n.toInt

/-- The cell is `None`, or of the kind of its column; in a size-0 column, any value that is
encoded a depth below the row. -/
def CellOfKind (type : DbType) (value : Value) : Prop :=
  if dbTypeSizeBits type = 0 then ∃ bytes, encodeValue value 1 = .ok bytes
  else value = .none ∨ OfKind type value

structure RowOfKinds (row : PackedRowData Value) : Prop where
  columns : row.columns.length ≤ kMaxPackedRowColumns
  length : row.values.length = row.columns.length
  cells : ∀ cell ∈ row.columns.zip row.values, CellOfKind cell.1.type cell.2

/-- The cells of the real columns are null. -/
def NoReals (row : PackedRowData Value) : Prop :=
  ∀ cell ∈ row.columns.zip row.values, cell.1.type = .r4 ∨ cell.1.type = .r8 → cell.2 = .none

/-- The values in the size-0 columns hold no negative zero and no packed integer out of its
column's range. -/
def VariableStored (row : PackedRowData Value) : Prop :=
  ∀ cell ∈ row.columns.zip row.values, dbTypeSizeBits cell.1.type = 0 → cell.2.stored = cell.2

-- ---------------------------------------------------------------------------
-- Encoding
-- ---------------------------------------------------------------------------

theorem IntColumn.of_range {type : DbType} {n : Int} (h : ColumnRange type n) :
    IntColumn type := by
  cases type with
  | i1 | ui1 | i2 | ui2 | i4 | ui4 | cy | i8 | ui8 | fileTime => trivial
  | _ => exact h.elim

/-- A cell of a fixed-size column that is no real. -/
theorem CellOfKind.fixedCell {type : DbType} {value : Value} (h : CellOfKind type value)
    (hSized : dbTypeSizeBits type ≠ 0) (hReal : type = .r4 ∨ type = .r8 → value = .none) :
    FixedCell type value := by
  rw [CellOfKind, if_neg hSized] at h
  rcases h with rfl | h
  · trivial
  cases type with
  | bool =>
    obtain ⟨b, rfl⟩ := h
    rfl
  | r4 =>
    obtain rfl := hReal (Or.inl rfl)
    trivial
  | r8 =>
    obtain rfl := hReal (Or.inr rfl)
    trivial
  | _ =>
    obtain ⟨n, rfl, hRange⟩ := h
    exact hRange

/-- The packing loop accepts what a cell may hold. -/
theorem FixedCell.packed {type : DbType} {value : Value} (h : FixedCell type value) :
    PackedCell type value := by
  cases value with
  | none => trivial
  | bool b => exact h
  | int n => exact IntColumn.of_range h
  | _ => exact h.elim

section Row

variable {row : PackedRowData Value}

theorem RowOfKinds.fixedCells (h : RowOfKinds row) (hReals : NoReals row) : FixedCells row :=
  fun cell hCell hSized => (h.cells cell hCell).fixedCell hSized (hReals cell hCell)

/-- A packed real column holds nothing. -/
theorem NoReals.of_packable (h : Packable row) : NoReals row := by
  intro cell hCell hType
  have hSized : dbTypeSizeBits cell.1.type ≠ 0 := by
    rcases hType with hType | hType
    · rw [hType]
      decide
    · rw [hType]
      decide
  have hPacked := h.cells cell hCell hSized
  cases hValue : cell.2 with
  | none => rfl
  | bool b =>
    rw [hValue] at hPacked
    rcases hType with hType | hType
    · exact absurd (hType.symm.trans hPacked) (by decide)
    · exact absurd (hType.symm.trans hPacked) (by decide)
  | int n =>
    rw [hValue] at hPacked
    rcases hType with hType | hType
    · rw [hType] at hPacked
      exact hPacked.elim
    · rw [hType] at hPacked
      exact hPacked.elim
  | _ =>
    rw [hValue] at hPacked
    exact hPacked.elim

theorem encode_row_ok_iff (h : RowOfKinds row) :
    (∃ bytes, encode (.packedRow row) = .ok bytes) ↔ NoReals row := by
  have hRun : (∃ bytes, encode (.packedRow row) = .ok bytes) ↔
      Encodable (MAX_MARSHAL_DEPTH + 1) (.packedRow row) := by
    rw [encode, bind_isOk_iff]
    rfl
  rw [hRun, encodable_packedRow]
  constructor
  · rintro ⟨-, hRow, -⟩
    exact .of_packable hRow
  · intro hReals
    have hDepth : descriptorDepth row.columns < MAX_MARSHAL_DEPTH := by
      rw [descriptorDepth]
      split
      · decide
      · decide
    have hHeader : Encodable MAX_MARSHAL_DEPTH (buildRowHeader row.columns) := by
      refine (encodable_iff _ _).mpr ⟨?_, admissible_buildRowHeader h.columns⟩
      rw [Fits, nestingDepth_buildRowHeader]
      exact hDepth
    refine ⟨h.columns, ⟨h.length, fun cell hCell hSized => ?_⟩, hHeader, ?_⟩
    · exact (h.fixedCells hReals cell hCell hSized).packed
    · intro cell hCell hZero
      have hKind := h.cells cell hCell
      rw [CellOfKind, if_pos hZero] at hKind
      exact hKind

-- ---------------------------------------------------------------------------
-- The way back
-- ---------------------------------------------------------------------------

/-- Only the size-0 columns can hold something that changes. -/
theorem storedCells_eq_iff (hLength : row.values.length = row.columns.length)
    (hFixed : FixedCells row) :
    storedCells row.columns row.values = row.values ↔ VariableStored row := by
  constructor
  · intro hSame cell hCell hZero
    obtain ⟨i, hi⟩ := List.mem_iff_getElem?.mp hCell
    obtain ⟨hColumn, hValue⟩ := List.getElem?_zip_eq_some.mp hi
    have hStored := getElem?_storedCells hColumn hValue
    rw [hSame, hValue, if_pos hZero] at hStored
    exact (Option.some.inj hStored).symm
  · intro hVariable
    refine List.ext_getElem? fun i => ?_
    cases hValue : row.values[i]? with
    | none =>
      rw [List.getElem?_eq_none_iff, length_storedCells]
      exact List.getElem?_eq_none_iff.mp hValue
    | some value =>
      have hLt : i < row.columns.length := by
        rw [← hLength]
        exact (List.getElem?_eq_some_iff.mp hValue).1
      have hColumn := List.getElem?_eq_getElem hLt
      have hCell := mem_zip_of_getElem? hColumn hValue
      rw [getElem?_storedCells hColumn hValue]
      by_cases hZero : dbTypeSizeBits row.columns[i].type = 0
      · rw [if_pos hZero, hVariable _ hCell hZero]
      · rw [if_neg hZero, (hFixed _ hCell hZero).stored]

/-- A row with cells of its columns' kinds comes back as it was exactly when no real column
holds a value and the size-0 columns hold nothing that the codec changes. -/
theorem row_roundTrip_iff (h : RowOfKinds row)
    (hFits : ∀ bytes, encode (.packedRow row) = .ok bytes → bytes.length ≤ MAX_STREAM_BYTES) :
    (∃ bytes, encode (.packedRow row) = .ok bytes ∧
      decode bytes true = .ok (.packedRow row)) ↔ NoReals row ∧ VariableStored row := by
  have hBack : ∀ bytes, encode (.packedRow row) = .ok bytes → NoReals row →
      (decode bytes true = .ok (.packedRow row) ↔ VariableStored row) := by
    intro bytes hEncode hReals
    rw [decode_stored hEncode (hFits bytes hEncode),
      ← storedCells_eq_iff h.length (h.fixedCells hReals)]
    constructor
    · intro hSame
      have hRow : Value.packedRow ⟨row.columns, storedCells row.columns row.values⟩ =
          .packedRow row := Except.ok.inj hSame
      injection hRow with hRow
      exact congrArg PackedRowData.values hRow
    · intro hSame
      have hRow : Value.stored (.packedRow row) =
          .packedRow ⟨row.columns, storedCells row.columns row.values⟩ := rfl
      rw [hRow, hSame]
  constructor
  · rintro ⟨bytes, hEncode, hDecode⟩
    have hReals := (encode_row_ok_iff h).mp ⟨bytes, hEncode⟩
    exact ⟨hReals, (hBack bytes hEncode hReals).mp hDecode⟩
  · rintro ⟨hReals, hVariable⟩
    obtain ⟨bytes, hEncode⟩ := (encode_row_ok_iff h).mpr hReals
    exact ⟨bytes, hEncode, (hBack bytes hEncode hReals).mpr hVariable⟩

end Row

/-- Three columns, with a value in the size-0 one. -/
def plainRow : PackedRowData Value where
  columns := [⟨ascii "a", .i2⟩, ⟨ascii "b", .bool⟩, ⟨ascii "c", .str⟩]
  values := [.int (-3), .none, .string (ascii "x")]

theorem row_roundTrip_iff_plainRow : ∃ bytes, encode (.packedRow plainRow) = .ok bytes ∧
    decode bytes true = .ok (.packedRow plainRow) := by
  have hKinds : RowOfKinds plainRow := by
    refine ⟨by decide, rfl, fun cell hCell => ?_⟩
    simp only [plainRow, List.zip_cons_cons, List.zip_nil_left, List.mem_cons,
      List.not_mem_nil, or_false] at hCell
    rcases hCell with rfl | rfl | rfl
    · exact Or.inr ⟨-3, rfl, by decide, by decide⟩
    · exact Or.inl rfl
    · exact ⟨_, rfl⟩
  have hRun : ∃ bytes, encode (.packedRow plainRow) = .ok bytes ∧
      bytes.length ≤ MAX_STREAM_BYTES := by decide +kernel
  refine (row_roundTrip_iff hKinds fun bytes hEncode => ?_).mpr ⟨?_, ?_⟩
  · obtain ⟨bytes', hSame, hFits⟩ := hRun
    cases hEncode.symm.trans hSame
    exact hFits
  · intro cell hCell hReal
    simp only [plainRow, List.zip_cons_cons, List.zip_nil_left, List.mem_cons,
      List.not_mem_nil, or_false] at hCell
    rcases hCell with rfl | rfl | rfl
    all_goals simp at hReal
  · intro cell hCell hZero
    simp only [plainRow, List.zip_cons_cons, List.zip_nil_left, List.mem_cons,
      List.not_mem_nil, or_false] at hCell
    rcases hCell with rfl | rfl | rfl
    · exact absurd hZero (by decide)
    · exact absurd hZero (by decide)
    · rfl

/-- One column of reals, with 1.5 in it. -/
def realRow : PackedRowData Value where
  columns := [⟨ascii "price", .r8⟩]
  values := [.real 0x3FF8000000000000]

/-- `Encode` refuses it, as the integer of the cell is asked for. -/
theorem not_encode_realRow : RowOfKinds realRow ∧
    ¬∃ bytes, encode (.packedRow realRow) = .ok bytes ∧
      decode bytes true = .ok (.packedRow realRow) := by
  have hKinds : RowOfKinds realRow := by
    refine ⟨by decide, rfl, fun cell hCell => ?_⟩
    obtain rfl := List.mem_singleton.mp hCell
    exact Or.inr ⟨_, rfl⟩
  refine ⟨hKinds, ?_⟩
  rintro ⟨bytes, hEncode, -⟩
  have hNone := (encode_row_ok_iff hKinds).mp ⟨bytes, hEncode⟩
    (⟨ascii "price", .r8⟩, .real 0x3FF8000000000000) (List.mem_singleton_self _) (Or.inr rfl)
  cases hNone

end Ithax.Marshal
