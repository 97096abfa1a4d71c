import Ithax.Marshal.RowKinds

/-!
# Rows with integers out of their columns' ranges

`AppendPackedScalar` narrows an integer to the width of its column with a cast, and
`ReadPackedScalar` widens what it finds: in the columns of one, two and four bytes an
integer out of range becomes another one. The columns of eight bytes hold every integer.

## Results

* `storedInt_eq_iff`    — the integers that come back from a column.
* `row_unaltered_iff`   — the rows that are never altered silently.
-/

namespace Ithax.Marshal

open Ithax.Lib

/-- The integers that the bytes of a column tell apart. -/
def ColumnHolds (type : DbType) (n : Int) : Prop :=
  match type with
  | .i1 => -2 ^ 7 ≤ n ∧ n < 2 ^ 7
  | .ui1 => 0 ≤ n ∧ n < 2 ^ 8
  | .i2 => -2 ^ 15 ≤ n ∧ n < 2 ^ 15
  | .ui2 => 0 ≤ n ∧ n < 2 ^ 16
  | .i4 => -2 ^ 31 ≤ n ∧ n < 2 ^ 31
  | .ui4 => 0 ≤ n ∧ n < 2 ^ 32
  | _ => True

/-- One byte, with its sign. -/
theorem toInt64_toInt8_iff {n : Int64} :
    n.toInt8.toInt64 = n ↔ -2 ^ 7 ≤ n.toInt ∧ n.toInt < 2 ^ 7 := by
  constructor
  · intro hSame
    have hInt : n.toInt8.toInt = n.toInt := by
      rw [← Int8.toInt_toInt64]
      exact congrArg Int64.toInt hSame
    rw [← hInt]
    exact ⟨Int8.le_toInt n.toInt8, Int8.toInt_lt n.toInt8⟩
  · rintro ⟨hLow, hHigh⟩
    exact toInt64_toInt8 hLow hHigh

/-- Two bytes, with their sign. -/
theorem toInt64_toInt16_iff {n : Int64} :
    n.toInt16.toInt64 = n ↔ -2 ^ 15 ≤ n.toInt ∧ n.toInt < 2 ^ 15 := by
  constructor
  · intro hSame
    have hInt : n.toInt16.toInt = n.toInt := by
      rw [← Int16.toInt_toInt64]
      exact congrArg Int64.toInt hSame
    rw [← hInt]
    exact ⟨Int16.le_toInt n.toInt16, Int16.toInt_lt n.toInt16⟩
  · rintro ⟨hLow, hHigh⟩
    exact toInt64_toInt16 hLow hHigh

/-- Four bytes, with their sign. -/
theorem toInt64_toInt32_iff {n : Int64} :
    n.toInt32.toInt64 = n ↔ -2 ^ 31 ≤ n.toInt ∧ n.toInt < 2 ^ 31 := by
  constructor
  · intro hSame
    have hInt : n.toInt32.toInt = n.toInt := by
      rw [← Int32.toInt_toInt64]
      exact congrArg Int64.toInt hSame
    rw [← hInt]
    exact ⟨Int32.le_toInt n.toInt32, Int32.toInt_lt n.toInt32⟩
  · rintro ⟨hLow, hHigh⟩
    exact toInt64_toInt32 hLow hHigh

/-- Exactly the integers in the range of a column come back from it. -/
theorem storedInt_eq_iff (type : DbType) (n : Int64) :
    storedInt type n = n ↔ ColumnHolds type n.toInt := by
  cases type with
  | i1 => exact toInt64_toInt8_iff
  | i2 => exact toInt64_toInt16_iff
  | i4 => exact toInt64_toInt32_iff
  | ui1 =>
    rw [storedInt, UInt64.toNat_toUInt8]
    exact ofNat_toUInt64_mod_iff (by omega) (by omega)
  | ui2 =>
    rw [storedInt, UInt64.toNat_toUInt16]
    exact ofNat_toUInt64_mod_iff (by omega) (by omega)
  | ui4 =>
    rw [storedInt, UInt64.toNat_toUInt32]
    exact ofNat_toUInt64_mod_iff (by omega) (by omega)
  | _ => exact ⟨fun _ => trivial, fun _ => rfl⟩

section Row

variable {row : PackedRowData Value}

/-- Every integer of a fixed-size column is in the range of its column. -/
def IntegersHeld (row : PackedRowData Value) : Prop :=
  ∀ cell ∈ row.columns.zip row.values, dbTypeSizeBits cell.1.type ≠ 0 →
    ∀ n, cell.2 = .int n → ColumnHolds cell.1.type n.toInt

/-- A cell that is no integer is kept as it is. -/
theorem storedCell_eq_iff {type : DbType} {value : Value} :
    storedCell type value = value ↔ ∀ n, value = .int n → ColumnHolds type n.toInt := by
  cases value with
  | int n =>
    constructor
    · intro hSame m hInt
      obtain rfl := Value.int.inj hInt
      exact (storedInt_eq_iff type n).mp (Value.int.inj hSame)
    · intro hHeld
      exact congrArg Value.int ((storedInt_eq_iff type n).mpr (hHeld n rfl))
  | _ => simp [storedCell]

/-- The cells of a row that the codec leaves as they are. -/
theorem storedCells_unaltered_iff (hLength : row.values.length = row.columns.length) :
    storedCells row.columns row.values = row.values ↔ IntegersHeld row ∧ VariableStored row := by
  constructor
  · intro hSame
    have hCells : ∀ cell ∈ row.columns.zip row.values,
        (if dbTypeSizeBits cell.1.type = 0 then cell.2.stored
          else storedCell cell.1.type cell.2) = cell.2 := by
      intro cell hCell
      obtain ⟨i, hi⟩ := List.mem_iff_getElem?.mp hCell
      obtain ⟨hColumn, hValue⟩ := List.getElem?_zip_eq_some.mp hi
      have hStored := getElem?_storedCells hColumn hValue
      rw [hSame, hValue] at hStored
      exact (Option.some.inj hStored).symm
    constructor
    · intro cell hCell hSized
      have hHere := hCells cell hCell
      rw [if_neg hSized] at hHere
      exact storedCell_eq_iff.mp hHere
    · intro cell hCell hZero
      have hHere := hCells cell hCell
      rw [if_pos hZero] at hHere
      exact hHere
  · rintro ⟨hHeld, hVariable⟩
    refine List.ext_getElem? fun i => ?_
    cases hValue : row.values[i]? with
    | none =>
      rw [List.getElem?_eq_none_iff, length_storedCells]
      exact List.getElem?_eq_none_iff.mp hValue
    | some value =>
      have hLt : i < row.columns.length := by
        rw [← hLength]
        exact (List.getElem?_eq_some_iff.mp hValue).1
      have hColumn := List.getElem?_eq_getElem hLt
      have hCell := mem_zip_of_getElem? hColumn hValue
      rw [getElem?_storedCells hColumn hValue]
      by_cases hZero : dbTypeSizeBits row.columns[i].type = 0
      · rw [if_pos hZero, hVariable _ hCell hZero]
      · rw [if_neg hZero, storedCell_eq_iff.mpr (hHeld _ hCell hZero)]

/-- `Encode` throws, or the row decoded from its output has the cells of the row; an output
longer than any stream may be is refused by `Decode`. -/
def NeverAltered (row : PackedRowData Value) : Prop :=
  ∀ bytes, encode (.packedRow row) = .ok bytes →
    (MAX_STREAM_BYTES < bytes.length ∧ ∃ e, decode bytes true = .error e) ∨
    ∃ decoded, decode bytes true = .ok (.packedRow decoded) ∧ decoded.values = row.values

/-- `Encode` takes the row, in the space of a stream. -/
def Carried (row : PackedRowData Value) : Prop :=
  ∃ bytes, encode (.packedRow row) = .ok bytes ∧ bytes.length ≤ MAX_STREAM_BYTES

/-- `Encode` asks for as many values as columns. -/
theorem length_of_encode_row {bytes : Bytes} (h : encode (.packedRow row) = .ok bytes) :
    row.values.length = row.columns.length := by
  have hRun : ∃ bytes, encode (.packedRow row) = .ok bytes := ⟨bytes, h⟩
  rw [encode, bind_isOk_iff] at hRun
  have hEncodable : Encodable (MAX_MARSHAL_DEPTH + 1) (.packedRow row) := hRun
  exact (encodable_packedRow.mp hEncodable).2.1.length

/-- The row that comes back has other cells, unless every cell is one that is kept. -/
theorem cells_of_neverAltered (hNever : NeverAltered row) (hCarried : Carried row) :
    IntegersHeld row ∧ VariableStored row := by
  obtain ⟨bytes, hEncode, hFits⟩ := hCarried
  rcases hNever bytes hEncode with ⟨hLong, -⟩ | ⟨decoded, hDecode, hSame⟩
  · exact absurd hFits (Nat.not_le.mpr hLong)
  · rw [decode_stored hEncode hFits] at hDecode
    have hRow : Value.packedRow ⟨row.columns, storedCells row.columns row.values⟩ =
        .packedRow decoded := Except.ok.inj hDecode
    injection hRow with hRow
    rw [← hRow] at hSame
    exact (storedCells_unaltered_iff (length_of_encode_row hEncode)).mp hSame

/-- A packed row is never altered silently exactly if it is not carried at all, or its
integers are in range and the size-0 columns hold nothing that the codec changes. -/
theorem row_unaltered_iff (row : PackedRowData Value) :
    NeverAltered row ↔ (Carried row → IntegersHeld row ∧ VariableStored row) := by
  constructor
  · exact cells_of_neverAltered
  · intro hCells bytes hEncode
    rcases Nat.lt_or_ge MAX_STREAM_BYTES bytes.length with hLong | hFits
    · exact Or.inl ⟨hLong, _, decode_too_long hLong true⟩
    · have hSame := (storedCells_unaltered_iff (length_of_encode_row hEncode)).mpr
        (hCells ⟨bytes, hEncode, hFits⟩)
      exact Or.inr ⟨⟨row.columns, storedCells row.columns row.values⟩,
        decode_stored hEncode hFits, hSame⟩

end Row

/-- One column of signed bytes, with 300 in it. -/
def wideRow : PackedRowData Value where
  columns := [⟨[0x61], .i1⟩]
  values := [.int 300]

/-- It comes back with 44. -/
theorem wideRow_altered : ¬ ∀ row, NeverAltered row := by
  intro h
  have hCarried : Carried wideRow := by
    unfold Carried
    decide +kernel
  have hHeld := (cells_of_neverAltered (h wideRow) hCarried).1
  have hRange := hHeld (⟨[0x61], .i1⟩, .int 300) (List.mem_singleton_self _) (by decide) 300 rfl
  exact absurd hRange.2 (by decide)

end Ithax.Marshal
