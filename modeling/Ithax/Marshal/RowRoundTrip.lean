import Ithax.Marshal.RowLayout
import Ithax.Marshal.ZeroRle

/-!
# The packed part of a row, round trip

`packFixed` and `unpackFixed` walk the same column order. The packing loop
leaves behind the scalars of the sized columns, end to end, and a bit section
whose set bits are known (`PackState`); the unpacking loop finds each cell
where its two counters point (`unpackFixed_packFixed`).
-/

namespace Ithax.Marshal

open Ithax.Lib

-- ---------------------------------------------------------------------------
-- Cells that survive packing
-- ---------------------------------------------------------------------------

/-- The integers a column of this type holds. -/
def ColumnRange (type : DbType) (n : Int) : Prop :=
  match type with
  | .i1 => -2 ^ 7 ≤ n ∧ n < 2 ^ 7
  | .ui1 => 0 ≤ n ∧ n < 2 ^ 8
  | .i2 => -2 ^ 15 ≤ n ∧ n < 2 ^ 15
  | .ui2 => 0 ≤ n ∧ n < 2 ^ 16
  | .i4 => -2 ^ 31 ≤ n ∧ n < 2 ^ 31
  | .ui4 => 0 ≤ n ∧ n < 2 ^ 32
  | .cy | .i8 | .fileTime => -2 ^ 63 ≤ n ∧ n < 2 ^ 63
  | .ui8 => 0 ≤ n ∧ n < 2 ^ 64
  | _ => False

/-- What a fixed-size cell may hold: nothing, a boolean in a boolean column, an
integer inside its integer column's range. -/
def FixedCell (type : DbType) : Value → Prop
  | .none => True
  | .bool _ => type = .bool
  | .int n => ColumnRange type n.toInt
  | _ => False

/-- The fixed-size cells of a row. -/
def FixedCells (row : PackedRowData Value) : Prop :=
  ∀ cell ∈ row.columns.zip row.values,
    dbTypeSizeBits cell.1.type ≠ 0 → FixedCell cell.1.type cell.2

-- ---------------------------------------------------------------------------
-- Cells as they come back
-- ---------------------------------------------------------------------------

/-- The columns whose cells are integers. -/
def IntColumn : DbType → Prop
  | .i1 | .ui1 | .i2 | .ui2 | .i4 | .ui4 | .cy | .i8 | .ui8 | .fileTime => True
  | _ => False

/-- An integer after its trip through a column of this type. -/
def storedInt (type : DbType) (n : Int64) : Int64 :=
  match type with
  | .i1 => n.toInt8.toInt64
  | .ui1 => Int64.ofNat n.toUInt64.toUInt8.toNat
  | .i2 => n.toInt16.toInt64
  | .ui2 => Int64.ofNat n.toUInt64.toUInt16.toNat
  | .i4 => n.toInt32.toInt64
  | .ui4 => Int64.ofNat n.toUInt64.toUInt32.toNat
  | _ => n

/-- A fixed-size cell after its trip. -/
def storedCell (type : DbType) : Value → Value
  | .int n => .int (storedInt type n)
  | value => value

/-- What the packing loop accepts in a fixed-size column. -/
def PackedCell (type : DbType) : Value → Prop
  | .none => True
  | .bool _ => type = .bool
  | .int _ => IntColumn type
  | _ => False

def PackedCells (row : PackedRowData Value) : Prop :=
  ∀ cell ∈ row.columns.zip row.values,
    dbTypeSizeBits cell.1.type ≠ 0 → PackedCell cell.1.type cell.2

theorem mem_zip_of_getElem? {row : PackedRowData Value} {i : Nat} {column : PackedColumn}
    {value : Value} (hColumn : row.columns[i]? = some column)
    (hValue : row.values[i]? = some value) :
    (column, value) ∈ row.columns.zip row.values := by
  refine List.mem_iff_getElem?.mpr ⟨i, ?_⟩
  rw [List.getElem?_zip_eq_some]
  exact ⟨hColumn, hValue⟩

/-- An integer in its column's range comes back. -/
theorem storedInt_of_range {type : DbType} {n : Int64} (h : ColumnRange type n.toInt) :
    storedInt type n = n := by
  cases type with
  | i1 => exact toInt64_toInt8 h.1 h.2
  | i2 => exact toInt64_toInt16 h.1 h.2
  | i4 => exact toInt64_toInt32 h.1 h.2
  | ui1 =>
    rw [storedInt, UInt64.toNat_toUInt8, ofNat_toUInt64_mod h.1 h.2]
  | ui2 =>
    rw [storedInt, UInt64.toNat_toUInt16, ofNat_toUInt64_mod h.1 h.2]
  | ui4 =>
    rw [storedInt, UInt64.toNat_toUInt32, ofNat_toUInt64_mod h.1 h.2]
  | _ => rfl

theorem FixedCell.stored {type : DbType} {value : Value} (h : FixedCell type value) :
    storedCell type value = value := by
  cases value with
  | int n => rw [storedCell, storedInt_of_range h]
  | _ => rfl

-- ---------------------------------------------------------------------------
-- Scalars
-- ---------------------------------------------------------------------------

theorem slice_middle {ε : Type} {pre mid post : Bytes} {n : Nat} (h : mid.length = n) :
    (slice (pre ++ mid ++ post) pre.length n : Checked ε Bytes) = .ok mid := by
  rw [slice_of_le (by simp only [List.length_append]; omega), List.append_assoc,
    List.drop_left, ← h, List.take_left]

theorem index_middle {ε : Type} {pre post : Bytes} {b : UInt8} :
    (index (pre ++ [b] ++ post) pre.length : Checked ε UInt8) = .ok b := by
  rw [index_of_lt (by simp)]
  simp

/-- A null cell is packed as zeros of its column's width. -/
theorem appendPackedScalar_none {type : DbType} (hBool : type ≠ .bool) :
    ∃ scalar, appendPackedScalar type .none = .ok scalar ∧
      scalar.length = dbTypeSizeBits type / 8 := by
  cases type with
  | bool => exact absurd rfl hBool
  | _ => exact ⟨_, rfl, by simp [dbTypeSizeBits]⟩

/-- An integer is packed in its column's width and read back from there. -/
theorem appendPackedScalar_int {type : DbType} (n : Int64) (h : IntColumn type) :
    ∃ scalar, appendPackedScalar type (.int n) = .ok scalar ∧
      scalar.length = dbTypeSizeBits type / 8 ∧
      ∀ pre post, readPackedScalar (pre ++ scalar ++ post) pre.length type =
        .ok (.int (storedInt type n)) := by
  cases type with
  | cy | i8 | ui8 | fileTime =>
    refine ⟨_, rfl, by simp [dbTypeSizeBits], fun pre post => ?_⟩
    rw [readPackedScalar, slice_middle (length_leBytes _ _)]
    show Except.ok (Value.int _) = _
    rw [uint64_leBytes, Int64.toInt64_toUInt64]
    rfl
  | i4 =>
    refine ⟨_, rfl, by simp [dbTypeSizeBits], fun pre post => ?_⟩
    rw [readPackedScalar, slice_middle (length_leBytes _ _)]
    show Except.ok (Value.int _) = _
    rw [uint32_leBytes, Int32.toInt32_toUInt32]
    rfl
  | i2 =>
    refine ⟨_, rfl, by simp [dbTypeSizeBits], fun pre post => ?_⟩
    rw [readPackedScalar, slice_middle (length_leBytes _ _)]
    show Except.ok (Value.int _) = _
    rw [uint16_leBytes, Int16.toInt16_toUInt16]
    rfl
  | i1 =>
    refine ⟨_, rfl, by simp [dbTypeSizeBits], fun pre post => ?_⟩
    rw [readPackedScalar, index_middle]
    show Except.ok (Value.int _) = _
    rw [Int8.toInt8_toUInt8]
    rfl
  | ui4 =>
    refine ⟨_, rfl, by simp [dbTypeSizeBits], fun pre post => ?_⟩
    rw [readPackedScalar, slice_middle (length_leBytes _ _)]
    show Except.ok (Value.int _) = _
    rw [leNat_leBytes_of_lt (UInt32.toNat_lt _)]
    rfl
  | ui2 =>
    refine ⟨_, rfl, by simp [dbTypeSizeBits], fun pre post => ?_⟩
    rw [readPackedScalar, slice_middle (length_leBytes _ _)]
    show Except.ok (Value.int _) = _
    rw [leNat_leBytes_of_lt (UInt16.toNat_lt _)]
    rfl
  | ui1 =>
    refine ⟨_, rfl, by simp [dbTypeSizeBits], fun pre post => ?_⟩
    rw [readPackedScalar, index_middle]
    rfl
  | _ => exact h.elim

-- ---------------------------------------------------------------------------
-- The bit section
-- ---------------------------------------------------------------------------

/-- Bit `n` of a bit section. -/
def bitAt (bits : Bytes) (n : Nat) : Bool :=
  (bits.getD (n / 8) 0).toNat.testBit (n % 8)

theorem toNat_bitMask (n : Nat) : (bitMask n).toNat = 2 ^ (n % 8) := by
  have hLt : 2 ^ (n % 8) < 2 ^ 8 :=
    Nat.pow_lt_pow_right (by omega) (Nat.mod_lt n (by omega))
  rw [bitMask, UInt8.toNat_ofNat', Nat.mod_eq_of_lt hLt]

theorem and_bitMask_ne_zero (b : UInt8) (n : Nat) :
    (b &&& bitMask n != 0) = b.toNat.testBit (n % 8) := by
  have hAnd : (b &&& bitMask n).toNat = (b.toNat.testBit (n % 8)).toNat * 2 ^ (n % 8) := by
    rw [UInt8.toNat_and, toNat_bitMask, Nat.and_two_pow]
  have hPow : 2 ^ (n % 8) ≠ 0 := by simp
  rw [Bool.eq_iff_iff, bne_iff_ne, ne_eq, ← UInt8.toNat_inj, hAnd, UInt8.toNat_zero,
    Nat.mul_eq_zero]
  cases b.toNat.testBit (n % 8) with
  | false => simp
  | true => simp

theorem testBit_or_bitMask (b : UInt8) (n j : Nat) :
    (b ||| bitMask n).toNat.testBit j = (b.toNat.testBit j || decide (n % 8 = j)) := by
  rw [UInt8.toNat_or, toNat_bitMask, Nat.testBit_or, Nat.testBit_two_pow]

theorem testBit_eq_bitAt {pre bits : Bytes} {n : Nat} (h : n / 8 < bits.length) :
    testBit (pre ++ bits) pre.length n = .ok (bitAt bits n) := by
  have hIn : pre.length + n / 8 < (pre ++ bits).length := by
    rw [List.length_append]
    omega
  rw [testBit, index_of_lt hIn]
  show Except.ok _ = _
  rw [and_bitMask_ne_zero, List.getElem_append_right (by omega), bitAt,
    List.getD_eq_getElem _ _ h]
  simp only [Nat.add_sub_cancel_left]

theorem returns_setBit {bits : Bytes} {n : Nat} (h : n / 8 < bits.length) :
    (setBit bits n).Returns fun bits' => bits'.length = bits.length ∧
      ∀ m, bitAt bits' m = (bitAt bits m || decide (n = m)) := by
  refine ⟨bits.set (n / 8) (bits[n / 8] ||| bitMask n), ?_, List.length_set, fun m => ?_⟩
  · rw [setBit, index_of_lt h]
    rfl
  unfold bitAt
  by_cases hByte : n / 8 = m / 8
  · -- the same byte: the mask decides
    have hGet : bits.getD (m / 8) 0 = bits[n / 8] := by
      rw [← hByte, List.getD_eq_getElem _ _ h]
    rw [hGet, ← hByte, List.getD_eq_getElem _ _ (by simpa using h), List.getElem_set_self,
      testBit_or_bitMask]
    congr 1
    rw [decide_eq_decide]
    omega
  · -- another byte is untouched
    have hNe : n ≠ m := fun hEq => hByte (by rw [hEq])
    rw [List.getD_eq_getElem?_getD, List.getElem?_set_ne hByte,
      ← List.getD_eq_getElem?_getD]
    simp [hNe]

theorem returns_setBitIf (condition : Bool) {bits : Bytes} {n : Nat}
    (h : n / 8 < bits.length) :
    (setBitIf condition bits n).Returns fun bits' => bits'.length = bits.length ∧
      ∀ m, bitAt bits' m = (bitAt bits m || (condition && decide (n = m))) := by
  cases condition with
  | false => exact ⟨bits, rfl, rfl, fun m => by simp⟩
  | true =>
    obtain ⟨bits', hSet, hLen, hBits⟩ := returns_setBit h
    exact ⟨bits', hSet, hLen, fun m => by simpa using hBits m⟩

-- ---------------------------------------------------------------------------
-- Packing
-- ---------------------------------------------------------------------------

section Row

variable {row : PackedRowData Value}

/-- A row that the packing loop accepts. -/
structure Packable (row : PackedRowData Value) : Prop where
  length : row.values.length = row.columns.length
  cells : PackedCells row

/-- The column and the cell of an entry of the column order. -/
theorem Packable.entry (hRow : Packable row) {done todo : List (Nat × Nat)}
    {size i : Nat} (hSplit : sizeOrder row.columns = done ++ (size, i) :: todo) :
    ∃ column value, row.columns[i]? = some column ∧ row.values[i]? = some value ∧
      size = dbTypeSizeBits column.type ∧
      (size ≠ 0 → PackedCell column.type value) := by
  obtain ⟨⟨hi, hSize⟩, -, -, -⟩ := sizeOrder_split hSplit
  have hValue : i < row.values.length := by rw [hRow.length]; exact hi
  have hColumnAt := List.getElem?_eq_getElem hi
  have hValueAt := List.getElem?_eq_getElem hValue
  refine ⟨row.columns[i], row.values[i], hColumnAt, hValueAt, hSize, ?_⟩
  intro hSized
  exact hRow.cells _ (mem_zip_of_getElem? hColumnAt hValueAt) (hSize ▸ hSized)

/-- The packed bytes of an entry; booleans and size-0 columns have none. -/
def scalarOf (row : PackedRowData Value) (entry : Nat × Nat) : Bytes :=
  match row.columns[entry.2]?, row.values[entry.2]? with
  | some column, some value =>
    if entry.1 = 0 ∨ column.type = .bool then []
    else
      match appendPackedScalar column.type value with
      | .ok scalar => scalar
      | .error _ => []
  | _, _ => []

/-- The null bit of an entry that was passed. -/
def NullBit (row : PackedRowData Value) (done : List (Nat × Nat)) (m : Nat) : Prop :=
  ∃ entry ∈ done, entry.1 ≠ 0 ∧ row.values[entry.2]? = some .none ∧
    entry.2 + boolCount row.columns = m

/-- The bit of a boolean cell that was passed and held `true`. -/
def TrueBit (row : PackedRowData Value) (done : List (Nat × Nat)) (m : Nat) : Prop :=
  ∃ pre i post, done = pre ++ (1, i) :: post ∧ boolBits pre = m ∧
    row.values[i]? = some (.bool true)

theorem nullBit_snoc {done : List (Nat × Nat)} {entry : Nat × Nat} {m : Nat} :
    NullBit row (done ++ [entry]) m ↔
      NullBit row done m ∨ (entry.1 ≠ 0 ∧ row.values[entry.2]? = some .none ∧
        entry.2 + boolCount row.columns = m) := by
  constructor
  · rintro ⟨e, hMem, hBit⟩
    rcases List.mem_append.mp hMem with hOld | hNew
    · exact Or.inl ⟨e, hOld, hBit⟩
    · rw [List.mem_singleton] at hNew
      exact Or.inr (hNew ▸ hBit)
  · rintro (⟨e, hMem, hBit⟩ | hBit)
    · exact ⟨e, List.mem_append_left _ hMem, hBit⟩
    · exact ⟨entry, by simp, hBit⟩

theorem trueBit_snoc {done : List (Nat × Nat)} {size i m : Nat} :
    TrueBit row (done ++ [(size, i)]) m ↔
      TrueBit row done m ∨ (size = 1 ∧ boolBits done = m ∧
        row.values[i]? = some (.bool true)) := by
  constructor
  · rintro ⟨pre, j, post, hEq, hBit⟩
    rcases List.eq_nil_or_concat post with rfl | ⟨post, last, rfl⟩
    · -- the new entry itself
      obtain ⟨rfl, hLast⟩ := List.append_inj' hEq rfl
      obtain ⟨rfl, rfl⟩ := Prod.mk.inj (List.singleton_injective hLast)
      exact Or.inr ⟨rfl, hBit⟩
    · have hShift : done ++ [(size, i)] = (pre ++ (1, j) :: post) ++ [last] := by
        simpa using hEq
      obtain ⟨rfl, -⟩ := List.append_inj' hShift rfl
      exact Or.inl ⟨pre, j, post, rfl, hBit⟩
  · rintro (⟨pre, j, post, rfl, hBit⟩ | ⟨rfl, hBit⟩)
    · exact ⟨pre, j, post ++ [(size, i)], by simp, hBit⟩
    · exact ⟨done, i, [], rfl, hBit⟩

/-- What the packing loop has built after the entries `done`. -/
structure PackState (row : PackedRowData Value) (done : List (Nat × Nat))
    (buffer : RowBuffer) : Prop where
  packed : buffer.packed = done.flatMap (scalarOf row)
  length : buffer.bitData.length = bitBytes row.columns
  boolOffset : buffer.boolOffset = boolBits done
  bits : ∀ m, bitAt buffer.bitData m = true ↔ NullBit row done m ∨ TrueBit row done m

theorem isNone_iff {value : Value} : value.isNone = true ↔ value = .none := by
  cases value <;> simp [Value.isNone]

/-- A cell of a boolean column is null or a boolean. -/
theorem PackedCell.bool_cases {value : Value} (h : PackedCell .bool value) :
    value = .none ∨ ∃ b, value = .bool b := by
  cases value with
  | none => exact Or.inl rfl
  | bool b => exact Or.inr ⟨b, rfl⟩
  | int n => exact h.elim
  | _ => exact h.elim

/-- A cell of another sized column is null or an integer of an integer column. -/
theorem PackedCell.scalar_cases {type : DbType} {value : Value}
    (h : PackedCell type value) (hBool : type ≠ .bool) :
    value = .none ∨ ∃ n, value = .int n ∧ IntColumn type := by
  cases value with
  | none => exact Or.inl rfl
  | bool b => exact absurd h hBool
  | int n => exact Or.inr ⟨n, rfl, h⟩
  | _ => exact h.elim

/-- The scalar of a cell: its width, and what is read back. -/
theorem PackedCell.scalar {type : DbType} {value : Value} (h : PackedCell type value)
    (hBool : type ≠ .bool) :
    ∃ scalar, appendPackedScalar type value = .ok scalar ∧
      scalar.length = dbTypeSizeBits type / 8 ∧
      ∀ pre post, readScalarCell (pre ++ scalar ++ post) pre.length type
        value.isNone = .ok (storedCell type value) := by
  rcases h.scalar_cases hBool with rfl | ⟨n, rfl, hColumn⟩
  · obtain ⟨scalar, hScalar, hLen⟩ := appendPackedScalar_none hBool
    exact ⟨scalar, hScalar, hLen, fun pre post => rfl⟩
  · obtain ⟨scalar, hScalar, hLen, hRead⟩ := appendPackedScalar_int n hColumn
    exact ⟨scalar, hScalar, hLen, fun pre post => hRead pre post⟩

theorem scalarOf_eq (entry : Nat × Nat) {column : PackedColumn} {value : Value}
    {scalar : Bytes} (hColumn : row.columns[entry.2]? = some column)
    (hValue : row.values[entry.2]? = some value) (hSized : entry.1 ≠ 0)
    (hBool : column.type ≠ .bool)
    (hScalar : appendPackedScalar column.type value = .ok scalar) :
    scalarOf row entry = scalar := by
  simp [scalarOf, hColumn, hValue, hSized, hBool, hScalar]

/-- One round of the packing loop. -/
theorem returns_packColumn (hRow : Packable row) {done todo : List (Nat × Nat)}
    {entry : Nat × Nat} (hSplit : sizeOrder row.columns = done ++ entry :: todo)
    {buffer : RowBuffer} (hState : PackState row done buffer) :
    (packColumn row buffer entry).Returns (PackState row (done ++ [entry])) := by
  obtain ⟨size, i⟩ := entry
  obtain ⟨⟨hi, -⟩, -, hBools, -⟩ := sizeOrder_split hSplit
  obtain ⟨column, value, hColumn, hValue, hSize, hSized⟩ := hRow.entry hSplit
  unfold packColumn
  refine (Checked.returns_index hColumn).bind ?_
  rintro _ rfl
  by_cases hZero : size = 0
  · -- nothing is packed for a size-0 column
    rw [if_pos hZero]
    refine ⟨buffer, rfl, ?_, hState.length, ?_, fun m => ?_⟩
    · rw [hState.packed, List.flatMap_append]
      simp [scalarOf, hColumn, hValue, hZero]
    · rw [hState.boolOffset]
      simp [hZero]
    · rw [hState.bits, nullBit_snoc, trueBit_snoc]
      simp [hZero]
  rw [if_neg hZero]
  refine (Checked.returns_index hValue).bind ?_
  rintro _ rfl
  have hNull : (i + boolCount row.columns) / 8 < buffer.bitData.length := by
    rw [hState.length, bitBytes]
    omega
  refine (returns_setBitIf _ hNull).bind ?_
  rintro bits ⟨hLen, hBits⟩
  have hCell := hSized hZero
  by_cases hBool : column.type = .bool
  · -- a boolean: its bit, if it holds `true`
    have hOne : size = 1 := hSize.trans (dbTypeSizeBits_eq_one.mpr hBool)
    subst hOne
    rw [if_pos rfl] at hBools
    rw [if_pos hBool]
    rw [hBool] at hCell
    have hBit : buffer.boolOffset / 8 < bits.length := by
      rw [hLen, hState.length, hState.boolOffset, bitBytes]
      omega
    obtain ⟨bit, hBitValue, hBitIff⟩ : ∃ bit, cellBool value = .ok bit ∧
        (bit = true ↔ value = .bool true) := by
      rcases hCell.bool_cases with rfl | ⟨b, rfl⟩
      · exact ⟨false, rfl, by simp⟩
      · exact ⟨b, rfl, by simp⟩
    rw [hBitValue]
    refine (returns_setBitIf bit hBit).bind ?_
    rintro bits' ⟨hLen', hBits'⟩
    refine ⟨_, rfl, ?_, ?_, ?_, fun m => ?_⟩
    · show buffer.packed = _
      rw [hState.packed, List.flatMap_append]
      simp [scalarOf, hColumn, hValue, hBool]
    · show bits'.length = _
      rw [hLen', hLen, hState.length]
    · simp [hState.boolOffset]
    · show bitAt bits' m = true ↔ _
      rw [hBits', hBits, Bool.or_eq_true, Bool.or_eq_true, hState.bits, nullBit_snoc,
        trueBit_snoc, hState.boolOffset]
      simp only [Bool.and_eq_true, decide_eq_true_eq, isNone_iff, hBitIff, hValue,
        Option.some.injEq, ne_eq, hZero, not_false_eq_true, true_and]
      tauto
  · -- any other sized column: its scalar
    have hWide : size ≠ 1 := fun h => hBool (dbTypeSizeBits_eq_one.mp (hSize ▸ h))
    rw [if_neg hBool]
    obtain ⟨scalar, hScalar, -, -⟩ := hCell.scalar hBool
    rw [hScalar]
    refine ⟨_, rfl, ?_, ?_, ?_, fun m => ?_⟩
    · show buffer.packed ++ scalar = _
      rw [hState.packed, List.flatMap_append, List.flatMap_singleton,
        scalarOf_eq (size, i) hColumn hValue hZero hBool hScalar]
    · show bits.length = _
      rw [hLen, hState.length]
    · simp [hState.boolOffset, hWide]
    · show bitAt bits m = true ↔ _
      rw [hBits, Bool.or_eq_true, hState.bits, nullBit_snoc, trueBit_snoc]
      simp only [Bool.and_eq_true, decide_eq_true_eq, isNone_iff, hValue,
        Option.some.injEq, ne_eq, hZero, hWide, not_false_eq_true, true_and, false_and,
        or_false]
      tauto

/-- The state the packing loop ends in. -/
theorem exists_packState (hRow : Packable row) :
    ∃ buffer, PackState row (sizeOrder row.columns) buffer ∧
      packFixed row = .ok (zeroCompress buffer.packed buffer.bitData) := by
  have hStart : PackState row [] ⟨[], List.replicate (bitBytes row.columns) 0, 0⟩ := by
    refine ⟨rfl, List.length_replicate, rfl, fun m => ?_⟩
    have hClear : bitAt (List.replicate (bitBytes row.columns) 0) m = false := by
      unfold bitAt
      rw [List.getD_eq_getElem?_getD, List.getElem?_replicate]
      split
      · simp
      · simp
    rw [hClear]
    constructor
    · intro h; cases h
    · rintro (⟨e, hMem, -⟩ | ⟨pre, i, post, hEq, -⟩)
      · cases hMem
      · simp at hEq
  obtain ⟨buffer, hRun, hState⟩ := Checked.Returns.foldlM (f := packColumn row)
    (I := PackState row)
    (fun done entry todo hSplit b hb => returns_packColumn hRow hSplit hb) _ hStart
  refine ⟨buffer, hState, ?_⟩
  rw [packFixed, hRun]
  rfl

-- ---------------------------------------------------------------------------
-- Unpacking
-- ---------------------------------------------------------------------------

/-- An entry's scalar has the width the offset advances by. -/
theorem length_scalarOf (hRow : Packable row) {entry : Nat × Nat}
    (hMem : entry ∈ sizeOrder row.columns) :
    (scalarOf row entry).length = entryBytes entry := by
  obtain ⟨done, todo, hSplit⟩ := List.append_of_mem hMem
  obtain ⟨size, i⟩ := entry
  obtain ⟨column, value, hColumn, hValue, hSize, hSized⟩ := hRow.entry hSplit
  by_cases hZero : size = 0
  · simp [scalarOf, hColumn, hValue, hZero, entryBytes]
  by_cases hBool : column.type = .bool
  · have hOne : size = 1 := hSize.trans (dbTypeSizeBits_eq_one.mpr hBool)
    simp [scalarOf, hColumn, hValue, hBool, hOne, entryBytes]
  · have hWide : size ≠ 1 := fun h => hBool (dbTypeSizeBits_eq_one.mp (hSize ▸ h))
    obtain ⟨scalar, hScalar, hLen, -⟩ := (hSized hZero).scalar hBool
    rw [scalarOf_eq (size, i) hColumn hValue hZero hBool hScalar, hLen,
      entryBytes, if_neg hWide, hSize]

theorem length_scalars (hRow : Packable row) {done : List (Nat × Nat)}
    (hDone : ∀ entry ∈ done, entry ∈ sizeOrder row.columns) :
    (done.flatMap (scalarOf row)).length = scalarBytes done := by
  induction done with
  | nil => rfl
  | cons entry done ih =>
    rw [List.flatMap_cons, List.length_append, scalarBytes_cons,
      length_scalarOf hRow (hDone entry (by simp)),
      ih fun e he => hDone e (by simp [he])]

/-- Two boolean entries with as many booleans before them are one entry. -/
theorem boolBits_inj {pre pre' post post' : List (Nat × Nat)} {i i' : Nat}
    (h : pre ++ (1, i) :: post = pre' ++ (1, i') :: post')
    (hBits : boolBits pre = boolBits pre') : i = i' := by
  rcases List.append_eq_append_iff.mp h with ⟨mid, rfl, hMid⟩ | ⟨mid, rfl, hMid⟩
  · cases mid with
    | nil => simpa using congrArg (fun l => (l.head?.map Prod.snd)) hMid
    | cons e mid =>
      -- a non-empty `mid` starts with the boolean entry itself
      obtain ⟨rfl, -⟩ := List.cons.inj hMid
      simp at hBits
  · cases mid with
    | nil =>
      simpa using (congrArg (fun l => (l.head?.map Prod.snd)) hMid).symm
    | cons e mid =>
      obtain ⟨rfl, -⟩ := List.cons.inj hMid
      simp at hBits

section Bits

variable {buffer : RowBuffer} (hState : PackState row (sizeOrder row.columns) buffer)
  {done todo : List (Nat × Nat)} {size i : Nat}
  (hSplit : sizeOrder row.columns = done ++ (size, i) :: todo) {value : Value}
  (hValue : row.values[i]? = some value)

include hState hSplit hValue

/-- The null bit of a sized column is set exactly when its cell is `None`. -/
theorem PackState.bitAt_null (hSized : size ≠ 0) :
    bitAt buffer.bitData (i + boolCount row.columns) = value.isNone := by
  rw [Bool.eq_iff_iff, hState.bits, isNone_iff]
  constructor
  · rintro (⟨⟨_, j⟩, -, -, hNone, hIndex⟩ | ⟨pre, j, post, hEq, hIndex, -⟩)
    · obtain rfl : j = i := by simp only at hIndex; omega
      exact Option.some.inj (hValue.symm.trans hNone)
    · -- the boolean bits lie below the null bits
      obtain ⟨-, -, hBelow, -⟩ := sizeOrder_split hEq
      rw [if_pos rfl] at hBelow
      omega
  · rintro rfl
    exact Or.inl ⟨(size, i), by simp [hSplit], hSized, hValue, rfl⟩

/-- The bit the boolean counter points to tells whether the cell is `true`. -/
theorem PackState.bitAt_bool (hOne : size = 1) :
    bitAt buffer.bitData (boolBits done) = true ↔ value = .bool true := by
  subst hOne
  obtain ⟨-, -, hBelow, -⟩ := sizeOrder_split hSplit
  rw [if_pos rfl] at hBelow
  rw [hState.bits]
  constructor
  · rintro (⟨entry, -, -, -, hIndex⟩ | ⟨pre, j, post, hEq, hIndex, hTrue⟩)
    · omega
    · obtain rfl : j = i := boolBits_inj (hEq.symm.trans hSplit) hIndex
      exact Option.some.inj (hValue.symm.trans hTrue)
  · rintro rfl
    exact Or.inr ⟨done, i, todo, hSplit, rfl, hValue⟩

end Bits

/-- What the unpacking loop has restored after the entries `done`. -/
structure RestoreState (row : PackedRowData Value) (done : List (Nat × Nat))
    (cursor : RowCursor) : Prop where
  offset : cursor.offset = scalarBytes done
  boolOffset : cursor.boolOffset = boolBits done
  length : cursor.values.length = row.columns.length
  restored : ∀ entry ∈ done, entry.1 ≠ 0 → ∀ column value,
    row.columns[entry.2]? = some column → row.values[entry.2]? = some value →
    cursor.values[entry.2]? = some (some (storedCell column.type value))

theorem RestoreState.store {done : List (Nat × Nat)} {cursor : RowCursor}
    (h : RestoreState row done cursor) (size : Nat) {i : Nat} {column : PackedColumn}
    {value : Value} (hColumn : row.columns[i]? = some column)
    (hValue : row.values[i]? = some value) :
    ∃ values, storeSlot cursor.values i (storedCell column.type value) = .ok values ∧
      values.length = row.columns.length ∧
      ∀ entry ∈ done ++ [(size, i)], entry.1 ≠ 0 → ∀ column value,
        row.columns[entry.2]? = some column → row.values[entry.2]? = some value →
        values[entry.2]? = some (some (storedCell column.type value)) := by
  have hSlot : i < cursor.values.length := by
    rw [h.length]
    exact (List.getElem?_eq_some_iff.mp hColumn).1
  refine ⟨cursor.values.set i (some (storedCell column.type value)), if_pos hSlot,
    by simpa using h.length, ?_⟩
  intro entry hMem hSized column' value' hColumn' hValue'
  by_cases hSame : entry.2 = i
  · rw [hSame] at hColumn' hValue'
    obtain rfl := Option.some.inj (hColumn.symm.trans hColumn')
    obtain rfl := Option.some.inj (hValue.symm.trans hValue')
    rw [hSame, List.getElem?_set_self hSlot]
  · rw [List.getElem?_set_ne (Ne.symm hSame)]
    rcases List.mem_append.mp hMem with hOld | hNew
    · exact h.restored entry hOld hSized column' value' hColumn' hValue'
    · rw [List.mem_singleton] at hNew
      exact absurd (by rw [hNew]) hSame

/-- One round of the unpacking loop. -/
theorem returns_unpackColumn (hRow : Packable row) {buffer : RowBuffer}
    (hPacked : PackState row (sizeOrder row.columns) buffer)
    {done todo : List (Nat × Nat)} {entry : Nat × Nat}
    (hSplit : sizeOrder row.columns = done ++ entry :: todo) {cursor : RowCursor}
    (hState : RestoreState row done cursor) :
    (unpackColumn row.columns (buffer.packed ++ buffer.bitData) cursor entry).Returns
      (RestoreState row (done ++ [entry])) := by
  obtain ⟨size, i⟩ := entry
  obtain ⟨⟨hi, -⟩, -, hBools, -⟩ := sizeOrder_split hSplit
  obtain ⟨column, value, hColumn, hValue, hSize, hSized⟩ := hRow.entry hSplit
  have hBase : (buffer.packed ++ buffer.bitData).length - bitBytes row.columns =
      buffer.packed.length := by
    rw [List.length_append, hPacked.length]
    omega
  unfold unpackColumn
  simp only [hBase]
  refine (Checked.returns_index hColumn).bind ?_
  rintro _ rfl
  by_cases hZero : size = 0
  · rw [if_pos hZero]
    refine ⟨cursor, rfl, ?_, ?_, hState.length, ?_⟩
    · rw [hState.offset]
      simp [hZero, entryBytes]
    · rw [hState.boolOffset]
      simp [hZero]
    · intro entry hMem hEntry
      rcases List.mem_append.mp hMem with hOld | hNew
      · exact hState.restored entry hOld hEntry
      · rw [List.mem_singleton] at hNew
        exact absurd hZero (by rw [hNew] at hEntry; exact hEntry)
  rw [if_neg hZero]
  have hCell := hSized hZero
  have hNull : (i + boolCount row.columns) / 8 < buffer.bitData.length := by
    rw [hPacked.length, bitBytes]
    omega
  rw [testBit_eq_bitAt hNull, hPacked.bitAt_null hSplit hValue hZero]
  obtain ⟨values, hStore, hLength, hRestored⟩ :=
    hState.store size hColumn hValue
  by_cases hBool : column.type = .bool
  · have hOne : size = 1 := hSize.trans (dbTypeSizeBits_eq_one.mpr hBool)
    rw [hBool] at hCell
    have hBit := hPacked.bitAt_bool hSplit hValue hOne
    have hIn : cursor.boolOffset / 8 < buffer.bitData.length := by
      rw [if_pos hOne] at hBools
      rw [hPacked.length, bitBytes, hState.boolOffset]
      omega
    have hRead : readBoolCell (buffer.packed ++ buffer.bitData) buffer.packed.length
        cursor.boolOffset value.isNone = .ok (storedCell column.type value) := by
      rcases hCell.bool_cases with rfl | ⟨b, rfl⟩
      · rfl
      · unfold readBoolCell
        rw [testBit_eq_bitAt hIn, hState.boolOffset]
        show Except.ok (Value.bool (bitAt buffer.bitData (boolBits done))) =
          Except.ok (Value.bool b)
        have hSame : bitAt buffer.bitData (boolBits done) = b := by
          rw [Bool.eq_iff_iff, hBit]
          simp
        rw [hSame]
    refine Checked.Returns.bind (Q := fun isNull => value.isNone = isNull)
      ⟨_, rfl, rfl⟩ ?_
    rintro _ rfl
    rw [if_pos hBool, hRead]
    show Checked.Returns (storeSlot cursor.values i (storedCell column.type value) >>= _) _
    rw [hStore]
    refine ⟨_, rfl, ?_, ?_, hLength, hRestored⟩
    · simp [hState.offset, hOne, entryBytes]
    · simp [hState.boolOffset, hOne]
  · have hWide : size ≠ 1 := fun h => hBool (dbTypeSizeBits_eq_one.mp (hSize ▸ h))
    obtain ⟨scalar, hScalar, -, hRead⟩ := hCell.scalar hBool
    -- the scalars before the entry fill exactly the bytes before the offset
    have hBefore : (done.flatMap (scalarOf row)).length = cursor.offset := by
      rw [hState.offset]
      exact length_scalars hRow fun e he => by simp [hSplit, he]
    have hShape : buffer.packed ++ buffer.bitData =
        done.flatMap (scalarOf row) ++ scalar ++
          (todo.flatMap (scalarOf row) ++ buffer.bitData) := by
      rw [hPacked.packed, hSplit, List.flatMap_append, List.flatMap_cons,
        scalarOf_eq (size, i) hColumn hValue hZero hBool hScalar]
      simp
    refine Checked.Returns.bind (Q := fun isNull => value.isNone = isNull)
      ⟨_, rfl, rfl⟩ ?_
    rintro _ rfl
    rw [if_neg hBool, hShape, ← hBefore, hRead]
    show Checked.Returns (storeSlot cursor.values i (storedCell column.type value) >>= _) _
    rw [hStore]
    refine ⟨_, rfl, ?_, ?_, hLength, hRestored⟩
    · simp [hBefore, hState.offset, entryBytes, hWide]
    · simp [hState.boolOffset, hWide]

/-- **Rows survive packing.** Every fixed-size cell is back in its slot. -/
theorem unpackFixed_packFixed (hRow : Packable row) :
    ∃ rle fixed, packFixed row = .ok rle ∧ unpackFixed row.columns rle = .ok fixed ∧
      fixed.length = row.columns.length ∧
      ∀ entry ∈ sizeOrder row.columns, entry.1 ≠ 0 →
        ∀ column value, row.columns[entry.2]? = some column →
          row.values[entry.2]? = some value →
          fixed[entry.2]? = some (some (storedCell column.type value)) := by
  obtain ⟨buffer, hPacked, hPack⟩ := exists_packState hRow
  have hBytes : buffer.packed.length + buffer.bitData.length =
      expectedBytes row.columns := by
    rw [hPacked.packed, hPacked.length, length_scalars hRow fun _ h => h,
      scalarBytes_sizeOrder, expectedBytes]
  have hStart : RestoreState row []
      ⟨0, 0, List.replicate row.columns.length none⟩ :=
    ⟨rfl, rfl, List.length_replicate, fun _ hMem => by cases hMem⟩
  obtain ⟨cursor, hRun, hDone⟩ := Checked.Returns.foldlM
    (f := unpackColumn row.columns (buffer.packed ++ buffer.bitData))
    (I := RestoreState row)
    (fun done entry todo hSplit c hc => returns_unpackColumn hRow hPacked hSplit hc)
    _ hStart
  refine ⟨_, cursor.values, hPack, ?_, hDone.length, hDone.restored⟩
  rw [unpackFixed, zeroDecompress_zeroCompress hBytes]
  show (if (buffer.packed ++ buffer.bitData).length < bitBytes row.columns then _
    else _) = _
  rw [if_neg (by rw [List.length_append, hPacked.length]; omega), hRun]
  rfl

-- ---------------------------------------------------------------------------
-- What the packing loop accepts
-- ---------------------------------------------------------------------------

omit row in
/-- A scalar that was packed. -/
theorem packedCell_of_scalar {type : DbType} {value : Value} {scalar : Bytes}
    (hBool : type ≠ .bool) (hSized : dbTypeSizeBits type ≠ 0)
    (h : appendPackedScalar type value = .ok scalar) : PackedCell type value := by
  cases value with
  | none => trivial
  | int n =>
    cases type with
    | r4 | r8 => cases h
    | bool => exact absurd rfl hBool
    | empty | error | bytes | str | wStr | other => exact absurd rfl hSized
    | _ => trivial
  | _ => cases h

omit row in
theorem packedCell_of_bool {value : Value} {bit : Bool} (h : cellBool value = .ok bit) :
    PackedCell .bool value := by
  cases value with
  | none => trivial
  | bool b => rfl
  | _ => cases h

/-- A round of the packing loop that went through. -/
theorem packedCell_of_packColumn {buffer next : RowBuffer} {i : Nat} {column : PackedColumn}
    {value : Value} (hColumn : row.columns[i]? = some column)
    (hValue : row.values[i]? = some value) (hSized : dbTypeSizeBits column.type ≠ 0)
    (h : packColumn row buffer (dbTypeSizeBits column.type, i) = .ok next) :
    PackedCell column.type value := by
  unfold packColumn at h
  obtain ⟨column', hColumn', h⟩ := Checked.bind_eq_ok h
  rw [index, hColumn] at hColumn'
  obtain rfl := Except.ok.inj hColumn'
  rw [if_neg hSized] at h
  obtain ⟨value', hValue', h⟩ := Checked.bind_eq_ok h
  rw [index, hValue] at hValue'
  obtain rfl := Except.ok.inj hValue'
  obtain ⟨bits, -, h⟩ := Checked.bind_eq_ok h
  by_cases hBool : column.type = .bool
  · rw [if_pos hBool] at h
    obtain ⟨bit, hBit, -⟩ := Checked.bind_eq_ok h
    rw [hBool]
    exact packedCell_of_bool hBit
  · rw [if_neg hBool] at h
    obtain ⟨scalar, hScalar, -⟩ := Checked.bind_eq_ok h
    exact packedCell_of_scalar hBool hSized hScalar

/-- A row whose packing loop went through. -/
theorem packable_of_packFixed {rle : Bytes} (hLength : row.values.length = row.columns.length)
    (h : packFixed row = .ok rle) : Packable row := by
  refine ⟨hLength, fun cell hCell hSized => ?_⟩
  obtain ⟨buffer, hLoop, -⟩ := Checked.bind_eq_ok h
  obtain ⟨i, hi⟩ := List.mem_iff_getElem?.mp hCell
  obtain ⟨hColumn, hValue⟩ := List.getElem?_zip_eq_some.mp hi
  have hEntry : (dbTypeSizeBits cell.1.type, i) ∈ sizeOrder row.columns :=
    mem_sizeOrder.mpr ⟨cell.1, hColumn, rfl⟩
  obtain ⟨before, after, hRound⟩ := Checked.foldlM_eq_ok hLoop hEntry
  exact packedCell_of_packColumn hColumn hValue hSized hRound

end Row

end Ithax.Marshal
