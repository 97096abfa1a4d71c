import Ithax.Marshal.RowRoundTrip
import Ithax.Marshal.RowSafety

/-!
# The layout of a row, by its schema and by its decoder

The scalars of a row take the first `fixedBits / 8` bytes of the decompressed data and
the bit section the next `bitBytes`. `DecodePackedRow` counts the bit section from the
end of the data instead. `ZeroDecompress` stops between two runs only, so the data can be
up to seven bytes longer than that, and then the bits come from another place.

## Results

* `unpackFixed_cells`      — where `DecodePackedRow` finds every fixed-size cell.
* `schemaBits_of_length`   — data without an overshoot is read as the schema says.
* `row_layout_iff`         — the blobs whose cells are those of the schema.
-/

namespace Ithax.Marshal

open Ithax.Lib

-- ---------------------------------------------------------------------------
-- Cells by their places
-- ---------------------------------------------------------------------------

/-- Bit `n` of the section that begins at `base`. -/
def sectionBit (data : Bytes) (base n : Nat) : Bool := bitAt (data.drop base) n

/-- The scalar at an offset, if there is one. -/
def scalarAt (data : Bytes) (offset : Nat) (type : DbType) : Value :=
  match readPackedScalar data offset type with
  | .ok value => value
  | .error _ => .none

/-- The cell of a sized column that comes after the entries `done` of the column order: its
scalar where theirs end, its bits in the section that begins at `base`. -/
def cellAt (columns : List PackedColumn) (data : Bytes) (base : Nat) (done : List (Nat × Nat))
    (i : Nat) (type : DbType) : Value :=
  if sectionBit data base (i + boolCount columns) then .none
  else if type = .bool then .bool (sectionBit data base (boolBits done))
  else scalarAt data (scalarBytes done) type

/-- The fixed-size cells are those of the data, with the bit section at `base`. -/
def CellsAt (columns : List PackedColumn) (data : Bytes) (base : Nat)
    (fixed : List (Option Value)) : Prop :=
  ∀ done size i todo column, sizeOrder columns = done ++ (size, i) :: todo → size ≠ 0 →
    columns[i]? = some column →
    fixed[i]? = some (some (cellAt columns data base done i column.type))

theorem testBit_section {data : Bytes} {base n : Nat} (h : base + n / 8 < data.length) :
    testBit data base n = .ok (sectionBit data base n) := by
  have hTake : (data.take base).length = base := by
    rw [List.length_take]
    omega
  have hIn : n / 8 < (data.drop base).length := by
    rw [List.length_drop]
    omega
  have hBit := @testBit_eq_bitAt (data.take base) _ _ hIn
  rw [hTake, List.take_append_drop] at hBit
  exact hBit

theorem readPackedScalar_eq {data : Bytes} {offset : Nat} {type : DbType} (hBool : type ≠ .bool)
    (hSized : dbTypeSizeBits type ≠ 0) (h : offset + dbTypeSizeBits type / 8 ≤ data.length) :
    readPackedScalar data offset type = .ok (scalarAt data offset type) := by
  have hSome : (readPackedScalar data offset type).Returns fun _ => True := by
    cases type with
    | cy | i8 | ui8 | fileTime | r8 | i4 | ui4 | r4 | i2 | ui2 =>
      exact Checked.Returns.bind (Q := fun _ => True) ⟨_, slice_of_le h, trivial⟩
        fun bytes _ => ⟨_, rfl, trivial⟩
    | i1 | ui1 =>
      exact Checked.Returns.bind (Q := fun _ => True) ⟨_, index_of_lt h, trivial⟩
        fun byte _ => ⟨_, rfl, trivial⟩
    | bool => exact absurd rfl hBool
    | _ => exact absurd rfl hSized
  obtain ⟨value, hValue, -⟩ := hSome
  rw [scalarAt, hValue]

/-- The null bit of a cell says `None`; otherwise a boolean column has its own bit. -/
theorem readBoolCell_eq {columns : List PackedColumn} {data : Bytes} {base i : Nat}
    {done : List (Nat × Nat)} (hBit : base + boolBits done / 8 < data.length) :
    readBoolCell data base (boolBits done) (sectionBit data base (i + boolCount columns)) =
      .ok (cellAt columns data base done i .bool) := by
  unfold readBoolCell cellAt
  cases sectionBit data base (i + boolCount columns) with
  | true => rfl
  | false =>
    rw [testBit_section hBit, if_neg (by simp), if_neg (by simp), if_pos rfl]
    rfl

/-- The null bit of a cell says `None`; otherwise the other columns have their scalars. -/
theorem readScalarCell_eq {columns : List PackedColumn} {data : Bytes} {base i : Nat}
    {done : List (Nat × Nat)} {type : DbType} (hBool : type ≠ .bool)
    (hSized : dbTypeSizeBits type ≠ 0)
    (hRoom : scalarBytes done + dbTypeSizeBits type / 8 ≤ data.length) :
    readScalarCell data (scalarBytes done) type (sectionBit data base (i + boolCount columns)) =
      .ok (cellAt columns data base done i type) := by
  unfold readScalarCell cellAt
  cases sectionBit data base (i + boolCount columns) with
  | true => rfl
  | false =>
    rw [if_neg (by simp), if_neg (by simp), if_neg hBool,
      readPackedScalar_eq hBool hSized hRoom]

-- ---------------------------------------------------------------------------
-- The unpacking loop
-- ---------------------------------------------------------------------------

/-- Where an element of a list with one more at its end stands. -/
theorem concat_split {α : Type} {done before after : List α} {x y : α}
    (h : done ++ [x] = before ++ y :: after) :
    (before = done ∧ y = x) ∨ ∃ rest, done = before ++ y :: rest := by
  rcases List.append_eq_append_iff.mp h with ⟨tail, hBefore, hTail⟩ | ⟨tail, hDone, hTail⟩
  · cases tail with
    | nil =>
      rw [List.append_nil] at hBefore
      exact Or.inl ⟨hBefore, (List.cons.inj hTail).1.symm⟩
    | cons first tail =>
      have hLength := congrArg List.length hTail
      simp only [List.length_cons, List.length_nil, List.length_append] at hLength
      omega
  · cases tail with
    | nil =>
      rw [List.append_nil] at hDone
      exact Or.inl ⟨hDone.symm, (List.cons.inj hTail).1⟩
    | cons first tail =>
      obtain ⟨rfl, -⟩ := List.cons.inj hTail
      exact Or.inr ⟨tail, hDone⟩

/-- What the unpacking loop has stored after the entries `done`. -/
structure CellState (columns : List PackedColumn) (unpacked : Bytes) (done : List (Nat × Nat))
    (cursor : RowCursor) : Prop where
  offset : cursor.offset = scalarBytes done
  boolOffset : cursor.boolOffset = boolBits done
  length : cursor.values.length = columns.length
  cells : ∀ before size i after column, done = before ++ (size, i) :: after → size ≠ 0 →
    columns[i]? = some column → cursor.values[i]? = some (some
      (cellAt columns unpacked (unpacked.length - bitBytes columns) before i column.type))

section Round

variable {columns : List PackedColumn} {unpacked : Bytes} {done : List (Nat × Nat)}
  {cursor : RowCursor}

/-- An entry of a size-0 column leaves everything where it is. -/
theorem CellState.skip (h : CellState columns unpacked done cursor) (i : Nat) :
    CellState columns unpacked (done ++ [(0, i)]) cursor := by
  refine ⟨?_, ?_, h.length, ?_⟩
  · rw [h.offset]
    simp [entryBytes]
  · rw [h.boolOffset]
    simp
  · intro before size j after column hSplit hSized hColumn
    rcases concat_split hSplit with ⟨-, hSame⟩ | ⟨rest, hDone⟩
    · exact absurd (Prod.mk.inj hSame).1 hSized
    · exact h.cells before size j rest column hDone hSized hColumn

/-- A slot is stored, the others stay. -/
theorem CellState.store (h : CellState columns unpacked done cursor) {size i : Nat}
    {column : PackedColumn} (hColumn : columns[i]? = some column)
    (hFresh : i ∉ done.map Prod.snd) {offset boolOffset : Nat}
    (hOffset : offset = scalarBytes (done ++ [(size, i)]))
    (hBools : boolOffset = boolBits (done ++ [(size, i)])) :
    CellState columns unpacked (done ++ [(size, i)]) ⟨offset, boolOffset,
      cursor.values.set i (some (cellAt columns unpacked
        (unpacked.length - bitBytes columns) done i column.type))⟩ := by
  have hSlot : i < cursor.values.length := by
    rw [h.length]
    exact (List.getElem?_eq_some_iff.mp hColumn).1
  refine ⟨hOffset, hBools, List.length_set.trans h.length, ?_⟩
  intro before size' j after column' hSplit hSized hColumn'
  rcases concat_split hSplit with ⟨rfl, hSame⟩ | ⟨rest, hDone⟩
  · obtain ⟨rfl, rfl⟩ := Prod.mk.inj hSame
    obtain rfl := Option.some.inj (hColumn.symm.trans hColumn')
    rw [List.getElem?_set_self hSlot]
  · have hOther : i ≠ j := by
      rintro rfl
      exact hFresh (List.mem_map.mpr ⟨(size', i), by rw [hDone]; simp, rfl⟩)
    rw [List.getElem?_set_ne hOther]
    exact h.cells before size' j rest column' hDone hSized hColumn'

/-- One round of the loop. -/
theorem returns_unpackColumn_cell (hBytes : expectedBytes columns ≤ unpacked.length)
    {todo : List (Nat × Nat)} {entry : Nat × Nat}
    (hSplit : sizeOrder columns = done ++ entry :: todo)
    (hState : CellState columns unpacked done cursor) :
    (unpackColumn columns unpacked cursor entry).Returns
      (CellState columns unpacked (done ++ [entry])) := by
  obtain ⟨size, i⟩ := entry
  obtain ⟨⟨hi, hSize⟩, hScalar, hBools, hFresh⟩ := sizeOrder_split hSplit
  have hColumn : columns[i]? = some columns[i] := List.getElem?_eq_getElem hi
  have hSlot : i < cursor.values.length := by
    rw [hState.length]
    exact hi
  unfold expectedBytes at hBytes
  unfold unpackColumn
  refine (Checked.returns_index hColumn).bind ?_
  rintro _ rfl
  by_cases hZero : size = 0
  · rw [if_pos hZero, hZero]
    exact ⟨cursor, rfl, hState.skip i⟩
  rw [if_neg hZero]
  have hNull : unpacked.length - bitBytes columns + (i + boolCount columns) / 8 <
      unpacked.length := by
    unfold bitBytes at hBytes ⊢
    omega
  rw [testBit_section hNull]
  refine Checked.Returns.bind (Q := fun isNull => isNull = _) ⟨_, rfl, rfl⟩ ?_
  rintro _ rfl
  by_cases hBool : columns[i].type = .bool
  · have hOne : size = 1 := hSize.trans (dbTypeSizeBits_eq_one.mpr hBool)
    rw [if_pos hOne] at hBools
    have hBit : unpacked.length - bitBytes columns + boolBits done / 8 < unpacked.length := by
      unfold bitBytes at hBytes ⊢
      omega
    rw [if_pos hBool, hState.boolOffset, readBoolCell_eq hBit, ← hBool]
    refine Checked.Returns.bind (Q := fun value => value = _) ⟨_, rfl, rfl⟩ ?_
    rintro _ rfl
    refine Checked.Returns.bind (Q := fun values => values = _) ⟨_, if_pos hSlot, rfl⟩ ?_
    rintro _ rfl
    refine ⟨_, rfl, hState.store hColumn hFresh ?_ ?_⟩
    · simp [hState.offset, hOne, entryBytes]
    · simp [hOne]
  · have hWide : size ≠ 1 := fun h => hBool (dbTypeSizeBits_eq_one.mp (hSize ▸ h))
    rw [entryBytes, if_neg hWide] at hScalar
    have hRoom : scalarBytes done + dbTypeSizeBits columns[i].type / 8 ≤ unpacked.length := by
      rw [← hSize]
      omega
    rw [if_neg hBool, hState.offset, readScalarCell_eq hBool (hSize ▸ hZero) hRoom]
    refine Checked.Returns.bind (Q := fun value => value = _) ⟨_, rfl, rfl⟩ ?_
    rintro _ rfl
    refine Checked.Returns.bind (Q := fun values => values = _) ⟨_, if_pos hSlot, rfl⟩ ?_
    rintro _ rfl
    refine ⟨_, rfl, hState.store hColumn hFresh ?_ ?_⟩
    · simp [entryBytes, hWide]
    · simp [hState.boolOffset, hWide]

end Round

/-- The cells of an accepted row, with the bit section counted from the end. -/
theorem unpackFixed_cells {columns : List PackedColumn} {rle unpacked : Bytes}
    (h : zeroDecompress rle columns = .ok unpacked) :
    ∃ fixed, unpackFixed columns rle = .ok fixed ∧ fixed.length = columns.length ∧
      CellsAt columns unpacked (unpacked.length - bitBytes columns) fixed := by
  have hBytes : expectedBytes columns ≤ unpacked.length := by
    have hSafe := safe_zeroDecompress rle columns
    rw [h] at hSafe
    exact hSafe
  have hStart : CellState columns unpacked [] ⟨0, 0, List.replicate columns.length none⟩ := by
    refine ⟨rfl, rfl, List.length_replicate, ?_⟩
    intro before size i after column hSplit
    exact absurd hSplit.symm (by simp)
  obtain ⟨cursor, hRun, hDone⟩ := Checked.Returns.foldlM (f := unpackColumn columns unpacked)
    (I := CellState columns unpacked)
    (fun done entry todo hSplit c hc => returns_unpackColumn_cell hBytes hSplit hc) _ hStart
  refine ⟨cursor.values, ?_, hDone.length, hDone.cells⟩
  have hLong : ¬unpacked.length < bitBytes columns := by
    unfold expectedBytes at hBytes
    omega
  rw [unpackFixed, h]
  show (if unpacked.length < bitBytes columns then _ else _) = _
  rw [if_neg hLong, hRun]
  rfl

-- ---------------------------------------------------------------------------
-- The schema
-- ---------------------------------------------------------------------------

/-- The cells depend on the first `expectedBytes` decompressed bytes only, with the bit
section right behind the scalars. -/
def FollowsSchema (columns : List PackedColumn) (rle : Bytes) (fixed : List (Option Value)) :
    Prop :=
  ∃ unpacked, zeroDecompress rle columns = .ok unpacked ∧
    CellsAt columns (unpacked.take (expectedBytes columns)) (fixedBits columns / 8) fixed

/-- The bits at the end of the data that the decoder looks at are those of the schema: the
null bit of every sized column, and the bit of every boolean column that is not null. -/
def BitsAgree (columns : List PackedColumn) (unpacked : Bytes) : Prop :=
  ∀ done size i todo, sizeOrder columns = done ++ (size, i) :: todo → size ≠ 0 →
    sectionBit unpacked (unpacked.length - bitBytes columns) (i + boolCount columns) =
      sectionBit unpacked (fixedBits columns / 8) (i + boolCount columns) ∧
    (size = 1 → sectionBit unpacked (fixedBits columns / 8) (i + boolCount columns) = false →
      sectionBit unpacked (unpacked.length - bitBytes columns) (boolBits done) =
        sectionBit unpacked (fixedBits columns / 8) (boolBits done))

theorem schemaBits_of_length {columns : List PackedColumn} {unpacked : Bytes}
    (h : unpacked.length = expectedBytes columns) : BitsAgree columns unpacked := by
  have hBase : unpacked.length - bitBytes columns = fixedBits columns / 8 := by
    rw [h, expectedBytes]
    omega
  intro done size i todo hSplit hSized
  rw [hBase]
  exact ⟨rfl, fun _ _ => rfl⟩

theorem sectionBit_take {data : Bytes} {base n k : Nat} (h : base + n / 8 < k) :
    sectionBit (data.take k) base n = sectionBit data base n := by
  have hByte : ((data.take k).drop base).getD (n / 8) 0 = (data.drop base).getD (n / 8) 0 := by
    rw [List.getD_eq_getElem?_getD, List.getD_eq_getElem?_getD, List.getElem?_drop,
      List.getElem?_drop, List.getElem?_take_of_lt h]
  rw [sectionBit, sectionBit, bitAt, bitAt, hByte]

theorem slice_take {ε : Type} {data : Bytes} {offset n k : Nat} (h : offset + n ≤ k)
    (hLength : k ≤ data.length) :
    (slice (data.take k) offset n : Checked ε Bytes) = slice data offset n := by
  rw [slice_of_le (by rw [List.length_take]; omega), slice_of_le (by omega), List.drop_take,
    List.take_take, Nat.min_eq_left (by omega)]

theorem index_take {ε : Type} {data : Bytes} {offset k : Nat} (h : offset < k)
    (hLength : k ≤ data.length) :
    (index (data.take k) offset : Checked ε UInt8) = index data offset := by
  rw [index_of_lt (by rw [List.length_take]; omega), index_of_lt (by omega), List.getElem_take]

theorem scalarAt_take {data : Bytes} {offset k : Nat} {type : DbType}
    (h : offset + dbTypeSizeBits type / 8 ≤ k) (hLength : k ≤ data.length) :
    scalarAt (data.take k) offset type = scalarAt data offset type := by
  have hRead : readPackedScalar (data.take k) offset type = readPackedScalar data offset type := by
    cases type with
    | cy | i8 | ui8 | fileTime | r8 =>
      have hSlice := @slice_take MarshalError data offset 8 k h hLength
      simp only [readPackedScalar, hSlice]
    | i4 | ui4 | r4 =>
      have hSlice := @slice_take MarshalError data offset 4 k h hLength
      simp only [readPackedScalar, hSlice]
    | i2 | ui2 =>
      have hSlice := @slice_take MarshalError data offset 2 k h hLength
      simp only [readPackedScalar, hSlice]
    | i1 | ui1 =>
      have hIndex := @index_take MarshalError data offset k h hLength
      simp only [readPackedScalar, hIndex]
    | _ => rfl
  rw [scalarAt, hRead, scalarAt]

/-- A scalar is never null. -/
theorem scalarAt_ne_none {data : Bytes} {offset : Nat} {type : DbType} (hBool : type ≠ .bool)
    (hSized : dbTypeSizeBits type ≠ 0) (h : offset + dbTypeSizeBits type / 8 ≤ data.length) :
    scalarAt data offset type ≠ .none := by
  intro hNone
  have hRead := readPackedScalar_eq hBool hSized h
  rw [hNone] at hRead
  cases type with
  | cy | i8 | ui8 | fileTime | r8 | i4 | ui4 | r4 | i2 | ui2 =>
    obtain ⟨bytes, -, hValue⟩ := Checked.bind_eq_ok hRead
    cases hValue
  | i1 | ui1 =>
    obtain ⟨byte, -, hValue⟩ := Checked.bind_eq_ok hRead
    cases hValue
  | bool => exact hBool rfl
  | _ => exact hSized rfl

section Entry

variable {columns : List PackedColumn} {unpacked : Bytes} {done todo : List (Nat × Nat)}
  {size i : Nat} {column : PackedColumn} (hBytes : expectedBytes columns ≤ unpacked.length)
  (hSplit : sizeOrder columns = done ++ (size, i) :: todo) (hSized : size ≠ 0)
  (hColumn : columns[i]? = some column)

include hBytes hSplit hColumn

/-- Nothing behind the first `expectedBytes` bytes matters for a cell of the schema. -/
theorem cellAt_take :
    cellAt columns (unpacked.take (expectedBytes columns)) (fixedBits columns / 8) done i
      column.type = cellAt columns unpacked (fixedBits columns / 8) done i column.type := by
  obtain ⟨⟨hi, hSize⟩, hScalar, hBools, -⟩ := sizeOrder_split hSplit
  obtain rfl : columns[i] = column := by
    rw [List.getElem?_eq_getElem hi] at hColumn
    exact Option.some.inj hColumn
  have hNull : fixedBits columns / 8 + (i + boolCount columns) / 8 < expectedBytes columns := by
    unfold expectedBytes bitBytes
    omega
  unfold cellAt
  rw [sectionBit_take hNull]
  by_cases hBool : columns[i].type = .bool
  · have hOne : size = 1 := hSize.trans (dbTypeSizeBits_eq_one.mpr hBool)
    rw [if_pos hOne] at hBools
    have hBit : fixedBits columns / 8 + boolBits done / 8 < expectedBytes columns := by
      unfold expectedBytes bitBytes
      omega
    rw [if_pos hBool, if_pos hBool, sectionBit_take hBit]
  · have hWide : size ≠ 1 := fun h => hBool (dbTypeSizeBits_eq_one.mp (hSize ▸ h))
    have hRoom : scalarBytes done + dbTypeSizeBits columns[i].type / 8 ≤ expectedBytes columns := by
      rw [entryBytes, if_neg hWide] at hScalar
      rw [← hSize]
      unfold expectedBytes
      omega
    rw [if_neg hBool, if_neg hBool, scalarAt_take hRoom hBytes]

include hSized in
/-- Two places of the bit section give one cell exactly if the bits that count agree. -/
theorem cellAt_eq_iff {base base' : Nat} :
    cellAt columns unpacked base done i column.type =
        cellAt columns unpacked base' done i column.type ↔
      sectionBit unpacked base (i + boolCount columns) =
        sectionBit unpacked base' (i + boolCount columns) ∧
      (size = 1 → sectionBit unpacked base' (i + boolCount columns) = false →
        sectionBit unpacked base (boolBits done) = sectionBit unpacked base' (boolBits done)) := by
  obtain ⟨⟨hi, hSize⟩, hScalar, -, -⟩ := sizeOrder_split hSplit
  obtain rfl : columns[i] = column := by
    rw [List.getElem?_eq_getElem hi] at hColumn
    exact Option.some.inj hColumn
  unfold cellAt
  generalize sectionBit unpacked base (i + boolCount columns) = isNull
  generalize sectionBit unpacked base' (i + boolCount columns) = isNull'
  by_cases hBool : columns[i].type = .bool
  · have hOne : size = 1 := hSize.trans (dbTypeSizeBits_eq_one.mpr hBool)
    rw [if_pos hBool, if_pos hBool]
    cases isNull <;> cases isNull' <;> simp [hOne]
  · have hWide : size ≠ 1 := fun h => hBool (dbTypeSizeBits_eq_one.mp (hSize ▸ h))
    have hRoom : scalarBytes done + dbTypeSizeBits columns[i].type / 8 ≤ unpacked.length := by
      rw [entryBytes, if_neg hWide] at hScalar
      rw [← hSize]
      unfold expectedBytes at hBytes
      omega
    have hSome := scalarAt_ne_none hBool (hSize ▸ hSized) hRoom
    rw [if_neg hBool, if_neg hBool]
    cases isNull <;> cases isNull' <;> simp [hWide, hSome, Ne.symm hSome]

end Entry

/-- The cells that `DecodePackedRow` reads are those of the schema exactly if the bits it
looks at are. -/
theorem followsSchema_iff {columns : List PackedColumn} {rle unpacked : Bytes}
    {fixed : List (Option Value)} (hUnpacked : zeroDecompress rle columns = .ok unpacked)
    (hFixed : unpackFixed columns rle = .ok fixed) :
    FollowsSchema columns rle fixed ↔ BitsAgree columns unpacked := by
  have hBytes : expectedBytes columns ≤ unpacked.length := by
    have hSafe := safe_zeroDecompress rle columns
    rw [hUnpacked] at hSafe
    exact hSafe
  obtain ⟨fixed', hRun, -, hCells⟩ := unpackFixed_cells hUnpacked
  obtain rfl := Except.ok.inj (hFixed.symm.trans hRun)
  constructor
  · rintro ⟨unpacked', hSame, hSchema⟩ done size i todo hSplit hSized
    obtain rfl := Except.ok.inj (hUnpacked.symm.trans hSame)
    obtain ⟨⟨hi, -⟩, -⟩ := sizeOrder_split hSplit
    have hColumn : columns[i]? = some columns[i] := List.getElem?_eq_getElem hi
    have hCode := hCells done size i todo _ hSplit hSized hColumn
    have hDocumented := hSchema done size i todo _ hSplit hSized hColumn
    rw [cellAt_take hBytes hSplit hColumn] at hDocumented
    rw [hCode] at hDocumented
    exact (cellAt_eq_iff hBytes hSplit hSized hColumn).mp
      (Option.some.inj (Option.some.inj hDocumented))
  · intro hAgree
    refine ⟨unpacked, hUnpacked, ?_⟩
    intro done size i todo column hSplit hSized hColumn
    rw [cellAt_take hBytes hSplit hColumn,
      ← (cellAt_eq_iff hBytes hSplit hSized hColumn).mpr (hAgree done size i todo hSplit hSized)]
    exact hCells done size i todo column hSplit hSized hColumn

/-- For every column list and blob: the cells of an accepted row follow the schema exactly
if the decompressed bits agree, as they do when no run goes past the end. -/
theorem row_layout_iff (columns : List PackedColumn) (rle : Bytes) :
    (∀ fixed, unpackFixed columns rle = .ok fixed → FollowsSchema columns rle fixed) ↔
      ∀ unpacked, zeroDecompress rle columns = .ok unpacked →
        unpacked.length = expectedBytes columns ∨ BitsAgree columns unpacked := by
  constructor
  · intro hFollows unpacked hUnpacked
    obtain ⟨fixed, hRun, -⟩ := unpackFixed_cells hUnpacked
    exact Or.inr ((followsSchema_iff hUnpacked hRun).mp (hFollows fixed hRun))
  · intro hAgree fixed hFixed
    obtain ⟨unpacked, hUnpacked, -⟩ := Checked.bind_eq_ok hFixed
    refine (followsSchema_iff hUnpacked hFixed).mpr ?_
    rcases hAgree unpacked hUnpacked with hExact | hBits
    · exact schemaBits_of_length hExact
    · exact hBits

/-- One boolean column. -/
def flagColumns : List PackedColumn := [⟨[0x61], .bool⟩]

/-- A literal run of two bytes where one is needed. -/
def overshootBlob : Bytes := [0x06, 0x01, 0x00]

/-- The schema's byte says `true`, the decoder reads `false` from the one behind it. -/
theorem row_layout_overshoot : ¬ ∀ columns rle fixed,
    unpackFixed columns rle = .ok fixed → FollowsSchema columns rle fixed := by
  intro h
  have hUnpacked : zeroDecompress overshootBlob flagColumns = .ok [0x01, 0x00] := by
    decide +kernel
  obtain ⟨fixed, hRun, -⟩ := unpackFixed_cells hUnpacked
  have hAgree := (followsSchema_iff hUnpacked hRun).mp (h _ _ fixed hRun)
  have hOrder : sizeOrder flagColumns = [] ++ (1, 0) :: [] := by decide +kernel
  have hBits := (hAgree [] 1 0 [] hOrder (by decide)).2 rfl (by decide +kernel)
  revert hBits
  decide +kernel

end Ithax.Marshal
