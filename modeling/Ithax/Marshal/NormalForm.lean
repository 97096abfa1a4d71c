import Ithax.Lib.ReaderInvariant
import Ithax.Marshal.RowKinds
import Ithax.Marshal.SelfDelimiting

/-!
# Encoding what was decoded

The decoder accepts many streams for one value: other opcodes, longer sizes, other runs in
the packed part of a row, descriptors with more in them. What it answers is always in the
encoder's domain, as long as nothing is spliced in from a save table and no packed cell is a
real, and the encoder writes one stream for it.

With an empty save table every answer nests no deeper than the recursion that made it
(`Accepted`), its containers are within the limits that were read, and its fixed-size cells
are what a column of their type can hold.

## Results

* `accepted_decodeLevels`   — what the recursive decoder answers without a save table.
* `encodeLevels_positiveZero` — the encoder does not see the sign of a zero.
* `encode_decoded`          — the stream of a decoded value is its normal form.
-/

namespace Ithax.Marshal

open Ithax.Lib Ithax.Lib.Reader

-- ---------------------------------------------------------------------------
-- Decoded values
-- ---------------------------------------------------------------------------

/-- What the unpacking loop puts into a fixed-size cell. -/
def ReadCell (type : DbType) : Value → Prop
  | .none => True
  | .bool _ => type = .bool
  | .int n => IntColumn type ∧ storedInt type n = n
  | .real _ => type = .r4 ∨ type = .r8
  | _ => False

/-- What the decoder has checked of a value besides its children. -/
def Decoded : Value → Prop
  | .tuple items | .list items => items.length ≤ MAX_CONTAINER_COUNT
  | .dict entries => entries.length ≤ MAX_CONTAINER_COUNT
  | .packedRow row => row.columns.length ≤ kMaxPackedRowColumns ∧
    row.values.length = row.columns.length ∧
    ∀ cell ∈ row.columns.zip row.values, dbTypeSizeBits cell.1.type ≠ 0 →
      ReadCell cell.1.type cell.2
  | _ => True

/-- What the decoder answers with `levels` depths left. -/
structure Accepted (levels : Nat) (v : Value) : Prop where
  fits : Fits levels v
  decoded : v.Everywhere Decoded

section Accepted

variable {levels : Nat}

/-- Nothing fits into no levels. -/
theorem Fits.pos {v : Value} (h : Fits levels v) : 0 < levels := Nat.zero_lt_of_lt h

/-- A value without children. -/
theorem accepted_leaf {v : Value} (hFlat : v.nestingDepth = 0) (hDecoded : Decoded v)
    (h : v.children = []) : Accepted (levels + 1) v := by
  refine ⟨?_, .leaf hDecoded h⟩
  show v.nestingDepth < levels + 1
  omega

/-- A tuple of accepted values. -/
theorem accepted_tuple {items : List Value} (hCount : items.length ≤ MAX_CONTAINER_COUNT)
    (h : ∀ item ∈ items, Accepted levels item) : Accepted (levels + 1) (.tuple items) :=
  ⟨fits_tuple.mpr fun item hItem => (h item hItem).fits,
    .node hCount fun child hChild => (h child hChild).decoded⟩

/-- A list of accepted values. -/
theorem accepted_list {items : List Value} (hCount : items.length ≤ MAX_CONTAINER_COUNT)
    (h : ∀ item ∈ items, Accepted levels item) : Accepted (levels + 1) (.list items) :=
  ⟨fits_list.mpr fun item hItem => (h item hItem).fits,
    .node hCount fun child hChild => (h child hChild).decoded⟩

/-- Both halves of an entry. -/
def EntryAccepted (levels : Nat) (entry : DictEntry Value) : Prop :=
  Accepted levels entry.key ∧ Accepted levels entry.value

/-- A dict of accepted entries. -/
theorem accepted_dict {entries : List (DictEntry Value)}
    (hCount : entries.length ≤ MAX_CONTAINER_COUNT)
    (h : ∀ entry ∈ entries, EntryAccepted levels entry) :
    Accepted (levels + 1) (.dict entries) := by
  refine ⟨fits_dict.mpr fun entry hEntry => ⟨(h entry hEntry).1.fits, (h entry hEntry).2.fits⟩,
    .node hCount (forall_entries_iff.mp fun entry hEntry => ?_)⟩
  exact ⟨(h entry hEntry).1.decoded, (h entry hEntry).2.decoded⟩

/-- An object with accepted arguments. -/
theorem accepted_object {type : Bytes} {args : Value} (h : Accepted levels args) :
    Accepted (levels + 1) (.object type args) := by
  refine ⟨fits_object.mpr h.fits, .node trivial fun child hChild => ?_⟩
  rw [List.mem_singleton.mp hChild]
  exact h.decoded

/-- The header, the list and the dict of an `ObjectEx`. -/
theorem accepted_objectEx {isType2 : Bool} {header : Value} {list : List Value}
    {dict : List (DictEntry Value)} (hHeader : Accepted levels header)
    (hList : ∀ item ∈ list, Accepted levels item)
    (hDict : ∀ entry ∈ dict, EntryAccepted levels entry) :
    Accepted (levels + 1) (.objectEx isType2 ⟨header, list, dict⟩) := by
  refine ⟨fits_objectEx.mpr ⟨hHeader.fits, fun item hItem => (hList item hItem).fits,
    fun entry hEntry => ⟨(hDict entry hEntry).1.fits, (hDict entry hEntry).2.fits⟩⟩,
    .node trivial ?_⟩
  refine List.forall_mem_cons.mpr ⟨hHeader.decoded, List.forall_mem_append.mpr
    ⟨fun item hItem => (hList item hItem).decoded, forall_entries_iff.mp fun entry hEntry => ?_⟩⟩
  exact ⟨(hDict entry hEntry).1.decoded, (hDict entry hEntry).2.decoded⟩

/-- A wrapped value. -/
theorem accepted_subStruct {value : Value} (h : Accepted levels value) :
    Accepted (levels + 1) (.subStruct value) := by
  refine ⟨fits_subStruct.mpr h.fits, .node trivial fun child hChild => ?_⟩
  rw [List.mem_singleton.mp hChild]
  exact h.decoded

/-- A wrapped value with its checksum. -/
theorem accepted_checksumedStream {checksum : UInt32} {value : Value}
    (h : Accepted levels value) : Accepted (levels + 1) (.checksumedStream checksum value) := by
  refine ⟨fits_checksumedStream.mpr h.fits, .node trivial fun child hChild => ?_⟩
  rw [List.mem_singleton.mp hChild]
  exact h.decoded

/-- A cell that was read is a leaf. -/
theorem ReadCell.accepted {type : DbType} {value : Value} (h : ReadCell type value)
    (hLevels : 0 < levels) : Accepted levels value := by
  obtain ⟨n, rfl⟩ : ∃ n, levels = n + 1 := ⟨levels - 1, by omega⟩
  cases value with
  | none | bool b | int n | real bits => exact accepted_leaf rfl trivial rfl
  | _ => exact h.elim

end Accepted

-- ---------------------------------------------------------------------------
-- The packed part of a row
-- ---------------------------------------------------------------------------

/-- An integer in the range of its column. -/
theorem readCell_of_range {type : DbType} {n : Int64} (h : ColumnRange type n.toInt) :
    ReadCell type (.int n) := ⟨.of_range h, storedInt_of_range h⟩

/-- A scalar has the range of its column, but for the unsigned 64 bits, which are kept as
they are. -/
theorem yields_readPackedScalar (data : Bytes) (offset : Nat) (type : DbType) :
    (readPackedScalar data offset type).Yields (ReadCell type) := by
  have hSlice : ∀ n, (slice data offset n : Result Bytes).Yields fun bs => bs.length = n := by
    intro n bs h
    unfold slice at h
    split at h
    · cases h
      rw [List.length_take, List.length_drop]
      omega
    · cases h
  cases type with
  | cy | i8 | ui8 | fileTime =>
    exact Checked.Yields.after fun bs => Checked.yields_ok ⟨trivial, rfl⟩
  | i4 =>
    refine Checked.Yields.after fun bs => Checked.yields_ok ⟨trivial, ?_⟩
    rw [storedInt, Int32.toInt32_toInt64]
  | i2 =>
    refine Checked.Yields.after fun bs => Checked.yields_ok ⟨trivial, ?_⟩
    rw [storedInt, Int16.toInt16_toInt64]
  | i1 =>
    refine Checked.Yields.after fun b => Checked.yields_ok ⟨trivial, ?_⟩
    rw [storedInt, Int8.toInt8_toInt64]
  | ui4 =>
    refine (hSlice 4).bind fun bs hLength => Checked.yields_ok (readCell_of_range ?_)
    have hLt := leNat_lt bs
    rw [hLength] at hLt
    rw [Int64.toInt_ofNat_of_lt (by omega)]
    exact ⟨by omega, by omega⟩
  | ui2 =>
    refine (hSlice 2).bind fun bs hLength => Checked.yields_ok (readCell_of_range ?_)
    have hLt := leNat_lt bs
    rw [hLength] at hLt
    rw [Int64.toInt_ofNat_of_lt (by omega)]
    exact ⟨by omega, by omega⟩
  | ui1 =>
    refine Checked.Yields.after fun b => Checked.yields_ok (readCell_of_range ?_)
    have hLt := b.toNat_lt
    rw [Int64.toInt_ofNat_of_lt (by omega)]
    exact ⟨by omega, by omega⟩
  | r4 => exact Checked.Yields.after fun bs => Checked.yields_ok (Or.inl rfl)
  | r8 => exact Checked.Yields.after fun bs => Checked.yields_ok (Or.inr rfl)
  | _ =>
    intro v h
    cases h

section Rows

variable {levels : Nat} {columns : List PackedColumn}

/-- What may stand in the cell of a column. -/
def SlotCell (levels : Nat) (column : PackedColumn) (value : Value) : Prop :=
  if dbTypeSizeBits column.type = 0 then Accepted levels value
  else ReadCell column.type value

/-- Every slot that was assigned holds such a cell. -/
structure SlotCells (levels : Nat) (columns : List PackedColumn)
    (values : List (Option Value)) : Prop where
  length : values.length = columns.length
  cells : ∀ (i : Nat) column value, columns[i]? = some column → values[i]? = some (some value) →
    SlotCell levels column value

/-- Filling one slot. -/
theorem SlotCells.store {values values' : List (Option Value)} {i : Nat} {value : Value}
    {column : PackedColumn} (h : SlotCells levels columns values)
    (hColumn : columns[i]? = some column) (hValue : SlotCell levels column value)
    (hStore : storeSlot values i value = .ok values') : SlotCells levels columns values' := by
  obtain ⟨hi, rfl⟩ := storeSlot_eq_ok hStore
  refine ⟨by rw [List.length_set, h.length], ?_⟩
  intro j other w hOther hSlot
  by_cases hSame : i = j
  · subst hSame
    rw [List.getElem?_set_self hi] at hSlot
    cases hSlot
    obtain rfl := Option.some.inj (hColumn.symm.trans hOther)
    exact hValue
  · rw [List.getElem?_set_ne hSame] at hSlot
    exact h.cells j other w hOther hSlot

/-- One round of the unpacking loop. -/
theorem yields_unpackColumn {unpacked : Bytes} {cursor : RowCursor} {entry : Nat × Nat}
    (hEntry : entry ∈ sizeOrder columns) (h : SlotCells levels columns cursor.values) :
    (unpackColumn columns unpacked cursor entry).Yields fun cursor' =>
      SlotCells levels columns cursor'.values := by
  obtain ⟨size, i⟩ := entry
  obtain ⟨column, hColumn, hSize⟩ := mem_sizeOrder.mp hEntry
  unfold unpackColumn
  refine Checked.Yields.bind (Q := fun c => column = c) ?_ ?_
  · intro c hIndex
    rw [index, hColumn] at hIndex
    exact Except.ok.inj hIndex
  rintro _ rfl
  by_cases hZero : size = 0
  · rw [if_pos hZero]
    exact Checked.yields_ok h
  rw [if_neg hZero]
  have hCell : ∀ value, ReadCell column.type value → SlotCell levels column value := by
    intro value hValue
    rw [SlotCell, if_neg (fun hSized => hZero (hSize.trans hSized))]
    exact hValue
  refine Checked.Yields.after fun isNull => ?_
  by_cases hBool : column.type = .bool
  · rw [if_pos hBool]
    refine Checked.Yields.bind (Q := ReadCell column.type) ?_ fun value hValue => ?_
    · unfold readBoolCell
      split
      · exact Checked.yields_ok trivial
      · exact Checked.Yields.after fun bit => Checked.yields_ok hBool
    · intro cursor' hRun
      obtain ⟨values, hStore, hRun⟩ := Checked.bind_eq_ok hRun
      cases hRun
      exact h.store hColumn (hCell value hValue) hStore
  · rw [if_neg hBool]
    refine Checked.Yields.bind (Q := ReadCell column.type) ?_ fun value hValue => ?_
    · unfold readScalarCell
      split
      · exact Checked.yields_ok trivial
      · exact yields_readPackedScalar _ _ _
    · intro cursor' hRun
      obtain ⟨values, hStore, hRun⟩ := Checked.bind_eq_ok hRun
      cases hRun
      exact h.store hColumn (hCell value hValue) hStore

/-- The packed part fills slots with cells of their columns. -/
theorem yields_unpackFixed (rle : Bytes) :
    (unpackFixed columns rle).Yields (SlotCells levels columns) := by
  refine Checked.Yields.after fun unpacked => ?_
  split
  · intro values h
    cases h
  refine Checked.Yields.bind (Checked.Yields.foldlM
    (I := fun cursor : RowCursor => SlotCells levels columns cursor.values)
    (fun entry hEntry cursor h => yields_unpackColumn hEntry h) _ ?_)
    fun cursor h => Checked.yields_ok h
  refine ⟨List.length_replicate, fun i column value _ hSlot => ?_⟩
  have hNone := List.eq_of_mem_replicate (List.mem_of_getElem? hSlot)
  cases hNone

/-- A row all of whose slots were assigned. -/
theorem SlotCells.accepted {filled : List (Option Value)} {values : List Value}
    (h : SlotCells levels columns filled) (hAll : allSet filled = .ok values)
    (hCount : columns.length ≤ kMaxPackedRowColumns) (hDepth : descriptorDepth columns < levels) :
    Accepted (levels + 1) (.packedRow ⟨columns, values⟩) := by
  have hMap := allSet_eq_ok hAll
  have hLength : values.length = columns.length := by
    rw [← h.length, hMap, List.length_map]
  have hSlot : ∀ (i : Nat) column value, columns[i]? = some column →
      values[i]? = some value → SlotCell levels column value := by
    intro i column value hColumn hValue
    refine h.cells i column value hColumn ?_
    rw [hMap, List.getElem?_map, hValue]
    rfl
  have hChild : ∀ value ∈ values, Accepted levels value := by
    intro value hValue
    obtain ⟨i, hi⟩ := List.mem_iff_getElem?.mp hValue
    have hLt : i < columns.length := by
      rw [← hLength]
      exact (List.getElem?_eq_some_iff.mp hi).1
    have hCell := hSlot i _ value (List.getElem?_eq_getElem hLt) hi
    rw [SlotCell] at hCell
    split at hCell
    · exact hCell
    · exact hCell.accepted (by omega)
  refine ⟨fits_packedRow.mpr ⟨hDepth, fun value hValue => (hChild value hValue).fits⟩,
    .node ⟨hCount, hLength, fun cell hCell hSized => ?_⟩
      fun child hMem => (hChild child hMem).decoded⟩
  obtain ⟨i, hi⟩ := List.mem_iff_getElem?.mp hCell
  obtain ⟨hColumn, hValue⟩ := List.getElem?_zip_eq_some.mp hi
  have hRead := hSlot i _ _ hColumn hValue
  rw [SlotCell, if_neg hSized] at hRead
  exact hRead

/-- A column for each item. -/
theorem mapM_extractColumn_eq_ok : ∀ {items : List Value} {columns : List PackedColumn},
    items.mapM extractColumn = .ok columns →
      columns.length = items.length ∧ ∀ item ∈ items, ∃ column, extractColumn item = .ok column
  | [], columns, h => by
    cases h
    exact ⟨rfl, fun _ hMem => absurd hMem List.not_mem_nil⟩
  | item :: items, columns, h => by
    rw [List.mapM_cons] at h
    obtain ⟨column, hColumn, h⟩ := Checked.bind_eq_ok h
    obtain ⟨rest, hRest, h⟩ := Checked.bind_eq_ok h
    cases h
    obtain ⟨hLength, hAll⟩ := mapM_extractColumn_eq_ok hRest
    exact ⟨congrArg (· + 1) hLength, List.forall_mem_cons.mpr ⟨⟨column, hColumn⟩, hAll⟩⟩

/-- A column of a descriptor is a pair. -/
theorem extractColumn_eq_ok {item : Value} {column : PackedColumn}
    (h : extractColumn item = .ok column) : ∃ name type, item = .tuple [.string name, .int type] := by
  unfold extractColumn at h
  split at h
  · exact ⟨_, _, rfl⟩
  · cases h

/-- The columns of a descriptor that fits, whatever else is in it. -/
theorem rowColumns_eq_ok {header : Value} (hFits : Fits levels header)
    (h : rowColumns header = .ok columns) :
    columns.length ≤ kMaxPackedRowColumns ∧ descriptorDepth columns < levels := by
  obtain ⟨isType2, data, rfl⟩ : ∃ isType2 data, header = .objectEx isType2 data := by
    cases header with
    | objectEx isType2 data => exact ⟨isType2, data, rfl⟩
    | _ => cases h
  change extractColumns data = .ok columns at h
  obtain ⟨items, hList, hCount, hItems⟩ : ∃ items, data.list = [.tuple items] ∧
      items.length ≤ kMaxPackedRowColumns ∧ items.mapM extractColumn = .ok columns := by
    unfold extractColumns at h
    split at h
    · split at h
      · cases h
      · split at h
        · rename_i items hList
          split at h
          · cases h
          · exact ⟨items, hList, by omega, h⟩
        · cases h
    · cases h
  obtain ⟨hLength, hColumns⟩ := mapM_extractColumn_eq_ok hItems
  refine ⟨by omega, ?_⟩
  -- the tuple of columns, one level down
  obtain ⟨below, rfl⟩ : ∃ n, levels = n + 1 := ⟨levels - 1, by have := hFits.pos; omega⟩
  have hTuple : Fits below (.tuple items) :=
    (fits_objectEx.mp hFits).2.1 _ (by rw [hList]; exact List.mem_singleton_self _)
  obtain ⟨inner, rfl⟩ : ∃ n, below = n + 1 := ⟨below - 1, by have := hTuple.pos; omega⟩
  cases items with
  | nil =>
    obtain rfl : columns = [] := List.eq_nil_of_length_eq_zero hLength
    exact Nat.succ_lt_succ (Nat.succ_pos _)
  | cons item items =>
    -- the first column, and its name two levels further down
    obtain ⟨column, hColumn⟩ := hColumns item List.mem_cons_self
    obtain ⟨name, type, rfl⟩ := extractColumn_eq_ok hColumn
    have hPair : Fits inner (.tuple [.string name, .int type]) :=
      fits_tuple.mp hTuple _ List.mem_cons_self
    obtain ⟨last, rfl⟩ : ∃ n, inner = n + 1 := ⟨inner - 1, by have := hPair.pos; omega⟩
    have hName : Fits last (.string name) := fits_tuple.mp hPair _ List.mem_cons_self
    have hPos := hName.pos
    rw [descriptorDepth]
    split
    · omega
    · omega

end Rows

-- ---------------------------------------------------------------------------
-- The decoder without a save table
-- ---------------------------------------------------------------------------

/-- What is answered with an empty save table has `Q`, and the table stays empty. -/
abbrev Answers {α : Type} (m : Decoder α) (Q : α → Prop) : Prop :=
  YieldsFrom (fun saved => saved = []) m Q

/-- A reader of whose result nothing is asked. -/
abbrev Keeps {α : Type} (m : Decoder α) : Prop := Answers m fun _ => True

/-- The reads of fixed width leave the table empty. -/
theorem keeps_readU8 : Keeps readU8 := yieldsFrom_takeByte

theorem keeps_readBytes (count : Nat) : Keeps (readBytes count) := yieldsFrom_take

theorem keeps_readU16 : Keeps readU16 :=
  (keeps_readBytes 2).map fun _ _ => trivial

theorem keeps_readU32 : Keeps readU32 :=
  (keeps_readBytes 4).map fun _ _ => trivial

theorem keeps_readU64 : Keeps readU64 :=
  (keeps_readBytes 8).map fun _ _ => trivial

theorem keeps_readSizeEx : Keeps readSizeEx := by
  refine keeps_readU8.after fun first => YieldsFrom.ite (fun _ => ?_) fun _ => ?_
  · exact keeps_readU32.map fun _ _ => trivial
  · exact yieldsFrom_pure trivial

/-- A bounded read keeps its bound. -/
theorem answers_readBounded (bound : Nat) (message : String) :
    Answers (readBounded bound message) fun size => size ≤ bound := by
  refine keeps_readSizeEx.after fun size => YieldsFrom.ite (fun _ => ?_) fun hSize => ?_
  · exact yieldsFrom_fail
  · exact yieldsFrom_pure (Nat.le_of_not_lt hSize)

theorem keeps_readBoundedSize : Keeps readBoundedSize :=
  (answers_readBounded _ _).mono fun _ _ => trivial

/-- A count is at most the largest one. -/
theorem answers_readBoundedCount :
    Answers readBoundedCount fun count => count ≤ MAX_CONTAINER_COUNT :=
  answers_readBounded _ _

/-- Nothing is saved without a table. -/
theorem answers_readSaveIndex : Answers readSaveIndex fun _ => False := by
  refine yieldsFrom_getStore.bind fun saved hSaved => YieldsFrom.ite (fun _ => ?_) fun hSome => ?_
  · exact yieldsFrom_fail
  · rw [hSaved] at hSome
    exact absurd rfl hSome

section Leaves

variable {levels : Nat}

/-- A run of bytes, as one leaf. -/
theorem answers_decodeBytes {make : Bytes → Value} (message : String) (len : Nat)
    (hMake : ∀ bytes, Accepted (levels + 1) (make bytes)) :
    Answers (decodeBytes make message len) (Accepted (levels + 1)) := by
  refine YieldsFrom.ite (fun _ => yieldsFrom_fail) fun _ => ?_
  exact (keeps_readBytes len).map fun bytes _ => hMake bytes

/-- A `PyVarInteger`. -/
theorem answers_decodeVarInteger : Answers decodeVarInteger (Accepted (levels + 1)) := by
  refine keeps_readBoundedSize.after fun len => YieldsFrom.ite (fun _ => ?_) fun _ => ?_
  · exact yieldsFrom_pure (accepted_leaf rfl trivial rfl)
  · refine YieldsFrom.ite (fun _ => yieldsFrom_fail) fun _ => ?_
    exact (keeps_readBytes len).map fun bytes _ => accepted_leaf rfl trivial rfl

/-- A string of the table. -/
theorem answers_decodeStringTableItem :
    Answers decodeStringTableItem (Accepted (levels + 1)) := by
  refine keeps_readU8.after fun i => ?_
  cases lookupString i with
  | some text => exact yieldsFrom_pure (accepted_leaf rfl trivial rfl)
  | none => exact yieldsFrom_fail

/-- UCS-2 text. -/
theorem answers_decodeWStringUcs2 (count : Nat) :
    Answers (decodeWStringUcs2 count) (Accepted (levels + 1)) := by
  refine YieldsFrom.ite (fun _ => yieldsFrom_fail) fun _ => ?_
  refine (keeps_readBytes (count * 2)).after fun bytes => ?_
  exact (yieldsFrom_ofChecked (Q := fun _ => True) fun _ _ => trivial).map
    fun utf8 _ => accepted_leaf rfl trivial rfl

/-- A substream, whose bytes are not looked into. -/
theorem answers_decodeSubStream : Answers decodeSubStream (Accepted (levels + 1)) := by
  refine keeps_readBoundedSize.after fun len => ?_
  exact (keeps_readBytes len).map fun data _ => accepted_leaf rfl trivial rfl

/-- No index is in the range of an empty table. -/
theorem answers_decodeSavedElement :
    Answers decodeSavedElement (Accepted (levels + 1)) := by
  refine keeps_readBoundedSize.after fun i => ?_
  refine yieldsFrom_getStore.bind fun saved hSaved => ?_
  have hRange : i = 0 ∨ i > saved.length := by
    rw [hSaved, List.length_nil]
    omega
  exact YieldsFrom.ite (fun _ => yieldsFrom_fail) fun hInside => absurd hRange hInside

end Leaves

section Composite

variable {levels : Nat} {decodeNext : Decoder Value}
  (hNext : Answers decodeNext (Accepted levels))

include hNext

/-- A tuple, its elements read one level down. -/
theorem answers_decodeTuple {count : Nat} (hCount : count ≤ MAX_CONTAINER_COUNT) :
    Answers (decodeTuple decodeNext count) (Accepted (levels + 1)) := by
  refine (hNext.replicate count).map fun items hItems => ?_
  exact accepted_tuple (hItems.1.le.trans hCount) hItems.2

/-- A list, its elements read one level down. -/
theorem answers_decodeList {count : Nat} (hCount : count ≤ MAX_CONTAINER_COUNT) :
    Answers (decodeList decodeNext count) (Accepted (levels + 1)) := by
  refine (hNext.replicate count).map fun items hItems => ?_
  exact accepted_list (hItems.1.le.trans hCount) hItems.2

/-- An entry whose value comes first. -/
theorem answers_decodeValueKey : Answers (decodeValueKey decodeNext) (EntryAccepted levels) := by
  refine hNext.bind fun value hValue => ?_
  exact hNext.map fun key hKey => ⟨hKey, hValue⟩

/-- An entry whose key comes first. -/
theorem answers_decodeKeyValue : Answers (decodeKeyValue decodeNext) (EntryAccepted levels) := by
  refine hNext.bind fun key hKey => ?_
  exact hNext.map fun value hValue => ⟨hKey, hValue⟩

/-- A dict, its entries read one level down. -/
theorem answers_decodeDict {count : Nat} (hCount : count ≤ MAX_CONTAINER_COUNT) :
    Answers (decodeDict decodeNext count) (Accepted (levels + 1)) := by
  refine ((answers_decodeValueKey hNext).replicate count).map fun entries hEntries => ?_
  exact accepted_dict (hEntries.1.le.trans hCount) hEntries.2

/-- An object. -/
theorem answers_decodeObject : Answers (decodeObject decodeNext) (Accepted (levels + 1)) := by
  refine hNext.bind fun type _ => ?_
  cases type with
  | string name => exact hNext.map fun args hArgs => accepted_object hArgs
  | _ => exact yieldsFrom_fail

omit hNext in
/-- The elements before the terminator. -/
theorem answers_elements {α : Type} {item : Decoder α} {Q : α → Prop} (message : String)
    (hItem : Answers item Q) (fuel : Nat) :
    Answers (iterate (untilTerminator message item) fuel []) fun as => ∀ a ∈ as, Q a := by
  refine YieldsFrom.iterate (J := fun as => ∀ a ∈ as, Q a) (fun as hAs => ?_) fuel []
    fun a ha => absurd ha List.not_mem_nil
  refine yieldsFrom_requireLimit.after fun _ => yieldsFrom_peekByte.after fun next => ?_
  refine YieldsFrom.ite (fun _ => ?_) fun _ => ?_
  · exact keeps_readU8.map fun _ _ => hAs
  · refine hItem.map fun a ha => List.forall_mem_append.mpr ⟨hAs, fun b hb => ?_⟩
    rw [List.mem_singleton.mp hb]
    exact ha

/-- An `ObjectEx`. -/
theorem answers_decodeObjectEx (isType2 : Bool) :
    Answers (decodeObjectEx decodeNext isType2) (Accepted (levels + 1)) := by
  refine hNext.bind fun header hHeader => ?_
  refine (answers_elements _ hNext _).bind fun list hList => ?_
  refine (answers_elements _ (answers_decodeKeyValue hNext) _).map fun dict hDict => ?_
  exact accepted_objectEx hHeader hList hDict

/-- A value behind its checksum. -/
theorem answers_decodeChecksumedStream :
    Answers (decodeChecksumedStream decodeNext) (Accepted (levels + 1)) := by
  refine keeps_readU32.after fun checksum => ?_
  exact hNext.map fun value hValue => accepted_checksumedStream hValue

/-- A round of the loop over the size-0 columns. -/
theorem answers_decodeVariable {columns : List PackedColumn} {values : List (Option Value)}
    {entry : Nat × Nat} (hEntry : entry ∈ sizeOrder columns)
    (h : SlotCells levels columns values) :
    Answers (decodeVariable decodeNext values entry) (SlotCells levels columns) := by
  obtain ⟨size, i⟩ := entry
  obtain ⟨column, hColumn, hSize⟩ := mem_sizeOrder.mp hEntry
  refine YieldsFrom.ite (fun hZero => ?_) fun _ => yieldsFrom_pure h
  refine hNext.bind fun value hValue => yieldsFrom_ofChecked fun values' hStore => ?_
  refine h.store hColumn ?_ hStore
  rw [SlotCell, if_pos (hSize.symm.trans hZero)]
  exact hValue

/-- A row after its descriptor. -/
theorem answers_decodeRowBody {columns : List PackedColumn}
    (hCount : columns.length ≤ kMaxPackedRowColumns) (hDepth : descriptorDepth columns < levels) :
    Answers (decodeRowBody decodeNext columns) (Accepted (levels + 1)) := by
  refine keeps_readBoundedSize.after fun rleLen => ?_
  refine YieldsFrom.ite (fun _ => yieldsFrom_fail) fun _ => ?_
  refine (keeps_readBytes rleLen).after fun rle => ?_
  have hUnpack : (unpackFixed columns rle).Yields (SlotCells levels columns) :=
    yields_unpackFixed rle
  refine (yieldsFrom_ofChecked hUnpack).bind fun fixed hFixed => ?_
  refine (YieldsFrom.foldlM (fun entry hEntry values h =>
    answers_decodeVariable hNext hEntry h) fixed hFixed).bind fun filled hFilled => ?_
  refine (yieldsFrom_ofChecked (Q := fun values => allSet filled = .ok values)
    fun values hAll => hAll).map fun values hAll => ?_
  exact hFilled.accepted hAll hCount hDepth

/-- A packed row. -/
theorem answers_decodePackedRow :
    Answers (decodePackedRow decodeNext) (Accepted (levels + 1)) := by
  refine hNext.bind fun header hHeader => ?_
  refine (yieldsFrom_ofChecked (Q := fun columns => rowColumns header = .ok columns)
    fun columns hColumns => hColumns).bind fun columns hColumns => ?_
  obtain ⟨hCount, hDepth⟩ := rowColumns_eq_ok hHeader.fits hColumns
  exact answers_decodeRowBody hNext hCount hDepth

/-- Whatever the opcode, the answer is accepted. -/
theorem answers_decodeOpcode (opcode : UInt8) :
    Answers (decodeOpcode decodeNext opcode) (Accepted (levels + 1)) := by
  have hNil : ∀ item ∈ ([] : List Value), Accepted levels item :=
    fun item hItem => absurd hItem List.not_mem_nil
  have hOne : ∀ first, Accepted levels first → ∀ item ∈ [first], Accepted levels item := by
    intro first hFirst item hItem
    rw [List.mem_singleton.mp hItem]
    exact hFirst
  have hSmall : 1 ≤ MAX_CONTAINER_COUNT := by decide
  unfold decodeOpcode
  cases Opcode.ofByte? opcode with
  | none => exact yieldsFrom_fail
  | some op =>
    cases op with
    | pyByte | pyCharString =>
      exact keeps_readU8.map fun _ _ => accepted_leaf rfl trivial rfl
    | pySignedShort => exact keeps_readU16.map fun _ _ => accepted_leaf rfl trivial rfl
    | pyLong => exact keeps_readU32.map fun _ _ => accepted_leaf rfl trivial rfl
    | pyLongLong | pyReal => exact keeps_readU64.map fun _ _ => accepted_leaf rfl trivial rfl
    | pyVarInteger => exact answers_decodeVarInteger
    | pyShortString =>
      exact keeps_readU8.after fun len =>
        answers_decodeBytes _ _ fun _ => accepted_leaf rfl trivial rfl
    | pyLongString | pyWStringUTF8 | pyToken | pyBuffer | cPicked =>
      exact keeps_readBoundedSize.after fun len =>
        answers_decodeBytes _ _ fun _ => accepted_leaf rfl trivial rfl
    | pyStringTableItem => exact answers_decodeStringTableItem
    | pyWStringUCS2Char => exact answers_decodeWStringUcs2 1
    | pyWStringUCS2 =>
      exact keeps_readBoundedSize.after fun count => answers_decodeWStringUcs2 count
    | pyEmptyTuple => exact yieldsFrom_pure (accepted_tuple (Nat.zero_le _) hNil)
    | pyEmptyList => exact yieldsFrom_pure (accepted_list (Nat.zero_le _) hNil)
    | pyOneTuple =>
      exact hNext.map fun first hFirst => accepted_tuple hSmall (hOne first hFirst)
    | pyOneList =>
      exact hNext.map fun first hFirst => accepted_list hSmall (hOne first hFirst)
    | pyTwoTuple =>
      refine hNext.bind fun first hFirst => hNext.map fun second hSecond => ?_
      exact accepted_tuple (show 2 ≤ MAX_CONTAINER_COUNT by decide)
        (List.forall_mem_cons.mpr ⟨hFirst, hOne second hSecond⟩)
    | pyTuple =>
      exact answers_readBoundedCount.bind fun count hCount => answers_decodeTuple hNext hCount
    | pyList =>
      exact answers_readBoundedCount.bind fun count hCount => answers_decodeList hNext hCount
    | pyDict =>
      exact answers_readBoundedCount.bind fun count hCount => answers_decodeDict hNext hCount
    | pyObject => exact answers_decodeObject hNext
    | pyObjectEx1 | pyObjectEx2 => exact answers_decodeObjectEx hNext _
    | pySubStruct => exact hNext.map fun value hValue => accepted_subStruct hValue
    | pySubStream => exact answers_decodeSubStream
    | pyChecksumedStream => exact answers_decodeChecksumedStream hNext
    | pySavedStreamElement => exact answers_decodeSavedElement
    | pyPackedRow => exact answers_decodePackedRow hNext
    | packedTerminator => exact yieldsFrom_fail
    | _ => exact yieldsFrom_pure (accepted_leaf rfl trivial rfl)

/-- A value with its tag. Without a save table nothing is stored. -/
theorem answers_decodeTagged : Answers (decodeTagged decodeNext) (Accepted (levels + 1)) := by
  refine keeps_readU8.after fun raw => ?_
  refine YieldsFrom.ite (fun _ => yieldsFrom_fail) fun _ => YieldsFrom.ite (fun _ => ?_) fun _ => ?_
  · exact answers_readSaveIndex.bind fun _ hNone => hNone.elim
  · exact answers_decodeOpcode hNext _

end Composite

/-- What the recursive decoder answers without a save table. -/
theorem accepted_decodeLevels (levels : Nat) :
    Answers (decodeLevels levels) (Accepted levels) := by
  induction levels with
  | zero => exact yieldsFrom_fail
  | succ levels ih => exact answers_decodeTagged ih

-- ---------------------------------------------------------------------------
-- Decoded values are encoded
-- ---------------------------------------------------------------------------

/-- No packed cell of the value is a real. -/
def NoRealCells : Value → Prop
  | .packedRow row => NoReals row
  | _ => True

/-- A cell that was read, if it is no real, can be packed and changes no more. -/
theorem ReadCell.packed {type : DbType} {value : Value} (h : ReadCell type value)
    (hReal : type = .r4 ∨ type = .r8 → value = .none) :
    PackedCell type value ∧ storedCell type value = value.positiveZero := by
  cases value with
  | none => exact ⟨trivial, rfl⟩
  | bool b => exact ⟨h, rfl⟩
  | int n => exact ⟨h.1, congrArg Value.int h.2⟩
  | real bits => cases hReal h
  | _ => exact h.elim

/-- A decoded value can be encoded, when its packed cells hold no reals. -/
theorem Decoded.admissible {v : Value} (h : Decoded v) (hReals : NoRealCells v) :
    Admissible v := by
  cases v with
  | packedRow row =>
    obtain ⟨hCount, hLength, hCells⟩ := h
    refine ⟨hCount, hLength, fun cell hCell hSized => ?_⟩
    exact ((hCells cell hCell hSized).packed (hReals cell hCell)).1
  | tuple items | list items => exact h
  | dict entries => exact h
  | _ => trivial

/-- Its rows are stable then too. -/
theorem Decoded.rowStable {v : Value} (h : Decoded v) (hReals : NoRealCells v) :
    RowStable v := by
  cases v with
  | packedRow row =>
    intro cell hCell hSized
    exact ((h.2.2 cell hCell hSized).packed (hReals cell hCell)).2
  | _ => trivial

/-- Without a save table, `Decode` is a run of the recursive decoder from an empty one. -/
theorem accepted_of_decode {stream : Bytes} {v : Value} (hCount : saveCount stream = 0)
    (hDec : decode stream true = .ok v) : Accepted (MAX_MARSHAL_DEPTH + 1) v := by
  rw [decode, decodeStream] at hDec
  split at hDec
  · cases hDec
  obtain ⟨⟨count, cursor⟩, hHead, hDec⟩ := Checked.bind_eq_ok hDec
  obtain ⟨-, hSaved, rfl⟩ := readHeader_ok hHead
  obtain ⟨⟨result, last⟩, hRoot, hDec⟩ := Checked.bind_eq_ok hDec
  obtain rfl : result = v := by
    dsimp only at hDec
    split at hDec
    · cases hDec
    · exact Except.ok.inj hDec
  rw [hSaved, hCount] at hRoot
  exact (accepted_decodeLevels _ _ _ _ rfl hRoot).1

-- ---------------------------------------------------------------------------
-- The sign of a zero
-- ---------------------------------------------------------------------------

/-- Either zero is written as the positive one. -/
theorem encodeReal_positiveZero (bits : UInt64) :
    encodeReal (if isZeroReal bits then 0 else bits) = encodeReal bits := by
  by_cases hZero : isZeroReal bits
  · rw [if_pos hZero, encodeReal, encodeReal, if_pos hZero]
    rfl
  · rw [if_neg hZero]

/-- Elements that are changed before they are encoded. -/
theorem encodeEach_map {α β : Type} (encode : β → Result Bytes) (f : α → β) (xs : List α) :
    encodeEach encode (xs.map f) = encodeEach (fun x => encode (f x)) xs := by
  induction xs with
  | nil => rfl
  | cons x xs ih => rw [List.map_cons, encodeEach, encodeEach, ih]

/-- The head of a tuple says only how long it is. -/
theorem tupleHead_map (f : Value → Value) (items : List Value) :
    tupleHead (items.map f) = tupleHead items := by
  match items with
  | [] | [_] | [_, _] => rfl
  | a :: b :: c :: rest =>
    show Opcode.pyTuple.toByte :: putSizeEx (UInt32.ofNat ((a :: b :: c :: rest).map f).length) = _
    rw [List.length_map]
    rfl

/-- So does the head of a list. -/
theorem listHead_map (f : Value → Value) (items : List Value) :
    listHead (items.map f) = listHead items := by
  match items with
  | [] | [_] => rfl
  | a :: b :: rest =>
    show Opcode.pyList.toByte :: putSizeEx (UInt32.ofNat ((a :: b :: rest).map f).length) = _
    rw [List.length_map]
    rfl

/-- Indexing a changed list. -/
theorem index_map {α β : Type} (f : α → β) (xs : List α) (i : Nat) :
    (index (xs.map f) i : Result β) = (do let x ← index xs i; .ok (f x)) := by
  rw [index, index, List.getElem?_map]
  cases xs[i]? with
  | none => rfl
  | some x => rfl

/-- The packing loop sees no sign of a zero: it reads the integer of a cell first. -/
theorem packCell_positiveZero (type : DbType) (field : Value) :
    field.positiveZero.isNone = field.isNone ∧
    cellBool field.positiveZero = cellBool field ∧
    appendPackedScalar type field.positiveZero = appendPackedScalar type field := by
  have hStop : ∀ value, cellInt value = raise (.format "value is not an int") →
      appendPackedScalar type value = raise (.format "value is not an int") := by
    intro value h
    rw [appendPackedScalar, h]
    rfl
  cases field with
  | none | int n => exact ⟨rfl, rfl, rfl⟩
  | objectEx isType2 data =>
    rw [positiveZero_objectEx]
    exact ⟨rfl, rfl, (hStop _ rfl).trans (hStop _ rfl).symm⟩
  | packedRow row =>
    rw [positiveZero_packedRow]
    exact ⟨rfl, rfl, (hStop _ rfl).trans (hStop _ rfl).symm⟩
  | _ => exact ⟨rfl, rfl, (hStop _ rfl).trans (hStop _ rfl).symm⟩

/-- A zero in a packed cell takes the same bytes, whatever its sign. -/
theorem packFixed_positiveZero (row : PackedRowData Value) :
    packFixed ⟨row.columns, row.values.map Value.positiveZero⟩ = packFixed row := by
  have hColumn : packColumn ⟨row.columns, row.values.map Value.positiveZero⟩ =
      packColumn row := by
    funext buffer entry
    unfold packColumn
    refine congrArg (index row.columns entry.2 >>= ·) (funext fun column => ?_)
    split
    · rfl
    rw [index_map]
    cases index row.values entry.2 with
    | error e => rfl
    | ok field =>
      obtain ⟨hNone, hBool, hScalar⟩ := packCell_positiveZero column.type field
      show (setBitIf field.positiveZero.isNone _ _ >>= _) = (setBitIf field.isNone _ _ >>= _)
      rw [hNone, hBool, hScalar]
  rw [packFixed, packFixed, hColumn]

section SignOfZero

variable {encodeNext : Value → Result Bytes}
  (hNext : ∀ v, encodeNext v.positiveZero = encodeNext v)

include hNext

/-- The elements of a container. -/
theorem encodeEach_positiveZero (items : List Value) :
    encodeEach encodeNext (items.map Value.positiveZero) = encodeEach encodeNext items := by
  rw [encodeEach_map]
  exact congrArg (encodeEach · items) (funext hNext)

/-- Entries, key first. -/
theorem encodeEach_keyValue_positiveZero (entries : List (DictEntry Value)) :
    encodeEach (encodeKeyValue encodeNext) (entries.map DictEntry.positiveZero) =
      encodeEach (encodeKeyValue encodeNext) entries := by
  rw [encodeEach_map]
  refine congrArg (encodeEach · entries) (funext fun entry => ?_)
  rw [encodeKeyValue, encodeKeyValue, DictEntry.positiveZero, hNext, hNext]

/-- Entries, value first. -/
theorem encodeEach_valueKey_positiveZero (entries : List (DictEntry Value)) :
    encodeEach (encodeValueKey encodeNext) (entries.map DictEntry.positiveZero) =
      encodeEach (encodeValueKey encodeNext) entries := by
  rw [encodeEach_map]
  refine congrArg (encodeEach · entries) (funext fun entry => ?_)
  rw [encodeValueKey, encodeValueKey, DictEntry.positiveZero, hNext, hNext]

/-- The columns outside the packed part. -/
theorem encodeVariable_positiveZero (values : List Value) :
    encodeVariable encodeNext (values.map Value.positiveZero) =
      encodeVariable encodeNext values := by
  funext entry
  unfold encodeVariable
  split
  · rw [index_map]
    cases index values entry.2 with
    | error e => rfl
    | ok value => exact hNext value
  · rfl

/-- One level of the encoder, when the next does not see the sign of a zero. -/
theorem encodeKind_positiveZero (v : Value) :
    encodeKind encodeNext v.positiveZero = encodeKind encodeNext v := by
  cases v with
  | real bits => exact congrArg Except.ok (encodeReal_positiveZero bits)
  | tuple items =>
    rw [positiveZero_tuple]
    show encodeTuple encodeNext _ = encodeTuple encodeNext items
    rw [encodeTuple, encodeTuple, List.length_map, tupleHead_map, encodeEach_positiveZero hNext]
  | list items =>
    rw [positiveZero_list]
    show encodeList encodeNext _ = encodeList encodeNext items
    rw [encodeList, encodeList, List.length_map, listHead_map, encodeEach_positiveZero hNext]
  | dict entries =>
    rw [positiveZero_dict]
    show encodeDict encodeNext _ = encodeDict encodeNext entries
    rw [encodeDict, encodeDict, List.length_map, encodeEach_valueKey_positiveZero hNext]
  | object type args =>
    show encodeObject encodeNext type args.positiveZero = encodeObject encodeNext type args
    rw [encodeObject, encodeObject, hNext]
  | objectEx isType2 data =>
    rw [positiveZero_objectEx]
    show encodeObjectEx encodeNext isType2 _ = encodeObjectEx encodeNext isType2 data
    rw [encodeObjectEx, encodeObjectEx, hNext, encodeEach_positiveZero hNext,
      encodeEach_keyValue_positiveZero hNext]
  | subStruct value => exact congrArg (· >>= _) (hNext value)
  | checksumedStream checksum value => exact congrArg (· >>= _) (hNext value)
  | packedRow row =>
    rw [positiveZero_packedRow]
    show encodePackedRow encodeNext _ = encodePackedRow encodeNext row
    rw [encodePackedRow, encodePackedRow, List.length_map, packFixed_positiveZero,
      encodeVariable_positiveZero hNext]
  | _ => rfl

end SignOfZero

/-- The encoder does not see the sign of a zero. -/
theorem encodeLevels_positiveZero (levels : Nat) (v : Value) :
    encodeLevels levels v.positiveZero = encodeLevels levels v := by
  induction levels generalizing v with
  | zero => rfl
  | succ levels ih => exact encodeKind_positiveZero ih v

/-- The encoding of a decoded value exists, decodes to the value but for the sign of its
zeros, and is what that value is encoded as again. -/
theorem encode_decoded {stream : Bytes} {v : Value} (hCount : saveCount stream = 0)
    (hDec : decode stream true = .ok v) (hReals : v.Everywhere NoRealCells) :
    ∃ bytes, encode v = .ok bytes ∧ (bytes.length ≤ MAX_STREAM_BYTES →
      decode bytes true = .ok v.positiveZero ∧ encode v.positiveZero = .ok bytes) := by
  have hAccepted := accepted_of_decode hCount hDec
  have hInside := hAccepted.decoded.and hReals
  have hDepth : v.nestingDepth ≤ MAX_MARSHAL_DEPTH := by
    have hFits := hAccepted.fits
    rw [Fits, Nat.lt_succ_iff] at hFits
    exact hFits
  obtain ⟨bytes, hEncode⟩ := (encode_ok_iff v).mpr
    ⟨hDepth, hInside.mono fun w hw => hw.1.admissible hw.2⟩
  have hStored : v.stored = v.positiveZero :=
    stored_of_stable (hInside.mono fun w hw => hw.1.rowStable hw.2)
  refine ⟨bytes, hEncode, fun hFits => ⟨?_, ?_⟩⟩
  · rw [← hStored]
    exact decode_stored hEncode hFits
  · rw [← hEncode, encode, encode, encodeValue, encodeValue, encodeLevels_positiveZero]

/-- A tuple with a long size, a short string, an integer of variable length and a row whose
only cell is split in two runs. -/
def looseStream : Bytes :=
  [0x7E, 0, 0, 0, 0, 0x14, 0xFF, 3, 0, 0, 0, 0x10, 1, 0x61, 0x2F, 2, 5, 0,
    0x2A, 0x22, 0x02, 20] ++ ascii "blue.DBRowDescriptor" ++
  [0x25, 0x2C, 0x0F, 0x62, 0x06, 0x03, 0x2D, 0x2D, 6, 0x66, 0xFD, 0xFF, 0xFF, 0xFF, 0x08]

/-- A value with text of the table, an integer and a row. -/
def looseValue : Value :=
  .tuple [.string (ascii "a"), .int 5, .packedRow ⟨[⟨ascii "b", .i4⟩], [.int (-3)]⟩]

/-- What `looseValue` looks like from outside. -/
def Value.isLoose : Value → Bool
  | .tuple [.string text, .int n, .packedRow ⟨columns, [.int cell]⟩] =>
    text = ascii "a" ∧ n = 5 ∧ columns = [⟨ascii "b", .i4⟩] ∧ cell = -3
  | _ => false

/-- Only `looseValue` looks so. -/
theorem eq_looseValue {v : Value} (h : v.isLoose = true) : v = looseValue := by
  unfold Value.isLoose at h
  split at h
  · obtain ⟨rfl, rfl, rfl, rfl⟩ := of_decide_eq_true h
    rfl
  · cases h

/-- The value of a stream that is not the encoder's own is encoded anew. -/
theorem encode_decoded_looseStream : ∃ bytes, encode looseValue = .ok bytes ∧
    (bytes.length ≤ MAX_STREAM_BYTES → decode bytes true = .ok looseValue.positiveZero ∧
      encode looseValue.positiveZero = .ok bytes) := by
  have hRow : Value.Everywhere NoRealCells (.packedRow ⟨[⟨ascii "b", .i4⟩], [.int (-3)]⟩) := by
    refine .node (fun cell hCell hReal => ?_) fun child hChild => ?_
    · rw [List.mem_singleton.mp hCell] at hReal
      rcases hReal with hReal | hReal
      · cases hReal
      · cases hReal
    · rw [List.mem_singleton.mp hChild]
      exact .leaf trivial rfl
  have hRun : ∃ v, decode looseStream true = .ok v ∧ v.isLoose = true := by decide +kernel
  obtain ⟨v, hDec, hLoose⟩ := hRun
  rw [eq_looseValue hLoose] at hDec
  refine encode_decoded (by decide) hDec (.node trivial ?_)
  refine List.forall_mem_cons.mpr ⟨.leaf trivial rfl, List.forall_mem_cons.mpr
    ⟨.leaf trivial rfl, fun child hChild => ?_⟩⟩
  rw [List.mem_singleton.mp hChild]
  exact hRow

end Ithax.Marshal
