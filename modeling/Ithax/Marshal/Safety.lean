import Ithax.Lib.ReaderRules
import Ithax.Marshal.Decode
import Ithax.Marshal.RowSafety

/-!
# The decoder on hostile input

Whatever the bytes are, `Decode` ends with a value or with a `MarshalError`.
The model marks as a `Fault` everything else that could happen: a cursor moved
past the end of the data, an unchecked index outside its buffer, the use of a
slot nobody assigned, a loop that outruns its bound. `Safe` is kept by every
decoder, so no run reaches a fault.

* `safe_decodeLevels`     — the recursive decoder, at every depth;
* `safe_decode`           — whole streams, in both modes;
* `decode_value_or_error` — what comes out is a value or a `MarshalError`.
-/

namespace Ithax.Marshal

open Ithax.Lib Ithax.Lib.Reader

/-- `Safe` on streams of at most `MAX_STREAM_BYTES` bytes, with nothing asked of
the save table. -/
abbrev SafeDecoder {α : Type} (k : Nat) (m : Decoder α) (Q : α → Prop) : Prop :=
  Safe MAX_STREAM_BYTES (fun _ : SaveTable => True) k m Q

/-- A safe decoder whose result does not matter. -/
abbrev Harmless {α : Type} (k : Nat) (m : Decoder α) : Prop :=
  SafeDecoder k m fun _ => True

-- ---------------------------------------------------------------------------
-- Reads
-- ---------------------------------------------------------------------------

/-- A result that is only returned cannot fault. -/
theorem harmless_pure {α : Type} (a : α) : Harmless 0 (pure a) :=
  safe_pure trivial

/-- A decoder that is known to advance is harmless as well. -/
theorem Harmless.weaken {α : Type} {k : Nat} {m : Decoder α}
    (h : Harmless k m) : Harmless 0 m :=
  h.mono (Nat.zero_le _) fun _ _ => trivial

/-- A byte is read behind the check that there is one. -/
theorem harmless_readU8 : Harmless 1 readU8 := safe_takeByte

/-- As many bytes are read as the check asked for. -/
theorem safe_readBytes (n : Nat) :
    SafeDecoder n (readBytes n) fun bs => bs.length = n := safe_take

/-- Where the number of bytes does not matter. -/
theorem harmless_readBytes (n : Nat) : Harmless 0 (readBytes n) :=
  (safe_readBytes n).mono (Nat.zero_le _) fun _ _ => trivial

/-- The two bytes of a `std::uint16_t`. -/
theorem harmless_readU16 : Harmless 0 readU16 :=
  (harmless_readBytes 2).seq fun _ _ => harmless_pure _

/-- The four bytes of a `std::uint32_t`. -/
theorem harmless_readU32 : Harmless 0 readU32 :=
  (harmless_readBytes 4).seq fun _ _ => harmless_pure _

/-- The eight bytes of a `std::uint64_t`. -/
theorem harmless_readU64 : Harmless 0 readU64 :=
  (harmless_readBytes 8).seq fun _ _ => harmless_pure _

/-- The four bytes behind the escape are read if it is there. -/
theorem harmless_readSizeEx : Harmless 0 readSizeEx := by
  refine harmless_readU8.weaken.seq fun first _ => ?_
  refine Safe.ite (fun _ => ?_) fun _ => harmless_pure _
  exact harmless_readU32.seq fun _ _ => harmless_pure _

/-- A size above its bound throws before anything is done with it. -/
theorem harmless_readBounded (bound : Nat) (message : String) :
    Harmless 0 (readBounded bound message) :=
  harmless_readSizeEx.seq fun _ _ =>
    Safe.ite (fun _ => safe_fail) fun _ => harmless_pure _

/-- The bound of strings, buffers and nested streams. -/
theorem harmless_readBoundedSize : Harmless 0 readBoundedSize :=
  harmless_readBounded _ _

/-- The bound of containers. -/
theorem harmless_readBoundedCount : Harmless 0 readBoundedCount :=
  harmless_readBounded _ _

/-- Without a store the flag throws; otherwise four bytes are read. -/
theorem harmless_readSaveIndex : Harmless 0 readSaveIndex := by
  refine safe_getStore.seq fun saved _ => ?_
  refine Safe.ite (fun _ => safe_fail) fun _ => ?_
  refine safe_requireLimit.seq fun _ _ => ?_
  exact harmless_readU32.seq fun _ _ => harmless_pure _

-- ---------------------------------------------------------------------------
-- Leaves
-- ---------------------------------------------------------------------------

/-- The length is at most 8 when the bytes are read. -/
theorem harmless_decodeVarInteger : Harmless 0 decodeVarInteger := by
  refine harmless_readBoundedSize.seq fun len _ => ?_
  refine Safe.ite (fun _ => harmless_pure _) fun _ => ?_
  refine Safe.ite (fun _ => safe_fail) fun _ => ?_
  exact (harmless_readBytes len).seq fun _ _ => harmless_pure _

/-- The length is checked once more, and the bytes are read. -/
theorem harmless_decodeBytes (make : Bytes → Value) (message : String) (len : Nat) :
    Harmless 0 (decodeBytes make message len) :=
  Safe.ite (fun _ => safe_fail) fun _ =>
    (harmless_readBytes len).seq fun _ _ => harmless_pure _

/-- An index that the table of strings does not have throws. -/
theorem harmless_decodeStringTableItem : Harmless 0 decodeStringTableItem := by
  refine harmless_readU8.weaken.seq fun i _ => ?_
  cases lookupString i with
  | some text => exact harmless_pure _
  | none => exact safe_fail

/-- The bytes of a UCS-2 string come in pairs. -/
theorem safe_ucs2ToUtf8 {bytes : Bytes} {count : Nat} (h : bytes.length = count * 2) :
    (ucs2ToUtf8 bytes).Safe fun _ => True := by
  unfold ucs2ToUtf8
  refine Checked.Safe.foldlM (I := fun _ _ => True) ?_ [] trivial
  intro done k todo hSplit out _
  have hMem : k ∈ List.range ((bytes.length + 1) / 2) := by simp [hSplit]
  have hk : k < (bytes.length + 1) / 2 := List.mem_range.mp hMem
  refine (Checked.safe_index (by omega)).bind fun low _ => ?_
  exact (Checked.safe_index (by omega)).bind fun high _ => trivial

/-- Twice as many bytes are there as there are characters to convert. -/
theorem harmless_decodeWStringUcs2 (count : Nat) :
    Harmless 0 (decodeWStringUcs2 count) := by
  refine Safe.ite (fun _ => safe_fail) fun _ => ?_
  refine ((safe_readBytes (count * 2)).mono (Nat.zero_le _) fun _ h => h).seq ?_
  intro bytes hLen
  exact (safe_ofChecked (safe_ucs2ToUtf8 hLen)).seq fun _ _ => harmless_pure _

/-- The bytes of the other stream are taken as they are. -/
theorem harmless_decodeSubStream : Harmless 0 decodeSubStream :=
  harmless_readBoundedSize.seq fun len _ =>
    (harmless_readBytes len).seq fun _ _ => harmless_pure _

/-- The slot index is checked against the table before the table is read. -/
theorem harmless_decodeSavedElement : Harmless 0 decodeSavedElement := by
  refine harmless_readBoundedSize.seq fun i _ => ?_
  refine safe_getStore.seq fun saved _ => ?_
  refine Safe.ite (fun _ => safe_fail) fun hRange => ?_
  -- index 0 is refused with those past the end, so the subtraction does not wrap
  have hSlot : i - 1 < saved.length := by omega
  refine (safe_ofChecked (Checked.safe_index hSlot)).seq fun stored _ => ?_
  cases stored with
  | some value => exact harmless_pure _
  | none => exact safe_fail

-- ---------------------------------------------------------------------------
-- Row descriptors
-- ---------------------------------------------------------------------------

/-- What is no pair of a string and an integer throws. -/
theorem safe_extractColumn (value : Value) :
    (extractColumn value).Safe fun _ => True := by
  unfold extractColumn
  split
  · trivial
  · trivial

/-- The columns are looked at one by one. -/
theorem safe_mapM_extractColumn (values : List Value) :
    (values.mapM extractColumn).Safe fun _ => True := by
  induction values with
  | nil => trivial
  | cons value values ih =>
    rw [List.mapM_cons]
    refine (safe_extractColumn value).bind fun column _ => ?_
    exact ih.bind fun _ _ => trivial

/-- The descriptor is looked at as far as it has the shape of one. -/
theorem safe_extractColumns (data : ObjectExData Value) :
    (extractColumns data).Safe fun _ => True := by
  unfold extractColumns
  split
  · split
    · trivial
    · split
      · split
        · trivial
        · exact safe_mapM_extractColumn _
      · trivial
  · trivial

/-- Whatever value stands in the place of the descriptor. -/
theorem safe_rowColumns (header : Value) :
    (rowColumns header).Safe fun _ => True := by
  cases header with
  | objectEx isType2 data => exact safe_extractColumns data
  | _ => trivial

-- ---------------------------------------------------------------------------
-- Composites
-- ---------------------------------------------------------------------------

section Composite

variable {decodeNext : Decoder Value} (hNext : Harmless 1 decodeNext)

include hNext

/-- The decoder of the next depth, where its advance does not matter. -/
theorem harmless_next : Harmless 0 decodeNext := Harmless.weaken hNext

/-- Each element is decoded at the next depth. -/
theorem harmless_decodeTuple (count : Nat) :
    Harmless 0 (decodeTuple decodeNext count) :=
  (Safe.replicate hNext count).seq fun _ _ => harmless_pure _

/-- Each element is decoded at the next depth. -/
theorem harmless_decodeList (count : Nat) :
    Harmless 0 (decodeList decodeNext count) :=
  (Safe.replicate hNext count).seq fun _ _ => harmless_pure _

/-- The value advances, so the pair does. -/
theorem harmless_decodeValueKey : Harmless 1 (decodeValueKey decodeNext) :=
  Safe.seq hNext fun _ _ => (harmless_next hNext).seq fun _ _ => harmless_pure _

/-- The loop is bounded by the number of entries. -/
theorem harmless_decodeDict (count : Nat) :
    Harmless 0 (decodeDict decodeNext count) :=
  (Safe.replicate (harmless_decodeValueKey hNext) count).seq fun _ _ =>
    harmless_pure _

/-- A type that is not a string throws. -/
theorem harmless_decodeObject : Harmless 0 (decodeObject decodeNext) := by
  refine (harmless_next hNext).seq fun type _ => ?_
  cases type with
  | string name => exact (harmless_next hNext).seq fun _ _ => harmless_pure _
  | _ => exact safe_fail

omit hNext in
/-- A round of an ObjectEx loop consumes the terminator or an element, so the
loop ends before its bound. -/
theorem safe_untilTerminator {α : Type} (message : String) {item : Decoder α}
    (hItem : Harmless 1 item) (acc : List α) :
    SafeDecoder 1 (untilTerminator message item acc)
      (Sum.elim (fun _ => True) fun _ => True) := by
  refine safe_requireLimit.andThen fun _ _ => ?_
  refine safe_peekByte.andThen fun next _ => Safe.ite (fun _ => ?_) fun _ => ?_
  · exact harmless_readU8.seq fun _ _ => safe_pure trivial
  · exact Safe.seq hItem fun _ _ => safe_pure trivial

/-- The key advances, so the pair does. -/
theorem harmless_decodeKeyValue : Harmless 1 (decodeKeyValue decodeNext) :=
  Safe.seq hNext fun _ _ => (harmless_next hNext).seq fun _ _ => harmless_pure _

/-- Each round of the two loops advances, and the stream is shorter than their fuel. -/
theorem harmless_decodeObjectEx (isType2 : Bool) :
    Harmless 0 (decodeObjectEx decodeNext isType2) := by
  refine (harmless_next hNext).seq fun header _ => ?_
  -- a round consumes a byte, so `MAX_STREAM_BYTES + 1` rounds are never used up
  have hList := Safe.iterate (I := fun _ => True) (P := fun _ => True)
    (fun acc _ => safe_untilTerminator "object ex list is unterminated" hNext acc)
    [] trivial
  have hDict := Safe.iterate (I := fun _ => True) (P := fun _ => True)
    (fun acc _ => safe_untilTerminator "object ex dict is unterminated"
      (harmless_decodeKeyValue hNext) acc) [] trivial
  refine (Harmless.weaken hList).seq fun list _ => ?_
  exact (Harmless.weaken hDict).seq fun _ _ => harmless_pure _

/-- The checksum is kept, and compared with nothing. -/
theorem harmless_decodeChecksumedStream :
    Harmless 0 (decodeChecksumedStream decodeNext) :=
  harmless_readU32.seq fun _ _ =>
    (harmless_next hNext).seq fun _ _ => harmless_pure _

/-- The second column loop assigns the slots the first one left. -/
theorem safe_decodeVariable {columns : List PackedColumn}
    {done todo : List (Nat × Nat)} {entry : Nat × Nat}
    (hSplit : sizeOrder columns = done ++ entry :: todo)
    {fixed : List (Nat × Nat)} {values : List (Option Value)}
    (hLength : values.length = columns.length)
    (hAssigned : Assigned values (fixed ++ done.filter fun e => e.1 = 0)) :
    SafeDecoder 0 (decodeVariable decodeNext values entry) fun values' =>
      values'.length = columns.length ∧
        Assigned values' (fixed ++ (done ++ [entry]).filter fun e => e.1 = 0) := by
  obtain ⟨size, i⟩ := entry
  obtain ⟨⟨hi, -⟩, -, -, -⟩ := sizeOrder_split hSplit
  have hSlot : i < values.length := by rw [hLength]; exact hi
  rw [List.filter_append, ← List.append_assoc]
  refine Safe.ite (fun hZero => ?_) fun hSized => ?_
  · simp only at hZero
    refine (harmless_next hNext).seq fun value _ => ?_
    refine safe_ofChecked ((safe_storeSlot hSlot).mono ?_)
    rintro values' rfl
    refine ⟨by simpa using hLength, ?_⟩
    simpa [hZero] using hAssigned.set size i value hSlot
  · refine safe_pure ⟨hLength, ?_⟩
    simpa [hSized] using hAssigned

omit hNext in
/-- With the sized and the size-0 columns done, no slot is null. -/
theorem ne_none_of_assigned {columns : List PackedColumn}
    {values : List (Option Value)} (hLength : values.length = columns.length)
    (hAssigned : Assigned values
      ((sizeOrder columns).filter (fun e => e.1 ≠ 0) ++
        (sizeOrder columns).filter fun e => e.1 = 0)) :
    ∀ slot ∈ values, slot ≠ none := by
  intro slot hSlot hNone
  obtain ⟨i, hi, hGet⟩ := List.getElem_of_mem hSlot
  have hColumn : i < columns.length := by omega
  have hEntry := exists_mem_sizeOrder hColumn
  obtain ⟨v, hv⟩ := hAssigned (dbTypeSizeBits columns[i].type, i) (by
    -- a slot is filled by the first column loop or by the second
    by_cases hZero : dbTypeSizeBits columns[i].type = 0
    · exact List.mem_append_right _ (by simpa [hZero] using hEntry)
    · exact List.mem_append_left _ (by simpa [hZero] using hEntry))
  rw [List.getElem?_eq_getElem hi, hGet, hNone] at hv
  cases hv

/-- The two loops along the columns assign every slot, so none is read unset. -/
theorem harmless_decodeRowBody (columns : List PackedColumn) :
    Harmless 0 (decodeRowBody decodeNext columns) := by
  refine harmless_readBoundedSize.seq fun rleLen _ => ?_
  refine Safe.ite (fun _ => safe_fail) fun _ => ?_
  refine (harmless_readBytes rleLen).seq fun rle _ => ?_
  refine (safe_ofChecked (safe_unpackFixed columns rle)).seq ?_
  intro fixed hFixed
  -- the invariant of the second loop: the sized columns and the columns of size 0 so far are set
  have hLoop := Safe.foldlM (J := fun _ : SaveTable => True)
    (f := decodeVariable decodeNext)
    (I := fun done values => values.length = columns.length ∧
      Assigned values ((sizeOrder columns).filter (fun e => e.1 ≠ 0) ++
        done.filter fun e => e.1 = 0))
    (fun done entry todo hSplit values hValues =>
      safe_decodeVariable hNext hSplit hValues.1 hValues.2)
    fixed ⟨hFixed.1, by simpa using hFixed.2⟩
  refine hLoop.seq fun filled hFilled => ?_
  have hSet := safe_allSet (ne_none_of_assigned hFilled.1 hFilled.2)
  exact (safe_ofChecked hSet).seq fun _ _ => harmless_pure _

/-- The columns are checked before the body is read. -/
theorem harmless_decodePackedRow : Harmless 0 (decodePackedRow decodeNext) := by
  refine (harmless_next hNext).seq fun header _ => ?_
  refine (safe_ofChecked (safe_rowColumns header)).seq fun columns _ => ?_
  exact harmless_decodeRowBody hNext columns

/-- One case for each opcode. -/
theorem harmless_decodeOpcode (opcode : UInt8) :
    Harmless 0 (decodeOpcode decodeNext opcode) := by
  have hU8 := harmless_readU8.weaken
  have hSize := harmless_readBoundedSize
  have hCount := harmless_readBoundedCount
  have hOne := harmless_next hNext
  unfold decodeOpcode
  cases Opcode.ofByte? opcode with
  | none => exact safe_fail
  | some op =>
    cases op with
    -- leaves
    | pyByte | pyCharString => exact hU8.seq fun _ _ => harmless_pure _
    | pySignedShort => exact harmless_readU16.seq fun _ _ => harmless_pure _
    | pyLong => exact harmless_readU32.seq fun _ _ => harmless_pure _
    | pyLongLong | pyReal => exact harmless_readU64.seq fun _ _ => harmless_pure _
    | pyVarInteger => exact harmless_decodeVarInteger
    | pyShortString => exact hU8.seq fun _ _ => harmless_decodeBytes _ _ _
    | pyLongString | pyWStringUTF8 | pyToken | pyBuffer | cPicked =>
      exact hSize.seq fun _ _ => harmless_decodeBytes _ _ _
    | pyStringTableItem => exact harmless_decodeStringTableItem
    | pyWStringUCS2Char => exact harmless_decodeWStringUcs2 1
    | pyWStringUCS2 => exact hSize.seq fun _ _ => harmless_decodeWStringUcs2 _
    -- composites
    | pyOneTuple | pyOneList | pySubStruct =>
      exact hOne.seq fun _ _ => harmless_pure _
    | pyTwoTuple => exact hOne.seq fun _ _ => hOne.seq fun _ _ => harmless_pure _
    | pyTuple => exact hCount.seq fun count _ => harmless_decodeTuple hNext count
    | pyList => exact hCount.seq fun count _ => harmless_decodeList hNext count
    | pyDict => exact hCount.seq fun count _ => harmless_decodeDict hNext count
    | pyObject => exact harmless_decodeObject hNext
    | pyObjectEx1 | pyObjectEx2 => exact harmless_decodeObjectEx hNext _
    | pySubStream => exact harmless_decodeSubStream
    | pyChecksumedStream => exact harmless_decodeChecksumedStream hNext
    | pySavedStreamElement => exact harmless_decodeSavedElement
    | pyPackedRow => exact harmless_decodePackedRow hNext
    | packedTerminator => exact safe_fail
    | _ => exact harmless_pure _

omit hNext in
/-- The index is checked before the slot is written. -/
theorem harmless_saveResult (storageIndex : Nat) (result : Value) :
    Harmless 0 (saveResult storageIndex result) := by
  refine safe_getStore.seq fun saved _ => ?_
  refine Safe.ite (fun _ => safe_fail) fun hRange => ?_
  have hSlot : storageIndex - 1 < saved.length := by omega
  exact (safe_ofChecked (safe_storeSlot hSlot)).seq fun _ _ => safe_setStore trivial

/-- The index of a saved value is read before the value. -/
theorem harmless_decodeTagged : Harmless 1 (decodeTagged decodeNext) := by
  refine harmless_readU8.seq fun raw _ => ?_
  refine Safe.ite (fun _ => safe_fail) fun _ => Safe.ite (fun _ => ?_) fun _ => ?_
  · refine harmless_readSaveIndex.seq fun storageIndex _ => ?_
    refine (harmless_decodeOpcode hNext _).seq fun result _ => ?_
    exact (harmless_saveResult storageIndex result).seq fun _ _ => harmless_pure _
  · exact harmless_decodeOpcode hNext _

end Composite

-- ---------------------------------------------------------------------------
-- Whole streams
-- ---------------------------------------------------------------------------

/-- At every depth the decoder is safe and consumes a byte, by induction on the
levels left below the depth limit. -/
theorem safe_decodeLevels (levels : Nat) : Harmless 1 (decodeLevels levels) := by
  induction levels with
  | zero => exact safe_fail
  | succ levels ih => exact harmless_decodeTagged ih

/-- The magic byte and the number of saved objects. -/
theorem harmless_readHeader : Harmless 0 readHeader := by
  refine harmless_readU8.weaken.seq fun header _ => ?_
  refine Safe.ite (fun _ => safe_fail) fun _ => ?_
  refine harmless_readU32.seq fun count _ => ?_
  exact Safe.ite (fun _ => safe_fail) fun _ => harmless_pure _

/-- A stream that is too long is refused at once, and a shorter one is read by harmless
decoders. -/
theorem safe_decode (stream : Bytes) (exact : Bool) :
    (decode stream exact).Safe fun _ => True := by
  unfold decode decodeStream
  split
  · trivial
  rename_i hLen
  have hCap : stream.length ≤ MAX_STREAM_BYTES := Nat.le_of_not_lt hLen
  have hHead := harmless_readHeader (Input.whole stream) ⟨0, []⟩ hCap
    (Nat.zero_le _) trivial
  refine hHead.bind ?_
  rintro ⟨saveCount, cursor⟩ ⟨-, hIn, -, -⟩
  simp only at hIn ⊢
  -- the declared end may lie anywhere; safety does not depend on it
  have hRoot := safe_decodeLevels (MAX_MARSHAL_DEPTH + 1 - 0)
    ⟨stream, valueEnd stream.length cursor.offset saveCount⟩
    ⟨cursor.offset, List.replicate saveCount none⟩ hCap hIn trivial
  refine hRoot.bind ?_
  rintro ⟨result, cursor'⟩ -
  simp only
  split
  · trivial
  · trivial

/--
**Decoder safety.** For every byte string and both modes `Decode` returns a
value or throws a `MarshalError`; no run moves the cursor past the data, indexes
a buffer, a bit section, a row slot or the save table outside its bounds, reads
an unassigned slot, or fails to end.
-/
theorem decode_value_or_error (stream : Bytes) (exact : Bool) :
    (∃ value, decode stream exact = .ok value) ∨
      ∃ e : MarshalError, decode stream exact = .error (.thrown e) := by
  have hSafe := safe_decode stream exact
  cases hRun : decode stream exact with
  | ok value => exact Or.inl ⟨value, rfl⟩
  | error stop =>
    cases stop with
    | thrown e => exact Or.inr ⟨e, rfl⟩
    | fault f => rw [hRun] at hSafe; exact hSafe.elim

end Ithax.Marshal
