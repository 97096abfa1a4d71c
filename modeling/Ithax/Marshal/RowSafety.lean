import Ithax.Marshal.RowLayout

/-!
# Unpacking a row never leaves its buffers

`DecodePackedRow` indexes the decompressed bytes, the bit section and the value
slots without a check. The column types come from the stream and so does the
compressed part, but `ZeroDecompress` returns no fewer bytes than the types add
up to, and the two counters of the column loop never pass what they add up to
either (`sizeOrder_split`).
-/

namespace Ithax.Marshal

open Ithax.Lib

-- ---------------------------------------------------------------------------
-- Zero run-length code
-- ---------------------------------------------------------------------------

/-- A nibble takes at most what is left of its input. -/
theorem safe_decompressNibble {rle : Bytes} {expected : Nat} {control : UInt8}
    {nibble i : Nat} {out : Bytes} (hi : i ≤ rle.length) :
    (decompressNibble rle expected control nibble (i, out)).Safe fun state =>
      i ≤ state.1 ∧ state.1 ≤ rle.length := by
  unfold decompressNibble
  simp only
  split
  · exact ⟨le_rfl, hi⟩
  -- the nibble: a checked literal run, or zeros
  split
  · split
    · trivial
    · rename_i hRun
      refine (Checked.safe_slice (by omega)).bind fun literals _ => ?_
      exact ⟨by simp only; omega, by simp only; omega⟩
  · exact ⟨le_rfl, hi⟩

/-- A round takes its control byte, so a round for every byte of the input is
enough. -/
theorem safe_zeroDecompressLoop {rle : Bytes} {expected : Nat} (fuel : Nat) :
    ∀ (i : Nat) (out : Bytes), i ≤ rle.length → rle.length < i + fuel →
      (zeroDecompressLoop rle expected fuel (i, out)).Safe fun _ => True := by
  induction fuel with
  | zero => intro i out hi hFuel; omega
  | succ fuel ih =>
    intro i out hi hFuel
    unfold zeroDecompressLoop
    split
    · rename_i hGo
      refine (Checked.safe_index hGo.1).bind fun control _ => ?_
      refine (safe_decompressNibble (by omega : i + 1 ≤ rle.length)).bind ?_
      rintro ⟨i₁, out₁⟩ ⟨hLow₁, hHigh₁⟩
      refine (safe_decompressNibble hHigh₁).bind ?_
      rintro ⟨i₂, out₂⟩ ⟨hLow₂, hHigh₂⟩
      simp only at hLow₁ hLow₂
      exact ih i₂ out₂ hHigh₂ (by omega)
    · trivial

/-- The output has all bytes that the columns need. -/
theorem safe_zeroDecompress (rle : Bytes) (columns : List PackedColumn) :
    (zeroDecompress rle columns).Safe fun out =>
      expectedBytes columns ≤ out.length := by
  unfold zeroDecompress
  refine (safe_zeroDecompressLoop (rle.length + 1) 0 [] (Nat.zero_le _)
    (by omega)).bind ?_
  rintro ⟨i, out⟩ _
  simp only
  split
  · trivial
  · rename_i hLong
    exact Nat.le_of_not_lt hLong

-- ---------------------------------------------------------------------------
-- Bits, scalars and slots
-- ---------------------------------------------------------------------------

/-- A bit inside the buffer. -/
theorem safe_testBit {data : Bytes} {base n : Nat} (h : base + n / 8 < data.length) :
    (testBit data base n).Safe fun _ => True :=
  (Checked.safe_index h).bind fun _ _ => trivial

/-- A scalar whose bytes are inside the buffer. -/
theorem safe_readPackedScalar {data : Bytes} {offset : Nat} {type : DbType}
    (h : offset + dbTypeSizeBits type / 8 ≤ data.length) :
    (readPackedScalar data offset type).Safe fun _ => True := by
  cases type with
  | cy | i8 | ui8 | fileTime | r8 | i4 | ui4 | r4 | i2 | ui2 =>
    exact (Checked.safe_slice h).bind fun _ _ => trivial
  | i1 | ui1 => exact (Checked.safe_index h).bind fun _ _ => trivial
  | _ => trivial

/-- A boolean column whose bit is inside the buffer. -/
theorem safe_readBoolCell {unpacked : Bytes} {dataBytes boolOffset : Nat}
    (h : dataBytes + boolOffset / 8 < unpacked.length) (isNull : Bool) :
    (readBoolCell unpacked dataBytes boolOffset isNull).Safe fun _ => True := by
  unfold readBoolCell
  split
  · trivial
  · exact (safe_testBit h).bind fun _ _ => trivial

/-- A scalar column whose bytes are inside the buffer. -/
theorem safe_readScalarCell {unpacked : Bytes} {offset : Nat} {type : DbType}
    (h : offset + dbTypeSizeBits type / 8 ≤ unpacked.length) (isNull : Bool) :
    (readScalarCell unpacked offset type isNull).Safe fun _ => True := by
  unfold readScalarCell
  split
  · trivial
  · exact safe_readPackedScalar h

/-- A slot of the row. -/
theorem safe_storeSlot {values : List (Option Value)} {i : Nat} {value : Value}
    (h : i < values.length) :
    (storeSlot values i value).Safe fun values' =>
      values' = values.set i (some value) := by
  rw [storeSlot, if_pos h]
  exact rfl

/-- When every slot is assigned the row has all its values. -/
theorem safe_allSet {values : List (Option Value)}
    (h : ∀ slot ∈ values, slot ≠ none) : (allSet values).Safe fun _ => True := by
  induction values with
  | nil => trivial
  | cons slot rest ih =>
    cases slot with
    | none => exact absurd rfl (h none (by simp))
    | some v =>
      refine (ih fun slot hSlot => h slot (by simp [hSlot])).bind fun _ _ => ?_
      trivial

/-- The slots of these entries are assigned. -/
def Assigned (values : List (Option Value)) (entries : List (Nat × Nat)) : Prop :=
  ∀ entry ∈ entries, ∃ v, values[entry.2]? = some (some v)

/-- One slot more is assigned. -/
theorem Assigned.set {values : List (Option Value)} {entries : List (Nat × Nat)}
    (h : Assigned values entries) (size i : Nat) (value : Value)
    (hi : i < values.length) :
    Assigned (values.set i (some value)) (entries ++ [(size, i)]) := by
  intro entry hEntry
  by_cases hSame : entry.2 = i
  · exact ⟨value, by rw [hSame, List.getElem?_set_self hi]⟩
  · -- another slot keeps what it had
    rw [List.getElem?_set_ne (Ne.symm hSame)]
    rcases List.mem_append.mp hEntry with hOld | hNew
    · exact h entry hOld
    · rw [List.mem_singleton] at hNew
      exact absurd (by rw [hNew]) hSame

-- ---------------------------------------------------------------------------
-- The column loop
-- ---------------------------------------------------------------------------

/-- What the unpacking loop keeps, having passed the entries `done`. -/
structure UnpackState (columns : List PackedColumn) (done : List (Nat × Nat))
    (cursor : RowCursor) : Prop where
  offset : cursor.offset = scalarBytes done
  boolOffset : cursor.boolOffset = boolBits done
  length : cursor.values.length = columns.length
  assigned : Assigned cursor.values (done.filter fun entry => entry.1 ≠ 0)

/-- A column of the loop: its place is inside the bytes, because the counters never pass what the
columns add up to. -/
theorem safe_unpackColumn {columns : List PackedColumn} {unpacked : Bytes}
    (hBytes : expectedBytes columns ≤ unpacked.length)
    {done todo : List (Nat × Nat)} {entry : Nat × Nat}
    (hSplit : sizeOrder columns = done ++ entry :: todo) {cursor : RowCursor}
    (hState : UnpackState columns done cursor) :
    (unpackColumn columns unpacked cursor entry).Safe
      (UnpackState columns (done ++ [entry])) := by
  obtain ⟨size, i⟩ := entry
  obtain ⟨⟨hi, hSize⟩, hScalar, hBool, -⟩ := sizeOrder_split hSplit
  have hSlot : i < cursor.values.length := by rw [hState.length]; exact hi
  unfold expectedBytes at hBytes
  unfold unpackColumn
  simp only
  refine (Checked.safe_index hi).bind ?_
  rintro column rfl
  by_cases hZero : size = 0
  · -- a size-0 column is left to the second loop
    rw [if_pos hZero]
    refine ⟨?_, ?_, hState.length, ?_⟩
    · rw [hState.offset]
      simp [hZero, entryBytes]
    · rw [hState.boolOffset]
      simp [hZero]
    · rw [List.filter_append]
      simpa [hZero] using hState.assigned
  rw [if_neg hZero]
  -- the null bit of column `i` lies in the bit section
  have hNull : unpacked.length - bitBytes columns + (i + boolCount columns) / 8 <
      unpacked.length := by
    unfold bitBytes at hBytes ⊢
    omega
  refine (safe_testBit hNull).bind fun isNull _ => ?_
  have hAssigned : ∀ value, Assigned (cursor.values.set i (some value))
      ((done ++ [(size, i)]).filter fun entry => entry.1 ≠ 0) := by
    intro value
    rw [List.filter_append, List.filter_singleton]
    simp only [hZero, ne_eq, not_false_eq_true, decide_true]
    exact hState.assigned.set size i value hSlot
  split
  · rename_i hIsBool
    have hOne : size = 1 := hSize.trans (dbTypeSizeBits_eq_one.mpr hIsBool)
    rw [if_pos hOne] at hBool
    -- and so does the next boolean bit
    have hBit : unpacked.length - bitBytes columns + cursor.boolOffset / 8 <
        unpacked.length := by
      rw [hState.boolOffset]
      unfold bitBytes at hBytes ⊢
      omega
    refine (safe_readBoolCell hBit isNull).bind fun value _ => ?_
    refine (safe_storeSlot hSlot).bind ?_
    rintro values rfl
    refine ⟨?_, ?_, ?_, hAssigned value⟩
    · simp [hState.offset, hOne, entryBytes]
    · simp [hState.boolOffset, hOne]
    · simpa using hState.length
  · rename_i hNotBool
    have hWide : size ≠ 1 := fun h => hNotBool (dbTypeSizeBits_eq_one.mp (hSize ▸ h))
    rw [entryBytes, if_neg hWide] at hScalar
    -- the scalar ends before the bit section begins
    have hRead : cursor.offset + dbTypeSizeBits columns[i].type / 8 ≤
        unpacked.length := by
      rw [hState.offset, ← hSize]
      simp only at hScalar
      omega
    refine (safe_readScalarCell hRead isNull).bind fun value _ => ?_
    refine (safe_storeSlot hSlot).bind ?_
    rintro values rfl
    refine ⟨?_, ?_, ?_, hAssigned value⟩
    · simp [hState.offset, entryBytes, hWide]
    · simp [hState.boolOffset, hWide]
    · simpa using hState.length

/-- The fixed cells: one slot per column, those of the sized columns assigned. -/
theorem safe_unpackFixed (columns : List PackedColumn) (rle : Bytes) :
    (unpackFixed columns rle).Safe fun values =>
      values.length = columns.length ∧
        Assigned values ((sizeOrder columns).filter fun entry => entry.1 ≠ 0) := by
  unfold unpackFixed
  refine (safe_zeroDecompress rle columns).bind fun unpacked hBytes => ?_
  split
  · trivial
  have hStart : UnpackState columns []
      ⟨0, 0, List.replicate columns.length none⟩ :=
    ⟨rfl, rfl, List.length_replicate, fun entry hEntry => by cases hEntry⟩
  have hLoop := Checked.Safe.foldlM (f := unpackColumn columns unpacked)
    (I := UnpackState columns)
    (fun done entry todo hSplit cursor hState =>
      safe_unpackColumn hBytes hSplit hState) _ hStart
  exact hLoop.bind fun cursor hState => ⟨hState.length, hState.assigned⟩

end Ithax.Marshal
