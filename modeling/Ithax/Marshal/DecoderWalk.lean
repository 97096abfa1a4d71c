import Ithax.Lib.Compositional
import Ithax.Marshal.Decode

/-!
# A walk over the decoder

What is compositional and reports the end of the buffer as `MarshalTruncatedError` holds of
every function of `Marshal/Decode.lean`: reads, leaves, composites, and by induction on the
levels left below the depth limit the recursive decoder.

## Results

* `holds_decodeOpcode` — every opcode, given the decoder of the next depth.
* `holds_decodeLevels`, `holds_decodeValue` — the recursive decoder.
* `holds_readHeader` — the header in front of it.
-/

namespace Ithax.Marshal

open Ithax.Lib Ithax.Lib.Reader

variable (P : Compositional MarshalError.IsTruncated SaveTable)

-- ---------------------------------------------------------------------------
-- Reads
-- ---------------------------------------------------------------------------

/-- `ReadU8`: the byte at the cursor. -/
theorem holds_readU8 : P.Holds 1 readU8 :=
  P.takeByte trivial

/-- As many bytes as asked for, or an exception. -/
theorem holds_readBytes (n : Nat) : P.Holds n (readBytes n) := by
  have hEnd : endOfStream.IsTruncated := trivial
  exact P.take hEnd n

/-- The two bytes of a `std::uint16_t`. -/
theorem holds_readU16 : P.Holds 2 readU16 :=
  P.seq (holds_readBytes P 2) fun _ => P.done _

/-- The four bytes of a `std::uint32_t`. -/
theorem holds_readU32 : P.Holds 4 readU32 :=
  P.seq (holds_readBytes P 4) fun _ => P.done _

/-- The eight bytes of a `std::uint64_t`. -/
theorem holds_readU64 : P.Holds 8 readU64 :=
  P.seq (holds_readBytes P 8) fun _ => P.done _

/-- `ReadSizeEx`: one byte, and four more behind the escape. -/
theorem holds_readSizeEx : P.Holds 1 readSizeEx := by
  refine P.seq (holds_readU8 P) fun first => P.ite ?_ (P.done _)
  exact P.after (holds_readU32 P) fun _ => P.done _

/-- A size that is compared with its bound once it is read. -/
theorem holds_readBounded (bound : Nat) (message : String) :
    P.Holds 1 (readBounded bound message) :=
  P.seq (holds_readSizeEx P) fun _ => P.ite (P.fail _) (P.done _)

/-- The size of strings, buffers and nested streams. -/
theorem holds_readBoundedSize : P.Holds 1 readBoundedSize :=
  holds_readBounded P _ _

/-- The number of elements of a container. -/
theorem holds_readBoundedCount : P.Holds 1 readBoundedCount :=
  holds_readBounded P _ _

/-- `ReadSaveIndex`: the check against the declared end, then four bytes. -/
theorem holds_readSaveIndex : P.Holds 4 readSaveIndex := by
  refine P.andThen P.getStore fun saved => P.ite (P.fail _) ?_
  refine P.requireLimit trivial le_rfl ?_
  exact P.seq (holds_readU32 P) fun _ => P.done _

/-- The magic byte, then the save count. -/
theorem holds_readHeader : P.Holds 5 readHeader := by
  refine P.bind 1 4 (holds_readU8 P) (fun header => ?_) (by omega)
  refine P.ite (P.fail _) ?_
  exact P.seq (holds_readU32 P) fun _ => P.ite (P.fail _) (P.done _)

-- ---------------------------------------------------------------------------
-- Leaves
-- ---------------------------------------------------------------------------

/-- `DecodeVarInteger`: a length, and as many bytes. -/
theorem holds_decodeVarInteger : P.Holds 0 decodeVarInteger := by
  refine P.after (holds_readBoundedSize P) fun len => ?_
  refine P.ite (P.done _) (P.ite (P.fail _) ?_)
  exact P.after (holds_readBytes P len) fun _ => P.done _

/-- The kinds that are a length and as many bytes. -/
theorem holds_decodeBytes (make : Bytes → Value) (message : String) (len : Nat) :
    P.Holds 0 (decodeBytes make message len) := by
  refine P.ite (P.fail _) ?_
  exact P.after (holds_readBytes P len) fun _ => P.done _

/-- An index that is looked up in the table of strings. -/
theorem holds_decodeStringTableItem : P.Holds 0 decodeStringTableItem := by
  refine P.after (holds_readU8 P) fun i => ?_
  cases lookupString i with
  | some text => exact P.done _
  | none => exact P.fail _

/-- Twice as many bytes as characters, which are converted afterwards. -/
theorem holds_decodeWStringUcs2 (count : Nat) : P.Holds 0 (decodeWStringUcs2 count) := by
  refine P.ite (P.fail _) ?_
  refine P.after (holds_readBytes P _) fun bytes => ?_
  exact P.seq (P.ofChecked _) fun _ => P.done _

/-- `DecodeSubStream`: the bytes of another stream, which are not decoded. -/
theorem holds_decodeSubStream : P.Holds 0 decodeSubStream := by
  refine P.after (holds_readBoundedSize P) fun len => ?_
  exact P.after (holds_readBytes P len) fun _ => P.done _

/-- A value that was saved before comes from the store. -/
theorem holds_decodeSavedElement : P.Holds 0 decodeSavedElement := by
  refine P.after (holds_readBoundedSize P) fun i => ?_
  refine P.seq P.getStore fun saved => P.ite (P.fail _) ?_
  refine P.seq (P.ofChecked _) fun stored => ?_
  cases stored with
  | some value => exact P.done _
  | none => exact P.fail _

-- ---------------------------------------------------------------------------
-- Composites
-- ---------------------------------------------------------------------------

section Composite

variable {decodeNext : Decoder Value} (hNext : P.Holds 1 decodeNext)

include hNext

/-- The elements of a tuple, one after another. -/
theorem holds_decodeTuple (count : Nat) : P.Holds 0 (decodeTuple decodeNext count) :=
  P.seq (P.replicate hNext count) fun _ => P.done _

/-- The elements of a list, one after another. -/
theorem holds_decodeList (count : Nat) : P.Holds 0 (decodeList decodeNext count) :=
  P.seq (P.replicate hNext count) fun _ => P.done _

/-- A value and its key. The value alone consumes a byte. -/
theorem holds_decodeValueKey : P.Holds 1 (decodeValueKey decodeNext) :=
  P.seq hNext fun _ => P.after hNext fun _ => P.done _

/-- The entries of a dictionary, value before key. -/
theorem holds_decodeDict (count : Nat) : P.Holds 0 (decodeDict decodeNext count) :=
  P.seq (P.replicate (holds_decodeValueKey P hNext) count) fun _ => P.done _

/-- `DecodeObject`: a type, which has to be a string, and the arguments. -/
theorem holds_decodeObject : P.Holds 0 (decodeObject decodeNext) := by
  refine P.after hNext fun type => ?_
  cases type with
  | string name => exact P.after hNext fun _ => P.done _
  | _ => exact P.fail _

omit hNext in
/-- A round of an ObjectEx loop either consumes the terminator it peeked at or
an element that starts with the byte it peeked at. -/
theorem holds_untilTerminator {α : Type} (message : String) {item : Decoder α}
    (hItem : P.Holds 1 item) (acc : List α) :
    P.Holds 1 (untilTerminator message item acc) := by
  refine P.requireLimit trivial le_rfl ?_
  refine P.peek trivial le_rfl fun next => P.ite ?_ ?_
  · exact P.seq (holds_readU8 P) fun _ => P.done _
  · exact P.seq hItem fun _ => P.done _

/-- An entry of an `ObjectEx`, key before value. -/
theorem holds_decodeKeyValue : P.Holds 1 (decodeKeyValue decodeNext) :=
  P.seq hNext fun _ => P.after hNext fun _ => P.done _

/-- `DecodeObjectEx`: a header, and two loops that end at a terminator each. -/
theorem holds_decodeObjectEx (isType2 : Bool) :
    P.Holds 0 (decodeObjectEx decodeNext isType2) := by
  refine P.after hNext fun header => ?_
  have hList := P.iterate
    (holds_untilTerminator P "object ex list is unterminated" hNext)
    (MAX_STREAM_BYTES + 1) []
  have hDict := P.iterate
    (holds_untilTerminator P "object ex dict is unterminated"
      (holds_decodeKeyValue P hNext)) (MAX_STREAM_BYTES + 1) []
  refine P.after hList fun list => ?_
  exact P.after hDict fun _ => P.done _

/-- Four bytes of a checksum, and the value. -/
theorem holds_decodeChecksumedStream : P.Holds 0 (decodeChecksumedStream decodeNext) := by
  refine P.after (holds_readU32 P) fun checksum => ?_
  exact P.after hNext fun _ => P.done _

/-- A column of size 0 has its value behind the packed bytes. -/
theorem holds_decodeVariable (values : List (Option Value)) (entry : Nat × Nat) :
    P.Holds 0 (decodeVariable decodeNext values entry) :=
  P.ite (P.after hNext fun _ => P.ofChecked _) (P.done _)

/-- The packed bytes of a row, and the values of its columns of size 0. -/
theorem holds_decodeRowBody (columns : List PackedColumn) :
    P.Holds 0 (decodeRowBody decodeNext columns) := by
  refine P.after (holds_readBoundedSize P) fun rleLen => ?_
  refine P.ite (P.fail _) ?_
  refine P.after (holds_readBytes P rleLen) fun rle => ?_
  refine P.seq (P.ofChecked _) fun fixed => ?_
  refine P.seq (P.foldlM (fun entry _ values =>
    holds_decodeVariable P hNext values entry) fixed) fun filled => ?_
  exact P.seq (P.ofChecked _) fun _ => P.done _

/-- `DecodePackedRow`: the columns are those of the descriptor, which is a value itself. -/
theorem holds_decodePackedRow : P.Holds 0 (decodePackedRow decodeNext) := by
  refine P.after hNext fun header => ?_
  exact P.seq (P.ofChecked _) fun columns => holds_decodeRowBody P hNext columns

/-- One case for each opcode. An opcode that is not known throws. -/
theorem holds_decodeOpcode (opcode : UInt8) :
    P.Holds 0 (decodeOpcode decodeNext opcode) := by
  have hSize := holds_readBoundedSize P
  have hCount := holds_readBoundedCount P
  unfold decodeOpcode
  cases Opcode.ofByte? opcode with
  | none => exact P.fail _
  | some op =>
    cases op with
    -- leaves: what is consumed after the opcode is known from the kind
    | pyByte | pyCharString => exact P.after (holds_readU8 P) fun _ => P.done _
    | pySignedShort => exact P.after (holds_readU16 P) fun _ => P.done _
    | pyLong => exact P.after (holds_readU32 P) fun _ => P.done _
    | pyLongLong | pyReal => exact P.after (holds_readU64 P) fun _ => P.done _
    | pyVarInteger => exact holds_decodeVarInteger P
    | pyShortString => exact P.after (holds_readU8 P) fun _ => holds_decodeBytes P _ _ _
    | pyLongString | pyWStringUTF8 | pyToken | pyBuffer | cPicked =>
      exact P.after hSize fun _ => holds_decodeBytes P _ _ _
    | pyStringTableItem => exact holds_decodeStringTableItem P
    | pyWStringUCS2Char => exact holds_decodeWStringUcs2 P 1
    | pyWStringUCS2 => exact P.after hSize fun _ => holds_decodeWStringUcs2 P _
    -- composites, whose elements come from the decoder of the next depth
    | pyOneTuple | pyOneList | pySubStruct => exact P.after hNext fun _ => P.done _
    | pyTwoTuple => exact P.after hNext fun _ => P.after hNext fun _ => P.done _
    | pyTuple => exact P.after hCount fun count => holds_decodeTuple P hNext count
    | pyList => exact P.after hCount fun count => holds_decodeList P hNext count
    | pyDict => exact P.after hCount fun count => holds_decodeDict P hNext count
    | pyObject => exact holds_decodeObject P hNext
    | pyObjectEx1 | pyObjectEx2 => exact holds_decodeObjectEx P hNext _
    | pySubStream => exact holds_decodeSubStream P
    | pyChecksumedStream => exact holds_decodeChecksumedStream P hNext
    | pySavedStreamElement => exact holds_decodeSavedElement P
    | pyPackedRow => exact holds_decodePackedRow P hNext
    | packedTerminator => exact P.fail _
    | _ => exact P.done _

omit hNext in
/-- The value goes to its place in the store. -/
theorem holds_saveResult (storageIndex : Nat) (result : Value) :
    P.Holds 0 (saveResult storageIndex result) := by
  refine P.seq P.getStore fun saved => P.ite (P.fail _) ?_
  exact P.seq (P.ofChecked _) fun _ => P.setStore _

/-- The opcode with its flags, and the value that it announces. -/
theorem holds_decodeTagged : P.Holds 1 (decodeTagged decodeNext) := by
  refine P.seq (holds_readU8 P) fun raw => ?_
  refine P.ite (P.fail _) (P.ite ?_ ?_)
  · refine P.after (holds_readSaveIndex P) fun storageIndex => ?_
    refine P.seq (holds_decodeOpcode P hNext _) fun result => ?_
    exact P.seq (holds_saveResult P storageIndex result) fun _ => P.done _
  · exact holds_decodeOpcode P hNext _

end Composite

-- ---------------------------------------------------------------------------
-- The recursive decoder
-- ---------------------------------------------------------------------------

/-- By induction on the levels that are left below the depth limit. -/
theorem holds_decodeLevels (levels : Nat) : P.Holds 1 (decodeLevels levels) := by
  induction levels with
  | zero => exact P.fail _
  | succ levels ih => exact holds_decodeTagged P ih

/-- `DecodeValue` at any depth. -/
theorem holds_decodeValue (depth : Nat) : P.Holds 1 (decodeValue depth) :=
  holds_decodeLevels P _

end Ithax.Marshal
