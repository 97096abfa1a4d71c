import Ithax.Marshal.PackedRow
import Ithax.Marshal.StringTable

/-!
# The marshal decoder

`class Reader` and `class Decoder` of `network/marshal/marshal.cpp`. The reader
is `Ithax.Lib.Reader` with the save table `m_saved` as its store; `m_value_end`
is the declared end of the input.

As in the encoder, the levels left below the depth limit drive the recursion
and `decodeValue_eq` is `DecodeValue` as the source states it. The two `while
(true)` loops of `DecodeObjectEx` consume a byte a round and run on a stream of
at most `MAX_STREAM_BYTES` bytes, so `MAX_STREAM_BYTES + 1` rounds bound them.
-/

namespace Ithax.Marshal

open Ithax.Lib

/-- `m_saved`: an element slot is null until something is stored in it. -/
abbrev SaveTable := List (Option Value)

/-- A method of the decoder. -/
abbrev Decoder := Reader MarshalError SaveTable

/-! ## Reader -/

/-- What every read past the end throws. -/
def endOfStream : MarshalError :=
  .truncated "marshal stream ended unexpectedly"

/-- `ReadU8`. -/
def readU8 : Decoder UInt8 := Reader.takeByte endOfStream

/-- A look at the next byte, which stays. -/
def peekU8 : Decoder UInt8 := Reader.peekByte endOfStream

/-- `RequireBytes(count)`, then the bytes at the cursor. -/
def readBytes (count : Nat) : Decoder Bytes := Reader.take endOfStream count

/-- `ReadU16`. -/
def readU16 : Decoder UInt16 := do
  let bs ← readBytes 2
  pure (UInt16.ofNat (leNat bs))

/-- `ReadU32`. -/
def readU32 : Decoder UInt32 := do
  let bs ← readBytes 4
  pure (UInt32.ofNat (leNat bs))

/-- `ReadU64`. -/
def readU64 : Decoder UInt64 := do
  let bs ← readBytes 8
  pure (UInt64.ofNat (leNat bs))

/-- `ReadSizeEx`: one byte, or the escape and four. -/
def readSizeEx : Decoder Nat := do
  let first ← readU8
  if first.toNat = kSizeExEscape then do
    let size ← readU32
    pure size.toNat
  else pure first.toNat

/-! ## Bounded sizes -/

/-- A size read from the stream and refused with `message` above `bound`. -/
def readBounded (bound : Nat) (message : String) : Decoder Nat := do
  let size ← readSizeEx
  if size > bound then Reader.fail (.limit message) else pure size

/-- The length of a string. -/
def readBoundedSize : Decoder Nat :=
  readBounded MAX_STRING_BYTES "marshal size exceeds the limit"

/-- The number of elements of a container. -/
def readBoundedCount : Decoder Nat :=
  readBounded MAX_CONTAINER_COUNT "marshal container count exceeds the limit"

/-- `ReadSaveIndex`: the next entry of the map at the end of the stream. -/
def readSaveIndex : Decoder Nat := do
  let saved ← Reader.getStore
  if saved.isEmpty then
    Reader.fail (.format "marshal save flag set without a store")
  else do
    Reader.requireLimit (.truncated "marshal save table is truncated") 4
    let i ← readU32
    pure i.toNat

/-! ## Leaves -/

/-- A `PyVarInteger`: up to eight bytes, the low ones of the integer. -/
def decodeVarInteger : Decoder Value := do
  let len ← readBoundedSize
  if len = 0 then pure (.int 0)
  else if len > 8 then
    Reader.fail (.limit "var integer length exceeds 8 bytes")
  else do
    let bytes ← readBytes len
    pure (.int (UInt64.ofNat (leNat bytes)).toInt64)

/-- The string-like kinds: a length check, then the bytes. -/
def decodeBytes (make : Bytes → Value) (message : String) (len : Nat) :
    Decoder Value :=
  if len > MAX_STRING_BYTES then Reader.fail (.limit message)
  else do
    let bytes ← readBytes len
    pure (make bytes)

/-- A string. -/
def decodeString : Nat → Decoder Value :=
  decodeBytes .string "string length exceeds the limit"

/-- Text as UTF-8, which is not checked. -/
def decodeWStringUtf8 : Nat → Decoder Value :=
  decodeBytes .wString "wide string length exceeds the limit"

/-- A token. -/
def decodeToken : Nat → Decoder Value :=
  decodeBytes .token "token length exceeds the limit"

/-- A buffer. -/
def decodeBuffer : Nat → Decoder Value :=
  decodeBytes .buffer "buffer length exceeds the limit"

/-- Pickled data. -/
def decodeCPicked : Nat → Decoder Value :=
  decodeBytes .cPicked "pickle length exceeds the limit"

/-- A string of the table. -/
def decodeStringTableItem : Decoder Value := do
  let i ← readU8
  match lookupString i with
  | some text => pure (.string text)
  | none => Reader.fail (.stringTable "string table index is out of range")

/-- One UTF-16 code unit as one to three bytes; surrogates are not paired. -/
def appendUtf16Unit (out : Bytes) (unit : UInt16) : Bytes :=
  if unit < 0x80 then out ++ [unit.toUInt8]
  else if unit < 0x800 then
    out ++ [(0xC0 : UInt8) ||| (unit >>> 6).toUInt8, (0x80 : UInt8) ||| (unit &&& 0x3F).toUInt8]
  else
    out ++ [(0xE0 : UInt8) ||| (unit >>> 12).toUInt8,
      (0x80 : UInt8) ||| ((unit >>> 6) &&& 0x3F).toUInt8, (0x80 : UInt8) ||| (unit &&& 0x3F).toUInt8]

/-- The loop of `DecodeWStringUcs2` at the unit that starts at byte `2 * k`. -/
def ucs2Step (bytes : Bytes) (out : Bytes) (k : Nat) : Result Bytes := do
  let low ← index bytes (2 * k)
  let high ← index bytes (2 * k + 1)
  .ok (appendUtf16Unit out (low.toUInt16 ||| high.toUInt16 <<< 8))

/-- `for (i = 0; i < bytes.size(); i += 2)`. -/
def ucs2ToUtf8 (bytes : Bytes) : Result Bytes :=
  -- the last unit of an odd length would index past the bytes; callers read `count * 2` of them
  (List.range ((bytes.length + 1) / 2)).foldlM (ucs2Step bytes) []

/-- `PyWStringUCS2`, of `count` units. -/
def decodeWStringUcs2 (count : Nat) : Decoder Value :=
  if count > MAX_STRING_BYTES / 2 then
    Reader.fail (.limit "wide string length exceeds the limit")
  else do
    let bytes ← readBytes (count * 2)
    let utf8 ← Reader.ofChecked (ucs2ToUtf8 bytes)
    pure (.wString utf8)

/-- A substream. -/
def decodeSubStream : Decoder Value := do
  let len ← readBoundedSize
  let data ← readBytes len
  pure (.subStream data)

/-- A reference to the save table. -/
def decodeSavedElement : Decoder Value := do
  let i ← readBoundedSize
  let saved ← Reader.getStore
  if i = 0 ∨ i > saved.length then
    Reader.fail (.format "saved stream element index is out of range")
  else do
    let stored ← Reader.ofChecked (index saved (i - 1))
    match stored with
    | some value => pure value
    | none => Reader.fail (.format "saved stream element was not stored")

/-! ## Row descriptors -/

/-- One column of a row descriptor. -/
def extractColumn : Value → Result PackedColumn
  | .tuple [.string name, .int type] =>
    .ok ⟨name, DbType.ofByte type.toUInt64.toUInt8⟩
  | _ => raise (.format "row descriptor column is malformed")

/-- The columns of a row's descriptor. What else is in the descriptor is not looked at. -/
def extractColumns (data : ObjectExData Value) : Result (List PackedColumn) :=
  match data.header with
  | .token name =>
    if name ≠ ascii "blue.DBRowDescriptor" then
      raise (.format "packed row header is not a row descriptor")
    else
      -- the arguments are one tuple and nothing else
      match data.list with
      | [.tuple columns] =>
        if columns.length > kMaxPackedRowColumns then
          raise (.limit "row descriptor column count exceeds the limit")
        else columns.mapM extractColumn
      | _ => raise (.format "row descriptor args are malformed")
  | _ => raise (.format "packed row header is not a row descriptor")

/-- The columns of a row, from its decoded descriptor. -/
def rowColumns : Value → Result (List PackedColumn)
  | .objectEx _ data => extractColumns data
  | _ => raise (.format "packed row header is not an object ex")

/-! ## Composites

Each takes the decoder of the next depth as `decodeNext`. -/

section Composite

variable (decodeNext : Decoder Value)

/-- A tuple of `count` elements. -/
def decodeTuple (count : Nat) : Decoder Value := do
  let items ← Reader.replicate decodeNext count
  pure (.tuple items)

/-- A list of `count` elements. -/
def decodeList (count : Nat) : Decoder Value := do
  let items ← Reader.replicate decodeNext count
  pure (.list items)

/-- A dict entry travels value first. -/
def decodeValueKey : Decoder (DictEntry Value) := do
  let value ← decodeNext
  let key ← decodeNext
  pure ⟨key, value⟩

/-- A dict of `count` entries. -/
def decodeDict (count : Nat) : Decoder Value := do
  let entries ← Reader.replicate (decodeValueKey decodeNext) count
  pure (.dict entries)

/-- An object: its type is a value of its own, and has to be a string. -/
def decodeObject : Decoder Value := do
  let type ← decodeNext
  match type with
  | .string name => do
    let args ← decodeNext
    pure (.object name args)
  | _ => Reader.fail (.format "object type is not a string")

/-- A round of an ObjectEx loop: leave at the terminator, else read one more
element with `item`. -/
def untilTerminator {α : Type} (message : String) (item : Decoder α)
    (acc : List α) : Decoder (List α ⊕ List α) := do
  Reader.requireLimit (.truncated message) 1
  let next ← peekU8
  -- the flags of the byte are masked away, and consumed with it
  if next &&& OPCODE_MASK = Opcode.packedTerminator.toByte then do
    let _ ← readU8
    pure (.inr acc)
  else do
    let a ← item
    pure (.inl (acc ++ [a]))

/-- An ObjectEx entry travels key first. -/
def decodeKeyValue : Decoder (DictEntry Value) := do
  let key ← decodeNext
  let value ← decodeNext
  pure ⟨key, value⟩

/-- An `ObjectEx`: the list and the dict each end at a terminator. -/
def decodeObjectEx (isType2 : Bool) : Decoder Value := do
  let header ← decodeNext
  -- a round consumes a byte, so a stream ends before this fuel does
  let list ← Reader.iterate
    (untilTerminator "object ex list is unterminated" decodeNext)
    (MAX_STREAM_BYTES + 1) []
  let dict ← Reader.iterate
    (untilTerminator "object ex dict is unterminated" (decodeKeyValue decodeNext))
    (MAX_STREAM_BYTES + 1) []
  pure (.objectEx isType2 ⟨header, list, dict⟩)

/-- A checksummed value. The checksum is kept, and not compared. -/
def decodeChecksumedStream : Decoder Value := do
  let checksum ← readU32
  let value ← decodeNext
  pure (.checksumedStream checksum value)

/-- The second column loop of `DecodePackedRow`: the size-0 columns. -/
def decodeVariable (values : List (Option Value)) (entry : Nat × Nat) :
    Decoder (List (Option Value)) :=
  if entry.1 = 0 then do
    let value ← decodeNext
    Reader.ofChecked (storeSlot values entry.2 value)
  else pure values

/-- `DecodePackedRow` after the descriptor. -/
def decodeRowBody (columns : List PackedColumn) : Decoder Value := do
  let rleLen ← readBoundedSize
  if rleLen > kMaxPackedRowBytes then
    Reader.fail (.limit "packed row RLE length exceeds the limit")
  else do
    let rle ← readBytes rleLen
    let fixed ← Reader.ofChecked (unpackFixed columns rle)
    let filled ← (sizeOrder columns).foldlM (decodeVariable decodeNext) fixed
    let values ← Reader.ofChecked (allSet filled)
    pure (.packedRow ⟨columns, values⟩)

/-- A packed row: the descriptor, the packed part, the columns outside it. -/
def decodePackedRow : Decoder Value := do
  let header ← decodeNext
  let columns ← Reader.ofChecked (rowColumns header)
  decodeRowBody decodeNext columns

/-- `DecodeOpcode`. -/
def decodeOpcode (opcode : UInt8) : Decoder Value :=
  match Opcode.ofByte? opcode with
  | some .pyNone => pure .none
  | some .pyTrue => pure (.bool true)
  | some .pyFalse => pure (.bool false)
  | some .pyZeroInteger => pure (.int 0)
  | some .pyOneInteger => pure (.int 1)
  | some .pyMinusOne => pure (.int (-1))
  -- the shorter integers are extended by their sign
  | some .pyByte => do
    let b ← readU8
    pure (.int b.toInt8.toInt64)
  | some .pySignedShort => do
    let n ← readU16
    pure (.int n.toInt16.toInt64)
  | some .pyLong => do
    let n ← readU32
    pure (.int n.toInt32.toInt64)
  | some .pyLongLong => do
    let n ← readU64
    pure (.int n.toInt64)
  | some .pyVarInteger => decodeVarInteger
  | some .pyZeroReal => pure (.real 0)
  | some .pyReal => do
    let bits ← readU64
    pure (.real bits)
  | some .pyEmptyString => pure (.string [])
  | some .pyCharString => do
    let c ← readU8
    pure (.string [c])
  | some .pyShortString => do
    let len ← readU8
    decodeString len.toNat
  | some .pyLongString => do
    let len ← readBoundedSize
    decodeString len
  | some .pyStringTableItem => decodeStringTableItem
  | some .pyEmptyWString => pure (.wString [])
  | some .pyWStringUCS2Char => decodeWStringUcs2 1
  | some .pyWStringUCS2 => do
    let count ← readBoundedSize
    decodeWStringUcs2 count
  | some .pyWStringUTF8 => do
    let len ← readBoundedSize
    decodeWStringUtf8 len
  | some .pyToken => do
    let len ← readBoundedSize
    decodeToken len
  | some .pyBuffer => do
    let len ← readBoundedSize
    decodeBuffer len
  | some .pyEmptyTuple => pure (.tuple [])
  | some .pyOneTuple => do
    let first ← decodeNext
    pure (.tuple [first])
  | some .pyTwoTuple => do
    let first ← decodeNext
    let second ← decodeNext
    pure (.tuple [first, second])
  | some .pyTuple => do
    let count ← readBoundedCount
    decodeTuple decodeNext count
  | some .pyEmptyList => pure (.list [])
  | some .pyOneList => do
    let first ← decodeNext
    pure (.list [first])
  | some .pyList => do
    let count ← readBoundedCount
    decodeList decodeNext count
  | some .pyDict => do
    let count ← readBoundedCount
    decodeDict decodeNext count
  | some .pyObject => decodeObject decodeNext
  | some .pyObjectEx1 => decodeObjectEx decodeNext false
  | some .pyObjectEx2 => decodeObjectEx decodeNext true
  | some .pySubStruct => do
    let value ← decodeNext
    pure (.subStruct value)
  | some .pySubStream => decodeSubStream
  | some .pyChecksumedStream => decodeChecksumedStream decodeNext
  | some .pySavedStreamElement => decodeSavedElement
  | some .pyPackedRow => decodePackedRow decodeNext
  | some .cPicked => do
    let len ← readBoundedSize
    decodeCPicked len
  | some .packedTerminator =>
    Reader.fail (.format "unexpected packed terminator")
  | none => Reader.fail (.format "unknown marshal opcode")

/-- `m_saved[storage_index - 1] = result`, after the range check. -/
def saveResult (storageIndex : Nat) (result : Value) : Decoder Unit := do
  let saved ← Reader.getStore
  if storageIndex = 0 ∨ storageIndex > saved.length then
    Reader.fail (.format "marshal save index is out of range")
  else do
    let saved ← Reader.ofChecked (storeSlot saved (storageIndex - 1) result)
    Reader.setStore saved

/-- `DecodeValue` after its depth check, around the decoder of the opcode. -/
def decodeFlagged (decodeBody : UInt8 → Decoder Value) : Decoder Value := do
  let raw ← readU8
  if raw &&& UNKNOWN_MASK ≠ 0 then
    Reader.fail (.format "marshal stream set the unknown flag")
  else if raw &&& SAVE_MASK ≠ 0 then do
    -- the index comes from the map at the end, before the value is decoded
    let storageIndex ← readSaveIndex
    let result ← decodeBody (raw &&& OPCODE_MASK)
    saveResult storageIndex result
    pure result
  else decodeBody (raw &&& OPCODE_MASK)

/-- One value with its tag byte. -/
def decodeTagged : Decoder Value := decodeFlagged (decodeOpcode decodeNext)

end Composite

/-! ## The decoder -/

/-- `DecodeValue` with `levels` depths left below the limit. -/
def decodeLevels : Nat → Decoder Value
  | 0 => Reader.fail (.depth "marshal nesting exceeds the depth limit")
  | levels + 1 => decodeTagged (decodeLevels levels)

/-- `DecodeValue`. -/
def decodeValue (depth : Nat) : Decoder Value :=
  decodeLevels (MAX_MARSHAL_DEPTH + 1 - depth)

/-- The depth check and the rest, as the source has them. -/
theorem decodeValue_eq (depth : Nat) :
    decodeValue depth =
      if depth > MAX_MARSHAL_DEPTH then
        Reader.fail (.depth "marshal nesting exceeds the depth limit")
      else decodeTagged (decodeValue (depth + 1)) := by
  unfold decodeValue
  split
  · rename_i h
    rw [show MAX_MARSHAL_DEPTH + 1 - depth = 0 by omega, decodeLevels]
  · rename_i h
    rw [show MAX_MARSHAL_DEPTH + 1 - depth =
      (MAX_MARSHAL_DEPTH + 1 - (depth + 1)) + 1 by omega, decodeLevels]

/-- The stream header: the magic byte and the save count. -/
def readHeader : Decoder Nat := do
  let header ← readU8
  if header ≠ MARSHAL_HEADER_BYTE then
    Reader.fail (.format "invalid marshal header byte")
  else do
    let saveCount ← readU32
    if saveCount.toNat > MAX_SAVED_OBJECTS then
      Reader.fail (.limit "marshal save count exceeds the limit")
    else pure saveCount.toNat

/-- `m_value_end`, computed in `std::size_t`: the table size may exceed what is
left of the stream, and the difference then wraps. -/
def valueEnd (size offset saveCount : Nat) : Nat :=
  -- without saved objects the values go up to the end of the stream
  if saveCount = 0 then offset + (size - offset)
  else (offset + (size - offset + 2 ^ 64 - saveCount * 4) % 2 ^ 64) % 2 ^ 64

/-- `Decoder::Decode`, around the decoder of the root value. -/
def decodeStream (decodeRoot : Decoder Value) (stream : Bytes)
    (requireExactEnd : Bool) : Result Value :=
  if stream.length > MAX_STREAM_BYTES then
    raise (.limit "marshal stream exceeds the size limit")
  else do
    let (saveCount, cursor) ← readHeader (Input.whole stream) ⟨0, []⟩
    let stop := valueEnd stream.length cursor.offset saveCount
    let (result, cursor) ← decodeRoot ⟨stream, stop⟩
      ⟨cursor.offset, List.replicate saveCount none⟩
    if requireExactEnd ∧ cursor.offset ≠ stop then
      raise (.format "marshal stream has trailing data")
    else .ok result

/-- The free function `Decode`. -/
def decode (stream : Bytes) (requireExactEnd : Bool) : Result Value :=
  decodeStream (decodeValue 0) stream requireExactEnd

/-- A stream that is too long is refused before anything is read. -/
theorem decode_too_long {stream : Bytes} (h : MAX_STREAM_BYTES < stream.length)
    (exact : Bool) :
    decode stream exact = raise (.limit "marshal stream exceeds the size limit") := by
  rw [decode, decodeStream, if_pos h]

/-- A stream that is decoded is not too long. -/
theorem length_le_of_decode {stream : Bytes} {exact : Bool} {value : Value}
    (h : decode stream exact = .ok value) : stream.length ≤ MAX_STREAM_BYTES := by
  by_contra hLong
  rw [decode_too_long (Nat.lt_of_not_le hLong)] at h
  cases h

end Ithax.Marshal
