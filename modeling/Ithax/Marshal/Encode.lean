import Ithax.Marshal.PackedRow
import Ithax.Marshal.StringTable

/-!
# The marshal encoder

`class Writer` and `class Encoder` of `network/marshal/marshal.cpp`. A writer
only ever appends, so an encoding function returns the bytes it appends.

`EncodeValue` recurses with `depth + 1` and throws above `MAX_MARSHAL_DEPTH`;
here the levels that are left drive the recursion (`encodeLevels`) and
`encodeValue_eq` is the function as the source states it.
-/

namespace Ithax.Marshal

open Ithax.Lib

/-! ## Writer -/

/-- `PutU16` to `PutI64`: little-endian bytes of the value's width. -/
def putU16 (value : UInt16) : Bytes := leBytes 2 value.toNat
def putU32 (value : UInt32) : Bytes := leBytes 4 value.toNat
def putU64 (value : UInt64) : Bytes := leBytes 8 value.toNat
def putI8 (value : Int8) : Bytes := [value.toUInt8]
def putI16 (value : Int16) : Bytes := putU16 value.toUInt16
def putI32 (value : Int32) : Bytes := putU32 value.toUInt32
def putI64 (value : Int64) : Bytes := putU64 value.toUInt64

/-- `PutSizeEx`: one byte, or the escape and four. -/
def putSizeEx (size : UInt32) : Bytes :=
  if size.toNat < kSizeExEscape then [size.toUInt8]
  else UInt8.ofNat kSizeExEscape :: putU32 size

/-- `PutSizeEx(static_cast<std::uint32_t>(bytes.size()))`, then the bytes. -/
def putSized (bytes : Bytes) : Bytes :=
  putSizeEx (UInt32.ofNat bytes.length) ++ bytes

/-! ## Leaves -/

/-- `EncodeInteger`: the shortest form of four. `PyVarInteger` is never written. -/
def encodeInteger (value : Int64) : Bytes :=
  if value = -1 then [Opcode.pyMinusOne.toByte]
  else if value = 0 then [Opcode.pyZeroInteger.toByte]
  else if value = 1 then [Opcode.pyOneInteger.toByte]
  else if -2 ^ 7 ≤ value.toInt ∧ value.toInt ≤ 2 ^ 7 - 1 then
    Opcode.pyByte.toByte :: putI8 value.toInt8
  else if -2 ^ 15 ≤ value.toInt ∧ value.toInt ≤ 2 ^ 15 - 1 then
    Opcode.pySignedShort.toByte :: putI16 value.toInt16
  else if -2 ^ 31 ≤ value.toInt ∧ value.toInt ≤ 2 ^ 31 - 1 then
    Opcode.pyLong.toByte :: putI32 value.toInt32
  else Opcode.pyLongLong.toByte :: putI64 value

/-- `EncodeReal`: either zero is `PyZeroReal`, so the sign of a zero is lost. -/
def encodeReal (value : UInt64) : Bytes :=
  if isZeroReal value then [Opcode.pyZeroReal.toByte]
  else Opcode.pyReal.toByte :: putU64 value

/-- `EncodeString`: a string of the table goes as its index. -/
def encodeString (value : Bytes) : Bytes :=
  match value with
  | [] => [Opcode.pyEmptyString.toByte]
  -- a single byte goes as itself, also where the table has its string
  | [c] => [Opcode.pyCharString.toByte, c]
  | _ =>
    match lookupStringIndex value with
    | some i => [Opcode.pyStringTableItem.toByte, i]
    -- `PyShortString` is never written
    | none => Opcode.pyLongString.toByte :: putSized value

/-- `EncodeWString`: the bytes are written as UTF-8, whatever they are. -/
def encodeWString (value : Bytes) : Bytes :=
  if value.isEmpty then [Opcode.pyEmptyWString.toByte]
  else Opcode.pyWStringUTF8.toByte :: putSized value

/-- `EncodeToken`. -/
def encodeToken (value : Bytes) : Bytes :=
  Opcode.pyToken.toByte :: putSized value

/-- `EncodeBuffer`. -/
def encodeBuffer (value : Bytes) : Bytes :=
  Opcode.pyBuffer.toByte :: putSized value

/-- `EncodeSubStream`: the bytes are a stream of their own. -/
def encodeSubStream (data : Bytes) : Bytes :=
  Opcode.pySubStream.toByte :: putSized data

/-- `EncodeCPicked`. -/
def encodeCPicked (data : Bytes) : Bytes :=
  Opcode.cPicked.toByte :: putSized data

/-- `BuildRowHeader`: the descriptor object that precedes a row's data. -/
def buildRowHeader (columns : List PackedColumn) : Value :=
  .objectEx false
    { header := .token (ascii "blue.DBRowDescriptor")
      list := [.tuple (columns.map fun column =>
        .tuple [.string column.name,
          .int (Int64.ofNat column.type.toByte.toNat)])]
      dict := [] }

/-! ## Composites

Each takes the encoder of the next depth as `encodeNext`. -/

section Composite

variable (encodeNext : Value → Result Bytes)

/-- The encodings of the elements, one after the other. -/
def encodeEach {α : Type} (encode : α → Result Bytes) : List α → Result Bytes
  | [] => .ok []
  | x :: xs => do
    let head ← encode x
    let tail ← encodeEach encode xs
    .ok (head ++ tail)

/-- The opcode of a tuple, with its length where the opcode does not say it. -/
def tupleHead (items : List Value) : Bytes :=
  match items with
  | [] => [Opcode.pyEmptyTuple.toByte]
  | [_] => [Opcode.pyOneTuple.toByte]
  | [_, _] => [Opcode.pyTwoTuple.toByte]
  | _ => Opcode.pyTuple.toByte :: putSizeEx (UInt32.ofNat items.length)

/-- `EncodeTuple`. -/
def encodeTuple (items : List Value) : Result Bytes :=
  if items.length > MAX_CONTAINER_COUNT then
    raise (.limit "tuple element count exceeds the limit")
  else do
    let body ← encodeEach encodeNext items
    .ok (tupleHead items ++ body)

/-- The opcode of a list; there is none for two elements. -/
def listHead (items : List Value) : Bytes :=
  match items with
  | [] => [Opcode.pyEmptyList.toByte]
  | [_] => [Opcode.pyOneList.toByte]
  | _ => Opcode.pyList.toByte :: putSizeEx (UInt32.ofNat items.length)

/-- `EncodeList`. -/
def encodeList (items : List Value) : Result Bytes :=
  if items.length > MAX_CONTAINER_COUNT then
    raise (.limit "list element count exceeds the limit")
  else do
    let body ← encodeEach encodeNext items
    .ok (listHead items ++ body)

/-- A dict entry travels value first. -/
def encodeValueKey (entry : DictEntry Value) : Result Bytes := do
  let value ← encodeNext entry.value
  let key ← encodeNext entry.key
  .ok (value ++ key)

/-- An ObjectEx entry travels key first. -/
def encodeKeyValue (entry : DictEntry Value) : Result Bytes := do
  let key ← encodeNext entry.key
  let value ← encodeNext entry.value
  .ok (key ++ value)

/-- `EncodeDict`. -/
def encodeDict (entries : List (DictEntry Value)) : Result Bytes :=
  if entries.length > MAX_CONTAINER_COUNT then
    raise (.limit "dict entry count exceeds the limit")
  else do
    let body ← encodeEach (encodeValueKey encodeNext) entries
    .ok (Opcode.pyDict.toByte :: (putSizeEx (UInt32.ofNat entries.length) ++ body))

/-- `EncodeObject`: the type goes as a string. -/
def encodeObject (type : Bytes) (args : Value) : Result Bytes := do
  let body ← encodeNext args
  .ok (Opcode.pyObject.toByte :: (encodeString type ++ body))

/-- `EncodeObjectEx`: two sequences, each up to its terminator. -/
def encodeObjectEx (isType2 : Bool) (data : ObjectExData Value) :
    Result Bytes := do
  let header ← encodeNext data.header
  let list ← encodeEach encodeNext data.list
  let dict ← encodeEach (encodeKeyValue encodeNext) data.dict
  let opcode := if isType2 then Opcode.pyObjectEx2 else Opcode.pyObjectEx1
  .ok (opcode.toByte :: (header ++ list ++ [Opcode.packedTerminator.toByte] ++
    dict ++ [Opcode.packedTerminator.toByte]))

/-- The value of a size-0 column is marshalled after the packed part. -/
def encodeVariable (values : List Value) (entry : Nat × Nat) : Result Bytes :=
  if entry.1 = 0 then do
    let value ← index values entry.2
    encodeNext value
  else .ok []

/-- `EncodePackedRow`: the descriptor, the packed part, then the columns outside it. -/
def encodePackedRow (row : PackedRowData Value) : Result Bytes :=
  if row.columns.length > kMaxPackedRowColumns then
    raise (.limit "packed row column count exceeds the limit")
  else if row.values.length ≠ row.columns.length then
    raise (.format "packed row value count mismatch")
  else do
    let header ← encodeNext (buildRowHeader row.columns)
    let rle ← packFixed row
    let unpacked ← encodeEach (encodeVariable encodeNext row.values)
      (sizeOrder row.columns)
    .ok (Opcode.pyPackedRow.toByte :: (header ++ putSized rle ++ unpacked))

/-- The `switch` of `EncodeValue`. -/
def encodeKind : Value → Result Bytes
  | .none => .ok [Opcode.pyNone.toByte]
  | .bool value =>
    .ok [if value then Opcode.pyTrue.toByte else Opcode.pyFalse.toByte]
  | .int value => .ok (encodeInteger value)
  | .real value => .ok (encodeReal value)
  | .string value => .ok (encodeString value)
  | .wString value => .ok (encodeWString value)
  | .token value => .ok (encodeToken value)
  | .buffer value => .ok (encodeBuffer value)
  | .tuple items => encodeTuple encodeNext items
  | .list items => encodeList encodeNext items
  | .dict entries => encodeDict encodeNext entries
  | .object type args => encodeObject encodeNext type args
  | .objectEx isType2 data => encodeObjectEx encodeNext isType2 data
  | .subStruct value => do
    let body ← encodeNext value
    .ok (Opcode.pySubStruct.toByte :: body)
  | .subStream data => .ok (encodeSubStream data)
  | .checksumedStream checksum value => do
    let body ← encodeNext value
    .ok (Opcode.pyChecksumedStream.toByte :: (putU32 checksum ++ body))
  | .packedRow data => encodePackedRow encodeNext data
  | .cPicked data => .ok (encodeCPicked data)

end Composite

/-! ## The encoder -/

/-- `EncodeValue` with `levels` depths left below the limit. -/
def encodeLevels : Nat → Value → Result Bytes
  | 0, _ => raise (.depth "marshal nesting exceeds the depth limit")
  | levels + 1, value => encodeKind (encodeLevels levels) value

/-- `EncodeValue`. -/
def encodeValue (value : Value) (depth : Nat) : Result Bytes :=
  encodeLevels (MAX_MARSHAL_DEPTH + 1 - depth) value

/-- The depth check and the `switch`, as the source has them. -/
theorem encodeValue_eq (value : Value) (depth : Nat) :
    encodeValue value depth =
      if depth > MAX_MARSHAL_DEPTH then
        raise (.depth "marshal nesting exceeds the depth limit")
      else encodeKind (fun v => encodeValue v (depth + 1)) value := by
  unfold encodeValue
  split
  · rename_i h
    rw [show MAX_MARSHAL_DEPTH + 1 - depth = 0 by omega, encodeLevels]
  · rename_i h
    rw [show MAX_MARSHAL_DEPTH + 1 - depth =
      (MAX_MARSHAL_DEPTH + 1 - (depth + 1)) + 1 by omega, encodeLevels]

/-- `Encode`. -/
def encode (value : Value) : Result Bytes := do
  let body ← encodeValue value 0
  .ok (MARSHAL_HEADER_BYTE :: (putU32 0 ++ body))

end Ithax.Marshal
