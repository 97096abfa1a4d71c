import Ithax.Lib.Reader

/-!
# Marshal values

The data model of `network/marshal/marshal.h`: limits, opcodes, column types,
the five error classes and the value language itself.

Strings are byte strings, as `std::string` is. A `double` is its bit pattern:
the codec only ever copies the bits and compares against zero. `ValuePtr`
is a shared pointer to an immutable `Value`, so a value is a tree here; a
stored element that is referenced twice is the same tree twice.
-/

namespace Ithax.Marshal

open Ithax.Lib

/-! ## Limits -/

/-- The first byte of a stream. -/
def MARSHAL_HEADER_BYTE : UInt8 := 0x7E
/-- The bits of the opcode in its byte. -/
def OPCODE_MASK : UInt8 := 0x3F
/-- The flag of an element that is saved. -/
def SAVE_MASK : UInt8 := 0x40
/-- The flag that no stream may set. -/
def UNKNOWN_MASK : UInt8 := 0x80
/-- How deep values may be nested. -/
def MAX_MARSHAL_DEPTH : Nat := 64
/-- The largest number of elements of a container. -/
def MAX_CONTAINER_COUNT : Nat := 65536
/-- The largest length of a string. -/
def MAX_STRING_BYTES : Nat := 1024 * 1024
/-- The largest length of a stream. -/
def MAX_STREAM_BYTES : Nat := 1024 * 1024
/-- The largest size of the save table. -/
def MAX_SAVED_OBJECTS : Nat := 65536
/-- The size byte after which four more follow. -/
def kSizeExEscape : Nat := 0xFF
/-- The largest number of columns of a row. -/
def kMaxPackedRowColumns : Nat := 1024
/-- The largest size of a row's packed part. -/
def kMaxPackedRowBytes : Nat := 1024 * 1024

/-! ## Errors -/

/-- The subclasses of `MarshalError`, each with its message. -/
inductive MarshalError where
  | truncated (message : String)
  | depth (message : String)
  | limit (message : String)
  | format (message : String)
  | stringTable (message : String)
  deriving DecidableEq, Repr

/-- `MarshalTruncatedError`. -/
def MarshalError.IsTruncated : MarshalError → Prop
  | .truncated _ => True
  | _ => False

/-- A codec computation: a result, a marshal error or a fault. -/
abbrev Result := Checked MarshalError

/-- `throw`. -/
def raise {α : Type} (e : MarshalError) : Result α := .error (.thrown e)

/-! ## Opcodes -/

/-- `enum class Opcode`. -/
inductive Opcode where
  | pyNone | pyToken | pyLongLong | pyLong | pySignedShort | pyByte | pyMinusOne
  | pyZeroInteger | pyOneInteger | pyReal | pyZeroReal | pyBuffer | pyEmptyString
  | pyCharString | pyShortString | pyStringTableItem | pyWStringUCS2
  | pyLongString | pyTuple | pyList | pyDict | pyObject | pySubStruct
  | pySavedStreamElement | pyChecksumedStream | pyTrue | pyFalse | cPicked
  | pyObjectEx1 | pyObjectEx2 | pyEmptyTuple | pyOneTuple | pyEmptyList
  | pyOneList | pyEmptyWString | pyWStringUCS2Char | pyPackedRow | pySubStream
  | pyTwoTuple | packedTerminator | pyWStringUTF8 | pyVarInteger
  deriving DecidableEq, Repr

namespace Opcode

/-- The enumerators' values. -/
def toByte : Opcode → UInt8
  | pyNone => 0x01
  | pyToken => 0x02
  | pyLongLong => 0x03
  | pyLong => 0x04
  | pySignedShort => 0x05
  | pyByte => 0x06
  | pyMinusOne => 0x07
  | pyZeroInteger => 0x08
  | pyOneInteger => 0x09
  | pyReal => 0x0A
  | pyZeroReal => 0x0B
  | pyBuffer => 0x0D
  | pyEmptyString => 0x0E
  | pyCharString => 0x0F
  | pyShortString => 0x10
  | pyStringTableItem => 0x11
  | pyWStringUCS2 => 0x12
  | pyLongString => 0x13
  | pyTuple => 0x14
  | pyList => 0x15
  | pyDict => 0x16
  | pyObject => 0x17
  | pySubStruct => 0x19
  | pySavedStreamElement => 0x1B
  | pyChecksumedStream => 0x1C
  | pyTrue => 0x1F
  | pyFalse => 0x20
  | cPicked => 0x21
  | pyObjectEx1 => 0x22
  | pyObjectEx2 => 0x23
  | pyEmptyTuple => 0x24
  | pyOneTuple => 0x25
  | pyEmptyList => 0x26
  | pyOneList => 0x27
  | pyEmptyWString => 0x28
  | pyWStringUCS2Char => 0x29
  | pyPackedRow => 0x2A
  | pySubStream => 0x2B
  | pyTwoTuple => 0x2C
  | packedTerminator => 0x2D
  | pyWStringUTF8 => 0x2E
  | pyVarInteger => 0x2F

/-- `static_cast<Opcode>`, with `none` for the bytes that name no opcode. -/
def ofByte? (b : UInt8) : Option Opcode :=
  [pyNone, pyToken, pyLongLong, pyLong, pySignedShort, pyByte, pyMinusOne,
    pyZeroInteger, pyOneInteger, pyReal, pyZeroReal, pyBuffer, pyEmptyString,
    pyCharString, pyShortString, pyStringTableItem, pyWStringUCS2, pyLongString,
    pyTuple, pyList, pyDict, pyObject, pySubStruct, pySavedStreamElement,
    pyChecksumedStream, pyTrue, pyFalse, cPicked, pyObjectEx1, pyObjectEx2,
    pyEmptyTuple, pyOneTuple, pyEmptyList, pyOneList, pyEmptyWString,
    pyWStringUCS2Char, pyPackedRow, pySubStream, pyTwoTuple, packedTerminator,
    pyWStringUTF8, pyVarInteger].find? fun op => op.toByte == b

/-- The opcode of an opcode's byte. -/
@[simp] theorem ofByte?_toByte (op : Opcode) : ofByte? op.toByte = some op := by
  cases op <;> decide

/-- An opcode byte carries neither flag. -/
theorem toByte_flags (op : Opcode) :
    op.toByte &&& SAVE_MASK = 0 ∧ op.toByte &&& UNKNOWN_MASK = 0 ∧
      op.toByte &&& OPCODE_MASK = op.toByte := by
  cases op <;> decide

end Opcode

/-! ## Column types -/

/-- The codes `DbType` has an enumerator for. -/
def namedDbTypes : List UInt8 :=
  [0x00, 0x02, 0x03, 0x04, 0x05, 0x06, 0x0A, 0x0B, 0x10, 0x11, 0x12, 0x13, 0x14,
    0x15, 0x40, 0x80, 0x81, 0x82]

/-- `enum class DbType : std::uint8_t`. A byte without an enumerator is still a
value of the enumeration, and the row decoder makes such values. -/
inductive DbType where
  | empty | i2 | i4 | r4 | r8 | cy | error | bool | i1 | ui1 | ui2 | ui4 | i8
  | ui8 | fileTime | bytes | str | wStr
  | other (raw : UInt8) (unnamed : raw ∉ namedDbTypes)
  deriving DecidableEq, Repr

namespace DbType

/-- The enumerators' values, or the byte that has none. -/
def toByte : DbType → UInt8
  | empty => 0x00
  | i2 => 0x02
  | i4 => 0x03
  | r4 => 0x04
  | r8 => 0x05
  | cy => 0x06
  | error => 0x0A
  | bool => 0x0B
  | i1 => 0x10
  | ui1 => 0x11
  | ui2 => 0x12
  | ui4 => 0x13
  | i8 => 0x14
  | ui8 => 0x15
  | fileTime => 0x40
  | bytes => 0x80
  | str => 0x81
  | wStr => 0x82
  | other raw _ => raw

/-- `static_cast<DbType>` of a byte. -/
def ofByte (b : UInt8) : DbType :=
  if h : b ∈ namedDbTypes then
    ([empty, i2, i4, r4, r8, cy, error, bool, i1, ui1, ui2, ui4, i8, ui8,
      fileTime, bytes, str, wStr].find? fun t => t.toByte == b).getD empty
  else other b h

/-- Every column type is that of its byte, named or not. -/
theorem ofByte_toByte (t : DbType) : ofByte t.toByte = t := by
  cases t with
  | other raw unnamed => exact dif_neg unnamed
  | _ => decide

end DbType

/-- Width of a column in the packed part of a row, in bits. -/
def dbTypeSizeBits : DbType → Nat
  | .cy | .i8 | .ui8 | .fileTime | .r8 => 64
  | .i4 | .ui4 | .r4 => 32
  | .i2 | .ui2 => 16
  | .i1 | .ui1 => 8
  | .bool => 1
  | .empty | .error | .bytes | .str | .wStr => 0
  | .other _ _ => 0

/-! ## Values -/

/-- `DictEntry`. -/
structure DictEntry (α : Type) where
  key : α
  value : α
  deriving DecidableEq, Repr

/-- `ObjectExData`: the header, and the elements of its two sequences. -/
structure ObjectExData (α : Type) where
  header : α
  list : List α
  dict : List (DictEntry α)
  deriving DecidableEq, Repr

/-- `PackedColumn`. -/
structure PackedColumn where
  name : Bytes
  type : DbType
  deriving DecidableEq, Repr

/-- `PackedRowData`: a value for each column. -/
structure PackedRowData (α : Type) where
  columns : List PackedColumn
  values : List α
  deriving DecidableEq, Repr

/-- `Value`, by its kinds. -/
inductive Value where
  | none
  | bool (value : Bool)
  | int (value : Int64)
  | real (bits : UInt64)
  | string (value : Bytes)
  | wString (value : Bytes)
  | token (value : Bytes)
  | buffer (value : Bytes)
  | tuple (items : List Value)
  | list (items : List Value)
  | dict (entries : List (DictEntry Value))
  | object (type : Bytes) (args : Value)
  | objectEx (isType2 : Bool) (data : ObjectExData Value)
  | subStruct (value : Value)
  | subStream (data : Bytes)
  | checksumedStream (checksum : UInt32) (value : Value)
  | packedRow (data : PackedRowData Value)
  | cPicked (data : Bytes)
  deriving Repr

namespace Value

/-- `IsNone`. -/
def isNone : Value → Bool
  | none => true
  | _ => false

/-- `IsTuple`. -/
def isTuple : Value → Bool
  | tuple _ => true
  | _ => false

/-- `IsDict`. -/
def isDict : Value → Bool
  | dict _ => true
  | _ => false

/-- `BoolValue`. -/
def boolValue : Value → Result Bool
  | bool b => .ok b
  | _ => raise (.format "value is not a bool")

/-- `IntValue`. -/
def intValue : Value → Result Int64
  | int i => .ok i
  | _ => raise (.format "value is not an int")

/-- `RealValue`. -/
def realValue : Value → Result UInt64
  | real bits => .ok bits
  | _ => raise (.format "value is not a real")

end Value

end Ithax.Marshal
