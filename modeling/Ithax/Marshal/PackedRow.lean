import Ithax.Lib.Ieee
import Ithax.Marshal.Value
import Mathlib.Data.List.Sort

/-!
# The packed part of a row

The pieces of `EncodePackedRow` and `DecodePackedRow` that do not recurse into
values: the column order, the null and boolean bits, the little-endian scalars
and the zero run-length code around them.

Buffer accesses the source does not check go through `index`, `slice` and
`storeSlot`, which fault outside their buffer.
-/

namespace Ithax.Marshal

open Ithax.Lib

/-! ## Column order and sizes -/

/-- `size_order`: the columns as (bits, index), widest first; `stable_sort`
keeps columns of one width in column order. -/
def sizeOrder (columns : List PackedColumn) : List (Nat × Nat) :=
  (columns.zipIdx.map fun (column, i) => (dbTypeSizeBits column.type, i)).insertionSort
    fun left right => left.1 ≥ right.1

def boolCount (columns : List PackedColumn) : Nat :=
  columns.countP fun column => column.type == .bool

/-- Bytes of the bit section: a bit per boolean, then a null bit per column. -/
def bitBytes (columns : List PackedColumn) : Nat :=
  (boolCount columns + columns.length + 7) / 8

def fixedBits (columns : List PackedColumn) : Nat :=
  (columns.map fun column =>
    if column.type = .bool then 0 else dbTypeSizeBits column.type).sum

/-- Unpacked size of a row's fixed part, as `ZeroDecompress` expects it. -/
def expectedBytes (columns : List PackedColumn) : Nat :=
  fixedBits columns / 8 + bitBytes columns

/-! ## Bits and slots -/

def bitMask (n : Nat) : UInt8 := UInt8.ofNat (2 ^ (n % 8))

/-- `bits[n / 8] |= 1 << (n % 8)`. -/
def setBit (bits : Bytes) (n : Nat) : Result Bytes := do
  let b ← index bits (n / 8)
  .ok (bits.set (n / 8) (b ||| bitMask n))

def setBitIf (condition : Bool) (bits : Bytes) (n : Nat) : Result Bytes :=
  if condition then setBit bits n else .ok bits

/-- `(data[base + n / 8] & (1 << (n % 8))) != 0`. -/
def testBit (data : Bytes) (base n : Nat) : Result Bool := do
  let b ← index data (base + n / 8)
  .ok (b &&& bitMask n != 0)

/-- `values[i] = value` on a vector of pointers. -/
def storeSlot (values : List (Option Value)) (i : Nat) (value : Value) :
    Result (List (Option Value)) :=
  if i < values.length then .ok (values.set i (some value))
  else .error (.fault .outOfBounds)

/-- The vector without its pointers; a slot nobody assigned is a null pointer. -/
def allSet : List (Option Value) → Result (List Value)
  | [] => .ok []
  | some v :: rest => do
    let vs ← allSet rest
    .ok (v :: vs)
  | none :: _ => .error (.fault .nullPointer)

/-! ## Scalars -/

/-- `field.IsNone() ? 0 : field.IntValue()`. -/
def cellInt (field : Value) : Result Int64 :=
  if field.isNone then .ok 0 else field.intValue

/-- `field.IsNone() ? 0.0 : field.RealValue()`. -/
def cellReal (field : Value) : Result UInt64 :=
  if field.isNone then .ok 0 else field.realValue

/-- `!is_null && field.BoolValue()`. -/
def cellBool (field : Value) : Result Bool :=
  if field.isNone then .ok false else field.boolValue

/-- The integer is read for every type, so a real cell that holds a real
already fails there. -/
def appendPackedScalar (type : DbType) (field : Value) : Result Bytes := do
  let intValue ← cellInt field
  match type with
  | .cy | .i8 | .ui8 | .fileTime => .ok (leBytes 8 intValue.toUInt64.toNat)
  | .i4 => .ok (leBytes 4 intValue.toInt32.toUInt32.toNat)
  | .ui4 => .ok (leBytes 4 intValue.toUInt64.toUInt32.toNat)
  | .r4 => do
    let realValue ← cellReal field
    .ok (leBytes 4 (narrowReal realValue).toNat)
  | .r8 => do
    let realValue ← cellReal field
    .ok (leBytes 8 realValue.toNat)
  | .i2 => .ok (leBytes 2 intValue.toInt16.toUInt16.toNat)
  | .ui2 => .ok (leBytes 2 intValue.toUInt64.toUInt16.toNat)
  | .i1 => .ok [intValue.toInt8.toUInt8]
  | .ui1 => .ok [intValue.toUInt64.toUInt8]
  | .bool | .empty | .error | .bytes | .str | .wStr | .other _ _ => .ok []

def readPackedScalar (data : Bytes) (offset : Nat) (type : DbType) :
    Result Value :=
  match type with
  | .cy | .i8 | .ui8 | .fileTime => do
    let bs ← slice data offset 8
    .ok (.int (UInt64.ofNat (leNat bs)).toInt64)
  | .i4 => do
    let bs ← slice data offset 4
    .ok (.int (UInt32.ofNat (leNat bs)).toInt32.toInt64)
  | .ui4 => do
    let bs ← slice data offset 4
    .ok (.int (Int64.ofNat (leNat bs)))
  | .r4 => do
    let bs ← slice data offset 4
    .ok (.real (widenReal (UInt32.ofNat (leNat bs))))
  | .r8 => do
    let bs ← slice data offset 8
    .ok (.real (UInt64.ofNat (leNat bs)))
  | .i2 => do
    let bs ← slice data offset 2
    .ok (.int (UInt16.ofNat (leNat bs)).toInt16.toInt64)
  | .ui2 => do
    let bs ← slice data offset 2
    .ok (.int (Int64.ofNat (leNat bs)))
  | .i1 => do
    let b ← index data offset
    .ok (.int b.toInt8.toInt64)
  | .ui1 => do
    let b ← index data offset
    .ok (.int (Int64.ofNat b.toNat))
  | .bool | .empty | .error | .bytes | .str | .wStr =>
    raise (.format "packed row scalar has no fixed size")
  | .other _ _ => raise (.format "packed row scalar has an unknown type")

/-! ## Zero run-length code

A control byte holds two nibbles, the low one first. A nibble below 8 stands
for `8 - nibble` literal bytes, any other for `nibble - 7` zeros. -/

/-- Length of the leading run of zero, or of non-zero, bytes; at most 8. -/
def runLength (rest : Bytes) : Nat :=
  ((rest.take 8).takeWhile fun b => (b == 0) == (rest.head? == some 0)).length

/-- One nibble of `ZeroCompress`: its code, its literals and what is left. -/
def compressRun (rest : Bytes) : Nat × Bytes × Bytes :=
  let run := runLength rest
  if rest.head? = some 0 then (run + 7, [], rest.drop run)
  else (8 - run, rest.take run, rest.drop run)

def zeroCompressLoop : Nat → Bytes → Bytes
  | 0, _ => []
  | _ + 1, [] => []
  | fuel + 1, b :: rest =>
    let (low, literals₀, rest₀) := compressRun (b :: rest)
    if rest₀.isEmpty then
      -- the input ended on the low nibble; the high one stays zero
      UInt8.ofNat low :: literals₀
    else
      let (high, literals₁, rest₁) := compressRun rest₀
      UInt8.ofNat (low ||| high <<< 4) ::
        (literals₀ ++ literals₁ ++ zeroCompressLoop fuel rest₁)

def zeroCompress (packed bitData : Bytes) : Bytes :=
  let input := packed ++ bitData
  zeroCompressLoop input.length input

/-- One nibble of `ZeroDecompress`, on the read index and the output. -/
def decompressNibble (rle : Bytes) (expected : Nat) (control : UInt8)
    (nibble : Nat) (state : Nat × Bytes) : Result (Nat × Bytes) :=
  let (i, out) := state
  if out.length ≥ expected then .ok (i, out)
  else
    let encoded := (control.toNat >>> (nibble * 4)) &&& 0x0F
    if encoded < 8 then
      let run := 8 - encoded
      if i + run > rle.length then
        raise (.truncated "packed row RLE is truncated")
      else do
        let literals ← slice rle i run
        .ok (i + run, out ++ literals)
    else
      .ok (i, out ++ List.replicate (encoded - 7) 0)

def zeroDecompressLoop (rle : Bytes) (expected : Nat) :
    Nat → Nat × Bytes → Result (Nat × Bytes)
  | 0, _ => .error (.fault .outOfFuel)
  | fuel + 1, (i, out) =>
    if i < rle.length ∧ out.length < expected then do
      let control ← index rle i
      let state ← decompressNibble rle expected control 0 (i + 1, out)
      let state ← decompressNibble rle expected control 1 state
      zeroDecompressLoop rle expected fuel state
    else .ok (i, out)

def zeroDecompress (rle : Bytes) (columns : List PackedColumn) : Result Bytes := do
  let expected := expectedBytes columns
  let (_, out) ← zeroDecompressLoop rle expected (rle.length + 1) (0, [])
  if out.length < expected then
    raise (.truncated "packed row data is truncated")
  else .ok out

/-! ## The two column loops -/

/-- Locals of the packing loop. -/
structure RowBuffer where
  packed : Bytes
  bitData : Bytes
  boolOffset : Nat

/-- The loop body of `EncodePackedRow` for one entry of `size_order`. -/
def packColumn (row : PackedRowData Value) (buffer : RowBuffer)
    (entry : Nat × Nat) : Result RowBuffer := do
  let (size, i) := entry
  let column ← index row.columns i
  if size = 0 then .ok buffer
  else do
    let field ← index row.values i
    let bitData ← setBitIf field.isNone buffer.bitData (i + boolCount row.columns)
    if column.type = .bool then do
      let bit ← cellBool field
      let bitData ← setBitIf bit bitData buffer.boolOffset
      .ok ⟨buffer.packed, bitData, buffer.boolOffset + 1⟩
    else do
      let scalar ← appendPackedScalar column.type field
      .ok ⟨buffer.packed ++ scalar, bitData, buffer.boolOffset⟩

/-- The compressed fixed part of a row. -/
def packFixed (row : PackedRowData Value) : Result Bytes := do
  let buffer ← (sizeOrder row.columns).foldlM (packColumn row)
    ⟨[], List.replicate (bitBytes row.columns) 0, 0⟩
  .ok (zeroCompress buffer.packed buffer.bitData)

/-- Locals of the unpacking loop. -/
structure RowCursor where
  offset : Nat
  boolOffset : Nat
  values : List (Option Value)

/-- A boolean cell: `None`, or the next boolean bit. -/
def readBoolCell (unpacked : Bytes) (dataBytes boolOffset : Nat) (isNull : Bool) :
    Result Value :=
  if isNull then .ok .none
  else do
    let bit ← testBit unpacked dataBytes boolOffset
    .ok (.bool bit)

/-- A scalar cell: `None`, or the scalar at the offset. -/
def readScalarCell (unpacked : Bytes) (offset : Nat) (type : DbType)
    (isNull : Bool) : Result Value :=
  if isNull then .ok .none else readPackedScalar unpacked offset type

/-- The loop body of `DecodePackedRow` for one entry of `size_order`. -/
def unpackColumn (columns : List PackedColumn) (unpacked : Bytes)
    (cursor : RowCursor) (entry : Nat × Nat) : Result RowCursor := do
  let (size, i) := entry
  let dataBytes := unpacked.length - bitBytes columns
  let column ← index columns i
  if size = 0 then .ok cursor
  else do
    let isNull ← testBit unpacked dataBytes (i + boolCount columns)
    if column.type = .bool then do
      let value ← readBoolCell unpacked dataBytes cursor.boolOffset isNull
      let values ← storeSlot cursor.values i value
      .ok ⟨cursor.offset, cursor.boolOffset + 1, values⟩
    else do
      let value ← readScalarCell unpacked cursor.offset column.type isNull
      let values ← storeSlot cursor.values i value
      .ok ⟨cursor.offset + size / 8, cursor.boolOffset, values⟩

/-- The fixed cells of a row; the others are still unset. -/
def unpackFixed (columns : List PackedColumn) (rle : Bytes) :
    Result (List (Option Value)) := do
  let unpacked ← zeroDecompress rle columns
  if unpacked.length < bitBytes columns then
    raise (.truncated "packed row bit data is truncated")
  else do
    let cursor ← (sizeOrder columns).foldlM (unpackColumn columns unpacked)
      ⟨0, 0, List.replicate columns.length none⟩
    .ok cursor.values

end Ithax.Marshal
