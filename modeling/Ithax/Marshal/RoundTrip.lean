import Ithax.Lib.ReaderRules
import Ithax.Marshal.Decode
import Ithax.Marshal.Encode
import Ithax.Marshal.RowRoundTrip

/-!
# Marshal round trip

Whatever `Encode` writes, `Decode` reads back: `Reads` follows the encoder kind
by kind, for an arbitrary pair of an encoder and a decoder of the next depth,
and induction on the levels that are left ties the two recursions together.

Two things do not come back (`Value.stored`). The sign of a zero: every zero real
is written as `PyZeroReal` (`Value.positiveZero`). An integer in a fixed-size cell
that its column has no room for.

* `reads_encodeLevels` — the recursive encoder and decoder;
* `decode_stored`      — whole streams, for everything that `Encode` accepts;
* `decode_encode`      — whole streams, for rows whose integers are in range.
-/

namespace Ithax.Marshal

open Ithax.Lib Ithax.Lib.Reader

-- ---------------------------------------------------------------------------
-- Values up to the sign of zero
-- ---------------------------------------------------------------------------

mutual

/-- The value with `f` applied to every real in it. -/
def Value.mapReal (f : UInt64 → UInt64) : Value → Value
  | .none => .none
  | .bool value => .bool value
  | .int value => .int value
  | .real bits => .real (f bits)
  | .string value => .string value
  | .wString value => .wString value
  | .token value => .token value
  | .buffer value => .buffer value
  | .tuple items => .tuple (mapReals f items)
  | .list items => .list (mapReals f items)
  | .dict entries => .dict (mapRealEntries f entries)
  | .object type args => .object type (args.mapReal f)
  | .objectEx isType2 ⟨header, list, dict⟩ =>
    .objectEx isType2 ⟨header.mapReal f, mapReals f list, mapRealEntries f dict⟩
  | .subStruct value => .subStruct (value.mapReal f)
  | .subStream data => .subStream data
  | .checksumedStream checksum value => .checksumedStream checksum (value.mapReal f)
  | .packedRow ⟨columns, values⟩ => .packedRow ⟨columns, mapReals f values⟩
  | .cPicked data => .cPicked data

/-- The same for a list. -/
def mapReals (f : UInt64 → UInt64) : List Value → List Value
  | [] => []
  | v :: vs => v.mapReal f :: mapReals f vs

/-- The same for entries. -/
def mapRealEntries (f : UInt64 → UInt64) :
    List (DictEntry Value) → List (DictEntry Value)
  | [] => []
  | ⟨key, value⟩ :: rest => ⟨key.mapReal f, value.mapReal f⟩ :: mapRealEntries f rest

end

/-- The list is mapped. -/
theorem mapReals_eq (f : UInt64 → UInt64) (vs : List Value) :
    mapReals f vs = vs.map (Value.mapReal f) := by
  induction vs with
  | nil => rfl
  | cons v vs ih => rw [mapReals, ih, List.map_cons]

/-- The entries are mapped, keys and values. -/
theorem mapRealEntries_eq (f : UInt64 → UInt64) (entries : List (DictEntry Value)) :
    mapRealEntries f entries =
      entries.map fun entry => ⟨entry.key.mapReal f, entry.value.mapReal f⟩ := by
  induction entries with
  | nil => rfl
  | cons entry entries ih => rw [mapRealEntries, ih, List.map_cons]

/-- The value with every `-0.0` in it replaced by `+0.0`. -/
def Value.positiveZero (v : Value) : Value :=
  v.mapReal fun bits => if isZeroReal bits then 0 else bits

/-- The entry, key and value. -/
def DictEntry.positiveZero (entry : DictEntry Value) : DictEntry Value :=
  ⟨entry.key.positiveZero, entry.value.positiveZero⟩

/-- A tuple, element by element. -/
theorem positiveZero_tuple (items : List Value) :
    Value.positiveZero (.tuple items) = .tuple (items.map Value.positiveZero) := by
  rw [Value.positiveZero, Value.mapReal, mapReals_eq]
  rfl

/-- A list, element by element. -/
theorem positiveZero_list (items : List Value) :
    Value.positiveZero (.list items) = .list (items.map Value.positiveZero) := by
  rw [Value.positiveZero, Value.mapReal, mapReals_eq]
  rfl

/-- A dict, entry by entry. -/
theorem positiveZero_dict (entries : List (DictEntry Value)) :
    Value.positiveZero (.dict entries) =
      .dict (entries.map DictEntry.positiveZero) := by
  rw [Value.positiveZero, Value.mapReal, mapRealEntries_eq]
  rfl

/-- An `ObjectEx`, part by part. -/
theorem positiveZero_objectEx (isType2 : Bool) (data : ObjectExData Value) :
    Value.positiveZero (.objectEx isType2 data) =
      .objectEx isType2 ⟨data.header.positiveZero, data.list.map Value.positiveZero,
        data.dict.map DictEntry.positiveZero⟩ := by
  rw [Value.positiveZero, Value.mapReal, mapReals_eq, mapRealEntries_eq]
  rfl

/-- A row, cell by cell. -/
theorem positiveZero_packedRow (row : PackedRowData Value) :
    Value.positiveZero (.packedRow row) =
      .packedRow ⟨row.columns, row.values.map Value.positiveZero⟩ := by
  rw [Value.positiveZero, Value.mapReal, mapReals_eq]
  rfl

-- ---------------------------------------------------------------------------
-- Values whose rows survive packing
-- ---------------------------------------------------------------------------

/-- The values directly inside a value. -/
def Value.children : Value → List Value
  | .tuple items | .list items => items
  | .dict entries => entries.flatMap fun entry => [entry.key, entry.value]
  | .object _ args => [args]
  | .objectEx _ data =>
    data.header :: (data.list ++ data.dict.flatMap fun entry => [entry.key, entry.value])
  | .subStruct value | .checksumedStream _ value => [value]
  | .packedRow data => data.values
  | _ => []

/-- `P` holds of the value and of everything inside it. -/
inductive Value.Everywhere (P : Value → Prop) : Value → Prop where
  | node {v : Value} (here : P v) (inside : ∀ child ∈ v.children, Everywhere P child) :
      Everywhere P v

section Everywhere

variable {P Q : Value → Prop} {v : Value}

/-- It holds here and in every child. -/
theorem everywhere_iff : v.Everywhere P ↔ P v ∧ ∀ child ∈ v.children, child.Everywhere P :=
  ⟨fun | .node here inside => ⟨here, inside⟩, fun h => .node h.1 h.2⟩

/-- A value without children. -/
theorem Value.Everywhere.leaf (here : P v) (h : v.children = []) : v.Everywhere P := by
  refine .node here fun child hChild => ?_
  rw [h] at hChild
  cases hChild

/-- A weaker property. -/
theorem Value.Everywhere.mono (h : v.Everywhere P) (hPQ : ∀ w, P w → Q w) :
    v.Everywhere Q := by
  induction h with
  | node here _ ih => exact .node (hPQ _ here) ih

/-- Two properties. -/
theorem Value.Everywhere.and (h : v.Everywhere P) (h' : v.Everywhere Q) :
    v.Everywhere fun w => P w ∧ Q w := by
  induction h with
  | node here _ ih =>
    obtain ⟨here', inside'⟩ := everywhere_iff.mp h'
    exact .node ⟨here, here'⟩ fun child hChild => ih child hChild (inside' child hChild)

end Everywhere

/-- Fixed-size cells hold what their columns can. -/
def RowCells : Value → Prop
  | .packedRow row => FixedCells row
  | _ => True

/-- Every packed row in the value, at any nesting, has cells that survive. -/
def Survives (v : Value) : Prop := v.Everywhere RowCells

/-- A value without children. -/
theorem survives_leaf {v : Value} (hRow : RowCells v) (h : v.children = []) :
    Survives v := .leaf hRow h

-- ---------------------------------------------------------------------------
-- Values as they come back
-- ---------------------------------------------------------------------------

mutual

/-- What is left of a value after its trip: every zero is positive, and an integer in a
fixed-size cell is cut to its column. -/
def Value.stored : Value → Value
  | .none => .none
  | .bool value => .bool value
  | .int value => .int value
  | .real bits => .real (if isZeroReal bits then 0 else bits)
  | .string value => .string value
  | .wString value => .wString value
  | .token value => .token value
  | .buffer value => .buffer value
  | .tuple items => .tuple (storedAll items)
  | .list items => .list (storedAll items)
  | .dict entries => .dict (storedEntries entries)
  | .object type args => .object type args.stored
  | .objectEx isType2 ⟨header, list, dict⟩ =>
    .objectEx isType2 ⟨header.stored, storedAll list, storedEntries dict⟩
  | .subStruct value => .subStruct value.stored
  | .subStream data => .subStream data
  | .checksumedStream checksum value => .checksumedStream checksum value.stored
  | .packedRow ⟨columns, values⟩ => .packedRow ⟨columns, storedCells columns values⟩
  | .cPicked data => .cPicked data

/-- The same for a list. -/
def storedAll : List Value → List Value
  | [] => []
  | v :: vs => v.stored :: storedAll vs

/-- The same for entries. -/
def storedEntries : List (DictEntry Value) → List (DictEntry Value)
  | [] => []
  | ⟨key, value⟩ :: rest => ⟨key.stored, value.stored⟩ :: storedEntries rest

/-- The cells of a row; only those of size-0 columns are values of their own. -/
def storedCells : List PackedColumn → List Value → List Value
  | _, [] => []
  | [], v :: vs => v.stored :: storedCells [] vs
  | column :: columns, v :: vs =>
    (if dbTypeSizeBits column.type = 0 then v.stored else storedCell column.type v) ::
      storedCells columns vs

end

/-- The entry, key and value. -/
def DictEntry.stored (entry : DictEntry Value) : DictEntry Value :=
  ⟨entry.key.stored, entry.value.stored⟩

/-- The list is mapped. -/
theorem storedAll_eq (vs : List Value) : storedAll vs = vs.map Value.stored := by
  induction vs with
  | nil => rfl
  | cons v vs ih => rw [storedAll, ih, List.map_cons]

/-- The entries are mapped. -/
theorem storedEntries_eq (entries : List (DictEntry Value)) :
    storedEntries entries = entries.map DictEntry.stored := by
  induction entries with
  | nil => rfl
  | cons entry entries ih =>
    rw [storedEntries, ih, List.map_cons]
    rfl

/-- A tuple, element by element. -/
theorem stored_tuple (items : List Value) :
    Value.stored (.tuple items) = .tuple (items.map Value.stored) :=
  congrArg Value.tuple (storedAll_eq items)

/-- A list, element by element. -/
theorem stored_list (items : List Value) :
    Value.stored (.list items) = .list (items.map Value.stored) :=
  congrArg Value.list (storedAll_eq items)

/-- A dict, entry by entry. -/
theorem stored_dict (entries : List (DictEntry Value)) :
    Value.stored (.dict entries) = .dict (entries.map DictEntry.stored) :=
  congrArg Value.dict (storedEntries_eq entries)

/-- An `ObjectEx`, part by part. -/
theorem stored_objectEx (isType2 : Bool) (data : ObjectExData Value) :
    Value.stored (.objectEx isType2 data) =
      .objectEx isType2 ⟨data.header.stored, data.list.map Value.stored,
        data.dict.map DictEntry.stored⟩ := by
  rw [← storedAll_eq, ← storedEntries_eq]
  rfl

/-- No cell is lost. -/
theorem length_storedCells : ∀ (columns : List PackedColumn) (values : List Value),
    (storedCells columns values).length = values.length
  | _, [] => by rw [storedCells]
  | [], v :: vs => by
    rw [storedCells, List.length_cons, List.length_cons, length_storedCells [] vs]
  | column :: columns, v :: vs => by
    rw [storedCells, List.length_cons, List.length_cons, length_storedCells columns vs]

/-- The cell of a column. -/
theorem getElem?_storedCells : ∀ {columns : List PackedColumn} {values : List Value} {i : Nat}
    {column : PackedColumn} {value : Value}, columns[i]? = some column →
    values[i]? = some value → (storedCells columns values)[i]? =
      some (if dbTypeSizeBits column.type = 0 then value.stored
        else storedCell column.type value)
  | [], _, _, _, _, hColumn, _ => nomatch hColumn
  | _ :: _, [], _, _, _, _, hValue => nomatch hValue
  | c :: columns, v :: values, 0, column, value, hColumn, hValue => by
    obtain rfl := Option.some.inj hColumn
    obtain rfl := Option.some.inj hValue
    rw [storedCells, List.getElem?_cons_zero]
  | c :: columns, v :: values, i + 1, column, value, hColumn, hValue => by
    rw [storedCells, List.getElem?_cons_succ]
    exact getElem?_storedCells hColumn hValue

-- ---------------------------------------------------------------------------
-- Reads
-- ---------------------------------------------------------------------------

/-- `Reads` on streams of at most `MAX_STREAM_BYTES` bytes. -/
abbrev ReadsBack {α : Type} (m : Decoder α) (enc : Bytes) (a : α) : Prop :=
  Reads MAX_STREAM_BYTES m enc a

/-- Nothing is asked of encodings no stream has room for. -/
theorem ReadsBack.of_fits {α : Type} {m : Decoder α} {enc : Bytes} {a : α}
    (h : enc.length ≤ MAX_STREAM_BYTES → ReadsBack m enc a) : ReadsBack m enc a := by
  intro pre post store hCap
  refine h ?_ pre post store hCap
  simp only [List.length_append] at hCap
  omega

/-- The last step of a reader consumes nothing. -/
theorem ReadsBack.then_pure {α β : Type} {m : Decoder α} {enc : Bytes} {a : α}
    (h : ReadsBack m enc a) (f : α → β) :
    ReadsBack (m >>= fun x => pure (f x)) enc (f a) :=
  (h.bind (f := fun x => pure (f x)) (reads_pure (f a))).congr (List.append_nil _) rfl

/-- A byte. -/
theorem reads_readU8 (b : UInt8) : ReadsBack readU8 [b] b := reads_takeByte b

/-- Bytes. -/
theorem reads_readBytes {bytes : Bytes} {n : Nat} (h : bytes.length = n) :
    ReadsBack (readBytes n) bytes bytes := reads_take h

/-- 16 bits. -/
theorem reads_readU16 (n : UInt16) : ReadsBack readU16 (putU16 n) n := by
  have h := (reads_readBytes (length_leBytes 2 n.toNat)).then_pure
    fun bs => UInt16.ofNat (leNat bs)
  rwa [uint16_leBytes] at h

/-- 32 bits. -/
theorem reads_readU32 (n : UInt32) : ReadsBack readU32 (putU32 n) n := by
  have h := (reads_readBytes (length_leBytes 4 n.toNat)).then_pure
    fun bs => UInt32.ofNat (leNat bs)
  rwa [uint32_leBytes] at h

/-- 64 bits. -/
theorem reads_readU64 (n : UInt64) : ReadsBack readU64 (putU64 n) n := by
  have h := (reads_readBytes (length_leBytes 8 n.toNat)).then_pure
    fun bs => UInt64.ofNat (leNat bs)
  rwa [uint64_leBytes] at h

/-- A size in either form. -/
theorem reads_readSizeEx (n : UInt32) : ReadsBack readSizeEx (putSizeEx n) n.toNat := by
  unfold putSizeEx readSizeEx
  by_cases hShort : n.toNat < kSizeExEscape
  · rw [if_pos hShort]
    have hByte : n.toUInt8.toNat = n.toNat := by
      rw [UInt32.toNat_toUInt8]
      simp only [kSizeExEscape] at hShort
      omega
    refine (Reads.bind (reads_readU8 n.toUInt8) ?_).congr (List.append_nil _) rfl
    rw [if_neg (by omega), hByte]
    exact reads_pure _
  · rw [if_neg hShort]
    refine Reads.bind (reads_readU8 (UInt8.ofNat kSizeExEscape)) ?_
    rw [if_pos (by decide)]
    exact (reads_readU32 n).then_pure UInt32.toNat

/-- A size within its bound. -/
theorem reads_readBounded {n : UInt32} {bound : Nat} {message : String}
    (h : n.toNat ≤ bound) :
    ReadsBack (readBounded bound message) (putSizeEx n) n.toNat := by
  refine (Reads.bind (reads_readSizeEx n) ?_).congr (List.append_nil _) rfl
  rw [if_neg (by omega)]
  exact reads_pure _

/-- A length that fits the stream fits the 32 bits it is written in. -/
theorem toNat_ofNat_length {n : Nat} (h : n ≤ MAX_STREAM_BYTES) :
    (UInt32.ofNat n).toNat = n := by
  rw [UInt32.toNat_ofNat']
  refine Nat.mod_eq_of_lt ?_
  simp only [MAX_STREAM_BYTES] at h
  omega

/-- The size comes on top. -/
theorem length_le_putSized (bytes : Bytes) : bytes.length ≤ (putSized bytes).length := by
  rw [putSized, List.length_append]
  omega

/-- A size-prefixed byte string, for any continuation that takes the bytes. -/
theorem reads_putSized_append {α : Type} {bytes rest : Bytes} {a : α}
    {f : Nat → Decoder α}
    (hf : bytes.length ≤ MAX_STRING_BYTES →
      ReadsBack (f bytes.length) (bytes ++ rest) a) :
    ReadsBack (readBoundedSize >>= f) (putSized bytes ++ rest) a := by
  refine ReadsBack.of_fits fun hFits => ?_
  have hLen : bytes.length ≤ MAX_STREAM_BYTES := by
    have := length_le_putSized bytes
    rw [List.length_append] at hFits
    omega
  have hNat := toNat_ofNat_length hLen
  rw [putSized, List.append_assoc]
  refine Reads.bind (reads_readBounded (n := UInt32.ofNat bytes.length) ?_) ?_
  · rw [hNat]
    exact hLen
  · rw [hNat]
    exact hf hLen

/-- Bytes behind their size, when what reads them does so for all that are short enough. -/
theorem reads_putSized {α : Type} {bytes : Bytes} {a : α} {f : Nat → Decoder α}
    (hf : bytes.length ≤ MAX_STRING_BYTES → ReadsBack (f bytes.length) bytes a) :
    ReadsBack (readBoundedSize >>= f) (putSized bytes) a :=
  have hNil : ReadsBack (readBoundedSize >>= f) (putSized bytes ++ []) a :=
    reads_putSized_append fun h => by
      rw [List.append_nil]
      exact hf h
  hNil.congr (List.append_nil _) rfl

/-- A leaf made of bytes. -/
theorem reads_decodeBytes {bytes : Bytes} (make : Bytes → Value) (message : String)
    (h : bytes.length ≤ MAX_STRING_BYTES) :
    ReadsBack (decodeBytes make message bytes.length) bytes (make bytes) := by
  unfold decodeBytes
  rw [if_neg (by omega)]
  exact (reads_readBytes rfl).then_pure make

-- ---------------------------------------------------------------------------
-- Opcodes
-- ---------------------------------------------------------------------------

/-- An encoded value: its bytes are read back, and they do not start like the
terminator of an ObjectEx. -/
structure Encodes (m : Decoder Value) (bytes : Bytes) (v : Value) : Prop where
  reads : ReadsBack m bytes v
  starts : ∃ op rest, bytes = Opcode.toByte op :: rest ∧ op ≠ .packedTerminator

section Tagged

variable {decodeNext : Decoder Value}

/-- An opcode byte without flags, then what its decoder reads. -/
theorem encodes_tagged (op : Opcode) {rest : Bytes} {v : Value}
    (hOp : op ≠ .packedTerminator)
    (h : ReadsBack (decodeOpcode decodeNext op.toByte) rest v) :
    Encodes (decodeTagged decodeNext) (op.toByte :: rest) v := by
  refine ⟨?_, op, rest, rfl, hOp⟩
  obtain ⟨hSave, hUnknown, hMask⟩ := op.toByte_flags
  refine Reads.bind (reads_readU8 op.toByte) ?_
  rw [if_neg (by simp [hUnknown]), if_neg (by simp [hSave]), hMask]
  exact h

/-- A leaf that is only an opcode. -/
theorem encodes_single (op : Opcode) {v : Value} (hOp : op ≠ .packedTerminator)
    (h : decodeOpcode decodeNext op.toByte = pure v) :
    Encodes (decodeTagged decodeNext) [op.toByte] v :=
  encodes_tagged op hOp (h ▸ reads_pure v)

/-- An integer, in each of its forms. -/
theorem encodes_integer (n : Int64) :
    Encodes (decodeTagged decodeNext) (encodeInteger n) (.int n) := by
  unfold encodeInteger
  split
  · rename_i h
    exact h ▸ encodes_single .pyMinusOne (by decide) rfl
  split
  · rename_i h
    exact h ▸ encodes_single .pyZeroInteger (by decide) rfl
  split
  · rename_i h
    exact h ▸ encodes_single .pyOneInteger (by decide) rfl
  -- the narrowest of the four widths
  split
  · rename_i h
    refine encodes_tagged .pyByte (by decide) ?_
    refine ((reads_readU8 n.toInt8.toUInt8).then_pure
      fun b => Value.int b.toInt8.toInt64).congr rfl ?_
    rw [Int8.toInt8_toUInt8, toInt64_toInt8 h.1 (by omega)]
  split
  · rename_i h
    refine encodes_tagged .pySignedShort (by decide) ?_
    refine ((reads_readU16 n.toInt16.toUInt16).then_pure
      fun b => Value.int b.toInt16.toInt64).congr rfl ?_
    rw [Int16.toInt16_toUInt16, toInt64_toInt16 h.1 (by omega)]
  split
  · rename_i h
    refine encodes_tagged .pyLong (by decide) ?_
    refine ((reads_readU32 n.toInt32.toUInt32).then_pure
      fun b => Value.int b.toInt32.toInt64).congr rfl ?_
    rw [Int32.toInt32_toUInt32, toInt64_toInt32 h.1 (by omega)]
  · refine encodes_tagged .pyLongLong (by decide) ?_
    refine ((reads_readU64 n.toUInt64).then_pure
      fun b => Value.int b.toInt64).congr rfl ?_
    rw [Int64.toInt64_toUInt64]

/-- A real. A zero comes back as the positive one. -/
theorem encodes_real (bits : UInt64) :
    Encodes (decodeTagged decodeNext) (encodeReal bits)
      (Value.stored (.real bits)) := by
  rw [Value.stored, encodeReal]
  by_cases hZero : isZeroReal bits = true
  · rw [if_pos hZero, if_pos hZero]
    exact encodes_single .pyZeroReal (by decide) rfl
  · rw [if_neg hZero, if_neg hZero]
    refine encodes_tagged .pyReal (by decide) ?_
    exact (reads_readU64 bits).then_pure Value.real

/-- The string-like kinds that are an opcode and a sized byte string. -/
theorem encodes_sized (op : Opcode) (make : Bytes → Value) (message : String)
    (bytes : Bytes) (hOp : op ≠ .packedTerminator)
    (h : decodeOpcode decodeNext op.toByte =
      readBoundedSize >>= fun len => decodeBytes make message len) :
    Encodes (decodeTagged decodeNext) (op.toByte :: putSized bytes) (make bytes) := by
  refine encodes_tagged op hOp ?_
  rw [h]
  exact reads_putSized fun hLen => reads_decodeBytes make message hLen

/-- A string, in each of its forms. -/
theorem encodes_string (text : Bytes) :
    Encodes (decodeTagged decodeNext) (encodeString text) (.string text) := by
  unfold encodeString
  split
  · exact encodes_single .pyEmptyString (by decide) rfl
  · rename_i c
    refine encodes_tagged .pyCharString (by decide) ?_
    exact (reads_readU8 c).then_pure fun b => Value.string [b]
  · split
    · -- a string of the table travels as its index
      rename_i i hIndex
      have hText : lookupString i = some text := lookupString_of_lookupStringIndex hIndex
      refine encodes_tagged .pyStringTableItem (by decide) ?_
      refine (Reads.bind (reads_readU8 i) ?_).congr (List.append_nil _) rfl
      rw [hText]
      exact reads_pure _
    · exact encodes_sized .pyLongString .string _ text (by decide) rfl

/-- Text. -/
theorem encodes_wString (text : Bytes) :
    Encodes (decodeTagged decodeNext) (encodeWString text) (.wString text) := by
  unfold encodeWString
  split
  · rename_i hEmpty
    rw [List.isEmpty_iff.mp hEmpty]
    exact encodes_single .pyEmptyWString (by decide) rfl
  · exact encodes_sized .pyWStringUTF8 .wString _ text (by decide) rfl

/-- A substream. -/
theorem encodes_subStream (data : Bytes) :
    Encodes (decodeTagged decodeNext) (encodeSubStream data) (.subStream data) := by
  refine encodes_tagged .pySubStream (by decide) ?_
  exact reads_putSized fun _ => (reads_readBytes rfl).then_pure Value.subStream

end Tagged

-- ---------------------------------------------------------------------------
-- Composites
-- ---------------------------------------------------------------------------

/-- A successful `encodeEach` concatenates successful encodings. -/
theorem encodeEach_eq_ok {α : Type} {encode : α → Result Bytes} {xs : List α}
    {body : Bytes} (h : encodeEach encode xs = .ok body) :
    ∃ enc : α → Bytes, (∀ x ∈ xs, encode x = .ok (enc x)) ∧ body = xs.flatMap enc := by
  -- the bytes of the elements that encode; the others are not in the list
  let enc : α → Bytes := fun x => (encode x).toOption.getD []
  refine ⟨enc, ?_⟩
  induction xs generalizing body with
  | nil =>
    cases h
    exact ⟨by simp, rfl⟩
  | cons x xs ih =>
    obtain ⟨head, hHead, h⟩ := Checked.bind_eq_ok h
    obtain ⟨tail, hTail, h⟩ := Checked.bind_eq_ok h
    cases h
    obtain ⟨hAll, rfl⟩ := ih hTail
    have hx : enc x = head := by simp only [enc, hHead, Except.toOption, Option.getD_some]
    refine ⟨fun y hy => ?_, by rw [List.flatMap_cons, hx]⟩
    rcases List.mem_cons.mp hy with rfl | hy
    · rw [hHead, hx]
    · exact hAll y hy

/-- A fold that appends is a map. -/
theorem foldl_snoc {α β : Type} (f : α → β) (xs : List α) (acc : List β) :
    xs.foldl (fun acc x => acc ++ [f x]) acc = acc ++ xs.map f := by
  induction xs generalizing acc with
  | nil => simp
  | cons x xs ih => rw [List.foldl_cons, ih, List.map_cons, List.append_assoc]; rfl

/-- No two opcodes have one byte. -/
theorem toByte_inj {a b : Opcode} (h : a.toByte = b.toByte) : a = b := by
  have hSame := Opcode.ofByte?_toByte a
  rw [h, Opcode.ofByte?_toByte] at hSame
  exact (Option.some.inj hSame).symm

/-- A count the encoder let through. -/
theorem toNat_ofNat_count {n : Nat} (h : n ≤ MAX_CONTAINER_COUNT) :
    (UInt32.ofNat n).toNat = n := by
  refine toNat_ofNat_length (h.trans ?_)
  decide

section Composite

variable {encodeNext : Value → Result Bytes} {decodeNext : Decoder Value}
  (hNext : ∀ w bytes, encodeNext w = .ok bytes → Encodes decodeNext bytes w.stored)

include hNext

/-- The elements of a container, each encoded at the next depth. -/
theorem reads_elements {items : List Value} {body : Bytes}
    (h : encodeEach encodeNext items = .ok body) :
    ReadsBack (Reader.replicate decodeNext items.length) body
      (items.map Value.stored) := by
  obtain ⟨enc, hEnc, rfl⟩ := encodeEach_eq_ok h
  exact reads_replicate fun item hItem =>
    (hNext item _ (hEnc item hItem)).reads

/-- A tuple, in each of its forms. -/
theorem encodes_tuple {items : List Value} {bytes : Bytes}
    (h : encodeTuple encodeNext items = .ok bytes) :
    Encodes (decodeTagged decodeNext) bytes (Value.stored (.tuple items)) := by
  unfold encodeTuple at h
  split at h
  · cases h
  rename_i hCount
  obtain ⟨body, hBody, h⟩ := Checked.bind_eq_ok h
  cases h
  have hReads := reads_elements hNext hBody
  rw [stored_tuple]
  match items with
  | [] =>
    cases hBody
    exact encodes_single .pyEmptyTuple (by decide) rfl
  | [x] =>
    obtain ⟨enc, hEnc, rfl⟩ := encodeEach_eq_ok hBody
    have hx := (hNext x _ (hEnc x (by simp))).reads
    refine encodes_tagged .pyOneTuple (by decide) ?_
    refine (hx.then_pure fun first => Value.tuple [first]).congr (by simp) rfl
  | [x, y] =>
    obtain ⟨enc, hEnc, rfl⟩ := encodeEach_eq_ok hBody
    have hx := (hNext x _ (hEnc x (by simp))).reads
    have hy := (hNext y _ (hEnc y (by simp))).reads
    refine encodes_tagged .pyTwoTuple (by decide) ?_
    exact (hx.bind (hy.then_pure fun second =>
      Value.tuple [x.stored, second])).congr (by simp) rfl
  | x :: y :: z :: rest =>
    have hNat := toNat_ofNat_count (Nat.le_of_not_lt hCount)
    refine encodes_tagged .pyTuple (by decide) ?_
    refine Reads.bind (reads_readBounded (n := UInt32.ofNat _) (by omega)) ?_
    rw [hNat]
    exact hReads.then_pure Value.tuple

/-- A list, in each of its forms. -/
theorem encodes_list {items : List Value} {bytes : Bytes}
    (h : encodeList encodeNext items = .ok bytes) :
    Encodes (decodeTagged decodeNext) bytes (Value.stored (.list items)) := by
  unfold encodeList at h
  split at h
  · cases h
  rename_i hCount
  obtain ⟨body, hBody, h⟩ := Checked.bind_eq_ok h
  cases h
  have hReads := reads_elements hNext hBody
  rw [stored_list]
  match items with
  | [] =>
    cases hBody
    exact encodes_single .pyEmptyList (by decide) rfl
  | [x] =>
    obtain ⟨enc, hEnc, rfl⟩ := encodeEach_eq_ok hBody
    have hx := (hNext x _ (hEnc x (by simp))).reads
    refine encodes_tagged .pyOneList (by decide) ?_
    refine (hx.then_pure fun first => Value.list [first]).congr (by simp) rfl
  | x :: y :: rest =>
    have hNat := toNat_ofNat_count (Nat.le_of_not_lt hCount)
    refine encodes_tagged .pyList (by decide) ?_
    refine Reads.bind (reads_readBounded (n := UInt32.ofNat _) (by omega)) ?_
    rw [hNat]
    exact hReads.then_pure Value.list

/-- A dict entry, value first. -/
theorem reads_valueKey {entry : DictEntry Value} {bytes : Bytes}
    (h : encodeValueKey encodeNext entry = .ok bytes) :
    ReadsBack (decodeValueKey decodeNext) bytes entry.stored := by
  obtain ⟨value, hEncV, h⟩ := Checked.bind_eq_ok h
  obtain ⟨key, hEncK, h⟩ := Checked.bind_eq_ok h
  cases h
  refine (hNext _ _ hEncV).reads.bind ?_
  exact (hNext _ _ hEncK).reads.then_pure fun k =>
    (⟨k, entry.value.stored⟩ : DictEntry Value)

/-- A dict. -/
theorem encodes_dict {entries : List (DictEntry Value)} {bytes : Bytes}
    (h : encodeDict encodeNext entries = .ok bytes) :
    Encodes (decodeTagged decodeNext) bytes (Value.stored (.dict entries)) := by
  unfold encodeDict at h
  split at h
  · cases h
  rename_i hCount
  obtain ⟨body, hBody, h⟩ := Checked.bind_eq_ok h
  cases h
  obtain ⟨enc, hEnc, rfl⟩ := encodeEach_eq_ok hBody
  have hNat := toNat_ofNat_count (Nat.le_of_not_lt hCount)
  rw [stored_dict]
  refine encodes_tagged .pyDict (by decide) ?_
  refine Reads.bind (reads_readBounded (n := UInt32.ofNat _) (by omega)) ?_
  rw [hNat]
  have hBodyReads : ReadsBack (Reader.replicate (decodeValueKey decodeNext) entries.length)
      (entries.flatMap enc) (entries.map DictEntry.stored) :=
    reads_replicate fun entry hEntry => reads_valueKey hNext (hEnc entry hEntry)
  exact hBodyReads.then_pure Value.dict

/-- The type of an object is written in place; it is read back at the next
depth, which exists because the arguments were encoded there. -/
theorem encodes_object {type : Bytes} {args : Value} {bytes : Bytes}
    (hString : ∀ w bytes, encodeNext w = .ok bytes →
      encodeNext (.string type) = .ok (encodeString type))
    (h : encodeObject encodeNext type args = .ok bytes) :
    Encodes (decodeTagged decodeNext) bytes
      (Value.stored (.object type args)) := by
  obtain ⟨body, hBody, h⟩ := Checked.bind_eq_ok h
  cases h
  have hType := (hNext (.string type) _ (hString args body hBody)).reads
  refine encodes_tagged .pyObject (by decide) ?_
  refine hType.bind ?_
  exact (hNext args body hBody).reads.then_pure fun a => Value.object type a

omit hNext in
/-- A round of an ObjectEx loop on an element. -/
theorem reads_untilTerminator_item {α : Type} {message : String} {item : Decoder α}
    {bytes : Bytes} {a : α} (acc : List α) (h : ReadsBack item bytes a)
    (hStarts : ∃ op rest, bytes = Opcode.toByte op :: rest ∧ op ≠ .packedTerminator) :
    ReadsBack (untilTerminator message item acc) bytes (.inl (acc ++ [a])) := by
  obtain ⟨op, rest, rfl, hOp⟩ := hStarts
  have hNot : op.toByte &&& OPCODE_MASK ≠ Opcode.packedTerminator.toByte := by
    rw [op.toByte_flags.2.2]
    exact fun hSame => hOp (toByte_inj hSame)
  refine reads_requireLimit (by simp) ?_
  refine reads_peekByte ?_
  rw [if_neg hNot]
  exact h.then_pure fun a => Sum.inl (acc ++ [a])

omit hNext in
/-- The last round of an ObjectEx loop. -/
theorem reads_untilTerminator_stop {α : Type} {message : String} {item : Decoder α}
    (acc : List α) :
    ReadsBack (untilTerminator message item acc) [Opcode.packedTerminator.toByte]
      (.inr acc) := by
  refine reads_requireLimit (by simp) ?_
  refine reads_peekByte ?_
  rw [if_pos (by decide)]
  exact (reads_readU8 _).then_pure fun _ => Sum.inr acc

omit hNext in
/-- An ObjectEx loop reads the elements and their terminator. -/
theorem reads_terminated {α β : Type} (message : String) {item : Decoder β}
    {xs : List α} {enc : α → Bytes} {out : α → β}
    (h : ∀ x ∈ xs, ReadsBack item (enc x) (out x))
    (hStarts : ∀ x ∈ xs, ∃ op rest, enc x = Opcode.toByte op :: rest ∧
      op ≠ .packedTerminator) :
    ReadsBack (Reader.iterate (untilTerminator message item) (MAX_STREAM_BYTES + 1) [])
      (xs.flatMap enc ++ [Opcode.packedTerminator.toByte]) (xs.map out) := by
  have hLoop := reads_iterate (untilTerminator message item) (fun acc x => acc ++ [out x]) id
    (fun x hx acc => reads_untilTerminator_item acc (h x hx) (hStarts x hx))
    (fun x hx => by
      obtain ⟨op, rest, hEq, -⟩ := hStarts x hx
      rw [hEq]
      simp)
    reads_untilTerminator_stop []
  rw [foldl_snoc] at hLoop
  exact hLoop

/-- An ObjectEx entry, key first. -/
theorem encodes_keyValue {entry : DictEntry Value} {bytes : Bytes}
    (h : encodeKeyValue encodeNext entry = .ok bytes) :
    ReadsBack (decodeKeyValue decodeNext) bytes entry.stored ∧
      ∃ op rest, bytes = Opcode.toByte op :: rest ∧ op ≠ .packedTerminator := by
  obtain ⟨key, hEncK, h⟩ := Checked.bind_eq_ok h
  obtain ⟨value, hEncV, h⟩ := Checked.bind_eq_ok h
  cases h
  have hReadsK := hNext _ _ hEncK
  constructor
  · refine hReadsK.reads.bind ?_
    exact (hNext _ _ hEncV).reads.then_pure fun v =>
      (⟨entry.key.stored, v⟩ : DictEntry Value)
  · obtain ⟨op, rest, rfl, hOp⟩ := hReadsK.starts
    exact ⟨op, rest ++ value, rfl, hOp⟩

/-- An `ObjectEx`: no element starts like the terminator, so both loops end where they should. -/
theorem encodes_objectEx {isType2 : Bool} {data : ObjectExData Value} {bytes : Bytes}
    (h : encodeObjectEx encodeNext isType2 data = .ok bytes) :
    Encodes (decodeTagged decodeNext) bytes
      (Value.stored (.objectEx isType2 data)) := by
  obtain ⟨header, hEncH, h⟩ := Checked.bind_eq_ok h
  obtain ⟨list, hEncL, h⟩ := Checked.bind_eq_ok h
  obtain ⟨dict, hEncD, h⟩ := Checked.bind_eq_ok h
  cases h
  obtain ⟨encL, hEachL, rfl⟩ := encodeEach_eq_ok hEncL
  obtain ⟨encD, hEachD, rfl⟩ := encodeEach_eq_ok hEncD
  have hItem : ∀ item ∈ data.list, Encodes decodeNext (encL item) item.stored :=
    fun item hItem => hNext item _ (hEachL item hItem)
  have hEntry := fun entry (hEntry : entry ∈ data.dict) =>
    encodes_keyValue hNext (hEachD entry hEntry)
  have hListLoop := reads_terminated "object ex list is unterminated"
    (fun item h => (hItem item h).reads) fun item h => (hItem item h).starts
  have hDictLoop := reads_terminated "object ex dict is unterminated"
    (fun entry h => (hEntry entry h).1) fun entry h => (hEntry entry h).2
  -- the two kinds differ in their opcode only
  have hBody : ReadsBack (decodeObjectEx decodeNext isType2)
      (header ++ data.list.flatMap encL ++ [Opcode.packedTerminator.toByte] ++
        data.dict.flatMap encD ++ [Opcode.packedTerminator.toByte])
      (Value.stored (.objectEx isType2 data)) := by
    rw [stored_objectEx]
    refine ((hNext _ _ hEncH).reads.bind (hListLoop.bind
      (hDictLoop.then_pure fun dict => Value.objectEx isType2
        ⟨data.header.stored, data.list.map Value.stored, dict⟩))).congr ?_ rfl
    simp
  cases isType2 with
  | false => exact encodes_tagged .pyObjectEx1 (by decide) hBody
  | true => exact encodes_tagged .pyObjectEx2 (by decide) hBody

end Composite

-- ---------------------------------------------------------------------------
-- Rows
-- ---------------------------------------------------------------------------

/-- A descriptor comes back as it is. -/
theorem stored_buildRowHeader (columns : List PackedColumn) :
    (buildRowHeader columns).stored = buildRowHeader columns := by
  rw [buildRowHeader, stored_objectEx]
  simp only [List.map_cons, List.map_nil, stored_tuple, List.map_map]
  rfl

/-- A column comes back. -/
theorem extractColumn_roundTrip (column : PackedColumn) :
    extractColumn (.tuple [.string column.name,
      .int (Int64.ofNat column.type.toByte.toNat)]) = .ok column := by
  have hByte : (Int64.ofNat column.type.toByte.toNat).toUInt64.toUInt8 =
      column.type.toByte := by
    have hLt := column.type.toByte.toNat_lt
    rw [Int64.toUInt64_ofNat', ← UInt8.toNat_inj, UInt64.toNat_toUInt8,
      UInt64.toNat_ofNat']
    omega
  rw [extractColumn, hByte, DbType.ofByte_toByte]

/-- The descriptor gives back the columns it was built from. -/
theorem extractColumns_buildRowHeader {columns : List PackedColumn}
    (h : columns.length ≤ kMaxPackedRowColumns) {data : ObjectExData Value}
    (hData : buildRowHeader columns = .objectEx false data) :
    extractColumns data = .ok columns := by
  cases hData
  have hEach : (columns.map fun column => Value.tuple [.string column.name,
      .int (Int64.ofNat column.type.toByte.toNat)]).mapM extractColumn = .ok columns := by
    clear h
    induction columns with
    | nil => rfl
    | cons column columns ih =>
      rw [List.map_cons, List.mapM_cons, extractColumn_roundTrip]
      show (List.mapM extractColumn (List.map _ columns) >>= _) = _
      rw [ih]
      rfl
  unfold extractColumns
  simp only [ne_eq, not_true_eq_false, if_false, List.length_map]
  rw [if_neg (by omega)]
  exact hEach

/-- What the two column loops leave in slot `i`. -/
def storedSlot (row : PackedRowData Value) (i : Nat) : Option Value :=
  (storedCells row.columns row.values)[i]?

/-- A round of the second column loop, on the slots. -/
def fillSlot (row : PackedRowData Value) (values : List (Option Value))
    (entry : Nat × Nat) : List (Option Value) :=
  if entry.1 = 0 then values.set entry.2 (storedSlot row entry.2) else values

/-- No slot is lost. -/
theorem length_fillSlots (row : PackedRowData Value) (entries : List (Nat × Nat))
    (values : List (Option Value)) :
    (entries.foldl (fillSlot row) values).length = values.length := by
  induction entries generalizing values with
  | nil => rfl
  | cons entry entries ih =>
    rw [List.foldl_cons, ih]
    unfold fillSlot
    split
    · exact List.length_set
    · rfl

/-- A slot with its final content keeps it: every write to slot `i` writes the
same. -/
theorem fillSlots_keep (row : PackedRowData Value) (entries : List (Nat × Nat))
    {values : List (Option Value)} {i : Nat}
    (h : values[i]? = some (storedSlot row i)) :
    (entries.foldl (fillSlot row) values)[i]? = some (storedSlot row i) := by
  induction entries generalizing values with
  | nil => exact h
  | cons entry entries ih =>
    rw [List.foldl_cons]
    refine ih ?_
    unfold fillSlot
    split
    · by_cases hSame : entry.2 = i
      · have hi : i < values.length := (List.getElem?_eq_some_iff.mp h).1
        rw [hSame, List.getElem?_set_self hi]
      · rw [List.getElem?_set_ne hSame]
        exact h
    · exact h

/-- A slot is written. -/
theorem fillSlots_write (row : PackedRowData Value) {entries : List (Nat × Nat)}
    {values : List (Option Value)} {i : Nat} (hMem : (0, i) ∈ entries)
    (hi : i < values.length) :
    (entries.foldl (fillSlot row) values)[i]? = some (storedSlot row i) := by
  induction entries generalizing values with
  | nil => cases hMem
  | cons entry entries ih =>
    rw [List.foldl_cons]
    rcases List.mem_cons.mp hMem with rfl | hMem
    · refine fillSlots_keep row entries ?_
      rw [fillSlot, if_pos rfl, List.getElem?_set_self hi]
    · refine ih hMem ?_
      unfold fillSlot
      split
      · rw [List.length_set]
        exact hi
      · exact hi

/-- Both column loops together fill every slot. -/
theorem fillSlots_eq {row : PackedRowData Value} (hRow : Packable row)
    {fixed : List (Option Value)} (hLength : fixed.length = row.columns.length)
    (hFixed : ∀ entry ∈ sizeOrder row.columns, entry.1 ≠ 0 →
      ∀ column value, row.columns[entry.2]? = some column →
        row.values[entry.2]? = some value →
        fixed[entry.2]? = some (some (storedCell column.type value))) :
    (sizeOrder row.columns).foldl (fillSlot row) fixed =
      (storedCells row.columns row.values).map some := by
  refine List.ext_getElem? fun i => ?_
  by_cases hi : i < row.columns.length
  · have hValue : i < row.values.length := by rw [hRow.length]; exact hi
    have hEntry := exists_mem_sizeOrder hi
    have hColumnAt := List.getElem?_eq_getElem hi
    have hValueAt := List.getElem?_eq_getElem hValue
    have hStored := getElem?_storedCells hColumnAt hValueAt
    have hSlot : ((sizeOrder row.columns).foldl (fillSlot row) fixed)[i]? =
        some (storedSlot row i) := by
      by_cases hZero : dbTypeSizeBits row.columns[i].type = 0
      · rw [hZero] at hEntry
        exact fillSlots_write row hEntry (by omega)
      · -- a fixed cell is in place already
        refine fillSlots_keep row _ ?_
        rw [hFixed _ hEntry hZero _ _ hColumnAt hValueAt, storedSlot, hStored, if_neg hZero]
    rw [hSlot, storedSlot, List.getElem?_map, hStored]
    rfl
  · have hOut : ((sizeOrder row.columns).foldl (fillSlot row) fixed).length ≤ i := by
      rw [length_fillSlots]
      omega
    rw [List.getElem?_eq_none hOut, List.getElem?_eq_none]
    rw [List.length_map, length_storedCells, hRow.length]
    omega

/-- When all slots are set the values are there. -/
theorem allSet_map_some (vs : List Value) : allSet (vs.map some) = .ok vs := by
  induction vs with
  | nil => rfl
  | cons v vs ih =>
    rw [List.map_cons, allSet, ih]
    rfl

section Row

variable {encodeNext : Value → Result Bytes} {decodeNext : Decoder Value}
  (hNext : ∀ w bytes, encodeNext w = .ok bytes → Encodes decodeNext bytes w.stored)

include hNext

/-- A packed row: the descriptor and the packed part come back, and then the columns outside
it. -/
theorem encodes_packedRow {row : PackedRowData Value} {bytes : Bytes}
    (h : encodePackedRow encodeNext row = .ok bytes) :
    Encodes (decodeTagged decodeNext) bytes (Value.stored (.packedRow row)) := by
  unfold encodePackedRow at h
  split at h
  · cases h
  split at h
  · cases h
  rename_i hColumns hCount
  obtain ⟨header, hHeader, h⟩ := Checked.bind_eq_ok h
  obtain ⟨rle, hRle, h⟩ := Checked.bind_eq_ok h
  have hRow : Packable row := packable_of_packFixed (not_not.mp hCount) hRle
  obtain ⟨tail, hTail, h⟩ := Checked.bind_eq_ok h
  cases h
  obtain ⟨enc, hEnc, rfl⟩ := encodeEach_eq_ok hTail
  obtain ⟨rle', fixed, hPack, hUnpack, hLength, hFixed⟩ := unpackFixed_packFixed hRow
  obtain rfl : rle = rle' := by
    rw [hRle] at hPack
    exact Except.ok.inj hPack
  have hHeaderReads := (hNext _ _ hHeader).reads
  rw [stored_buildRowHeader] at hHeaderReads
  have hExtract : rowColumns (buildRowHeader row.columns) = .ok row.columns :=
    extractColumns_buildRowHeader (Nat.le_of_not_lt hColumns) rfl
  -- the second column loop
  have hLoop := reads_foldlM (f := decodeVariable decodeNext) enc (fillSlot row)
    (I := fun values => values.length = row.columns.length)
    (fun entry hEntry values hLen => by
      obtain ⟨size, i⟩ := entry
      obtain ⟨column, hColumn, hSize⟩ := mem_sizeOrder.mp hEntry
      have hi : i < row.columns.length := (List.getElem?_eq_some_iff.mp hColumn).1
      have hValue : i < row.values.length := by rw [hRow.length]; exact hi
      have hOne := hEnc _ hEntry
      unfold encodeVariable at hOne
      unfold decodeVariable fillSlot
      by_cases hZero : size = 0
      · rw [if_pos hZero] at hOne
        rw [if_pos hZero, if_pos hZero]
        rw [index_of_lt hValue] at hOne
        have hReads := (hNext _ _ hOne).reads
        have hStored := getElem?_storedCells hColumn (List.getElem?_eq_getElem hValue)
        rw [← hSize, if_pos hZero] at hStored
        refine ⟨?_, by rw [List.length_set]; exact hLen⟩
        refine (hReads.bind (reads_ofChecked ?_)).congr (List.append_nil _) rfl
        rw [storeSlot, if_pos (by omega), storedSlot, hStored]
      · rw [if_neg hZero] at hOne
        rw [if_neg hZero, if_neg hZero, ← Except.ok.inj hOne]
        exact ⟨reads_pure values, hLen⟩)
    fixed hLength
  have hAll : allSet ((sizeOrder row.columns).foldl (fillSlot row) fixed) =
      .ok (storedCells row.columns row.values) := by
    rw [fillSlots_eq hRow hLength hFixed, allSet_map_some]
  refine encodes_tagged .pyPackedRow (by decide) ?_
  -- descriptor, then the compressed part, then the size-0 columns
  rw [List.append_assoc]
  refine hHeaderReads.bind ?_
  refine reads_ofChecked_bind hExtract ?_
  refine reads_putSized_append fun hFits => ?_
  have hBound : ¬rle.length > kMaxPackedRowBytes := by
    have hSame : kMaxPackedRowBytes = MAX_STRING_BYTES := rfl
    omega
  rw [if_neg hBound]
  refine (reads_readBytes rfl).bind ?_
  refine reads_ofChecked_bind hUnpack ?_
  have hLast : ReadsBack (ofChecked (allSet ((sizeOrder row.columns).foldl
      (fillSlot row) fixed))) [] (storedCells row.columns row.values) :=
    reads_ofChecked hAll
  refine (hLoop.1.bind (hLast.then_pure fun values =>
    Value.packedRow ⟨row.columns, values⟩)).congr (List.append_nil _) rfl

end Row

-- ---------------------------------------------------------------------------
-- Values and streams
-- ---------------------------------------------------------------------------

/-- The `switch` of `EncodeValue` against the one of `DecodeOpcode`. -/
theorem encodes_kind {encodeNext : Value → Result Bytes} {decodeNext : Decoder Value}
    (hNext : ∀ w bytes, encodeNext w = .ok bytes → Encodes decodeNext bytes w.stored)
    (hString : ∀ type w bytes, encodeNext w = .ok bytes →
      encodeNext (.string type) = .ok (encodeString type))
    {v : Value} {bytes : Bytes} (h : encodeKind encodeNext v = .ok bytes) :
    Encodes (decodeTagged decodeNext) bytes v.stored := by
  cases v with
  | none =>
    cases h
    exact encodes_single .pyNone (by decide) rfl
  | bool b =>
    cases h
    cases b with
    | false => exact encodes_single .pyFalse (by decide) rfl
    | true => exact encodes_single .pyTrue (by decide) rfl
  | int n =>
    cases h
    exact encodes_integer n
  | real bits =>
    cases h
    exact encodes_real bits
  | string text =>
    cases h
    exact encodes_string text
  | wString text =>
    cases h
    exact encodes_wString text
  | token text =>
    cases h
    exact encodes_sized .pyToken .token _ text (by decide) rfl
  | buffer data =>
    cases h
    exact encodes_sized .pyBuffer .buffer _ data (by decide) rfl
  | tuple items => exact encodes_tuple hNext h
  | list items => exact encodes_list hNext h
  | dict entries => exact encodes_dict hNext h
  | object type args => exact encodes_object hNext (hString type) h
  | objectEx isType2 data => exact encodes_objectEx hNext h
  | subStruct value =>
    obtain ⟨body, hBody, h⟩ := Checked.bind_eq_ok h
    cases h
    refine encodes_tagged .pySubStruct (by decide) ?_
    exact (hNext value body hBody).reads.then_pure Value.subStruct
  | subStream data =>
    cases h
    exact encodes_subStream data
  | checksumedStream checksum value =>
    obtain ⟨body, hBody, h⟩ := Checked.bind_eq_ok h
    cases h
    refine encodes_tagged .pyChecksumedStream (by decide) ?_
    refine (reads_readU32 checksum).bind ?_
    exact (hNext value body hBody).reads.then_pure (Value.checksumedStream checksum)
  | packedRow row => exact encodes_packedRow hNext h
  | cPicked data =>
    cases h
    exact encodes_sized .cPicked .cPicked _ data (by decide) rfl

/-- The recursive encoder against the recursive decoder, level by level. -/
theorem reads_encodeLevels (levels : Nat) :
    ∀ v bytes, encodeLevels levels v = .ok bytes →
      Encodes (decodeLevels levels) bytes v.stored := by
  induction levels with
  | zero => intro v bytes h; cases h
  | succ levels ih =>
    intro v bytes h
    refine encodes_kind ih (fun type w bytes hw => ?_) h
    cases levels with
    | zero => cases hw
    | succ levels => rfl

/-- Whatever `Encode` accepts comes back as it is stored, when it fits a stream. -/
theorem decode_stored {v : Value} {bytes : Bytes} (hEnc : encode v = .ok bytes)
    (hLen : bytes.length ≤ MAX_STREAM_BYTES) : decode bytes true = .ok v.stored := by
  obtain ⟨body, hBody, h⟩ := Checked.bind_eq_ok hEnc
  cases h
  have hHeader : ReadsBack readHeader (MARSHAL_HEADER_BYTE :: putU32 0) 0 := by
    refine Reads.bind (reads_readU8 MARSHAL_HEADER_BYTE) ?_
    rw [if_neg (by simp)]
    refine ((reads_readU32 0).bind ?_).congr (List.append_nil _) rfl
    exact reads_pure 0
  have hRoot := (reads_encodeLevels _ v body hBody).reads
  -- the two runs of `Decode`, on the whole stream
  have hStream : MARSHAL_HEADER_BYTE :: (putU32 0 ++ body) =
      (MARSHAL_HEADER_BYTE :: putU32 0) ++ body := rfl
  have hFive : (MARSHAL_HEADER_BYTE :: putU32 0).length = 5 := rfl
  have hRunHeader := hHeader [] body [] hLen
  have hRunRoot := hRoot (MARSHAL_HEADER_BYTE :: putU32 0) [] [] (by simpa using hLen)
  rw [List.append_nil, hFive, ← hStream] at hRunRoot
  simp only [List.nil_append, List.length_nil, hFive, ← hStream, Nat.zero_add] at hRunHeader
  have hSize : (MARSHAL_HEADER_BYTE :: (putU32 0 ++ body)).length = 5 + body.length := by
    rw [hStream, List.length_append, hFive]
  have hEnd : valueEnd (MARSHAL_HEADER_BYTE :: (putU32 0 ++ body)).length 5 0 =
      (MARSHAL_HEADER_BYTE :: (putU32 0 ++ body)).length := by
    rw [valueEnd, if_pos rfl]
    omega
  rw [decode, decodeStream, if_neg (by omega), hRunHeader]
  show (decodeValue 0 ⟨_, valueEnd _ 5 0⟩ ⟨5, []⟩ >>= _) = _
  rw [hEnd]
  show (decodeLevels (MAX_MARSHAL_DEPTH + 1 - 0) (Input.whole _) ⟨5, []⟩ >>= _) = _
  rw [hRunRoot]
  show (if (true = true ∧ 5 + body.length ≠ _) then _ else _) = _
  rw [hSize, if_neg (by simp)]

/-- The fixed-size cells of a row change no more than any other value. -/
def StableCells (row : PackedRowData Value) : Prop :=
  ∀ cell ∈ row.columns.zip row.values,
    dbTypeSizeBits cell.1.type ≠ 0 → storedCell cell.1.type cell.2 = cell.2.positiveZero

/-- The cells of a row are ones that its columns keep. -/
def RowStable : Value → Prop
  | .packedRow row => StableCells row
  | _ => True

/-- The cells of a row whose fixed-size cells are stable. -/
theorem storedCells_eq {row : PackedRowData Value} (hCells : StableCells row)
    (hValues : ∀ value ∈ row.values, value.stored = value.positiveZero) :
    storedCells row.columns row.values = row.values.map Value.positiveZero := by
  obtain ⟨columns, values⟩ := row
  induction values generalizing columns with
  | nil =>
    show storedCells columns [] = _
    rw [storedCells, List.map_nil]
  | cons v vs ih =>
    have hHead := hValues v List.mem_cons_self
    have hTail : ∀ value ∈ vs, value.stored = value.positiveZero :=
      fun value hMem => hValues value (List.mem_cons_of_mem _ hMem)
    cases columns with
    | nil =>
      have hRest := ih [] (fun cell hCell => absurd hCell List.not_mem_nil) hTail
      show storedCells [] (v :: vs) = _
      rw [storedCells, List.map_cons, hHead, hRest]
    | cons column columns =>
      have hRest := ih columns
        (fun cell hCell => hCells cell (List.mem_cons_of_mem _ hCell)) hTail
      show storedCells (column :: columns) (v :: vs) = _
      rw [storedCells, List.map_cons, hRest]
      by_cases hZero : dbTypeSizeBits column.type = 0
      · rw [if_pos hZero, hHead]
      · rw [if_neg hZero, hCells (column, v) List.mem_cons_self hZero]

/-- A value whose rows are stable changes only in the sign of its zeros. -/
theorem stored_of_stable {v : Value} (h : v.Everywhere RowStable) :
    v.stored = v.positiveZero := by
  induction h with
  | @node v here inside ih =>
    cases v with
    | real bits => rw [Value.stored, Value.positiveZero, Value.mapReal]
    | tuple items =>
      rw [stored_tuple, positiveZero_tuple]
      exact congrArg Value.tuple (List.map_congr_left fun item hItem => ih item hItem)
    | list items =>
      rw [stored_list, positiveZero_list]
      exact congrArg Value.list (List.map_congr_left fun item hItem => ih item hItem)
    | dict entries =>
      rw [stored_dict, positiveZero_dict]
      refine congrArg Value.dict (List.map_congr_left fun entry hEntry => ?_)
      have hKey := ih entry.key (List.mem_flatMap.mpr ⟨entry, hEntry, by simp⟩)
      have hValue := ih entry.value (List.mem_flatMap.mpr ⟨entry, hEntry, by simp⟩)
      rw [DictEntry.stored, DictEntry.positiveZero, hKey, hValue]
    | object type args =>
      have hArgs := ih args (by simp [Value.children])
      rw [Value.stored, hArgs]
      rfl
    | objectEx isType2 data =>
      have hHeader := ih data.header (by simp [Value.children])
      have hList : data.list.map Value.stored = data.list.map Value.positiveZero :=
        List.map_congr_left fun item hItem => ih item (by simp [Value.children, hItem])
      have hDict : data.dict.map DictEntry.stored = data.dict.map DictEntry.positiveZero := by
        refine List.map_congr_left fun entry hEntry => ?_
        have hMem : ∀ child ∈ [entry.key, entry.value],
            child ∈ (Value.objectEx isType2 data).children := fun child hChild =>
          List.mem_cons_of_mem _ (List.mem_append_right _
            (List.mem_flatMap.mpr ⟨entry, hEntry, hChild⟩))
        rw [DictEntry.stored, DictEntry.positiveZero, ih entry.key (hMem _ (by simp)),
          ih entry.value (hMem _ (by simp))]
      rw [stored_objectEx, positiveZero_objectEx, hHeader, hList, hDict]
    | subStruct value =>
      have hValue := ih value (by simp [Value.children])
      rw [Value.stored, hValue]
      rfl
    | checksumedStream checksum value =>
      have hValue := ih value (by simp [Value.children])
      rw [Value.stored, hValue]
      rfl
    | packedRow row =>
      have hCells : StableCells row := here
      rw [positiveZero_packedRow, ← storedCells_eq hCells fun value hValue => ih value hValue]
      rfl
    | _ => rfl

/-- A fixed-size cell that survives, holds no real. -/
theorem FixedCell.stable {type : DbType} {value : Value} (h : FixedCell type value) :
    storedCell type value = value.positiveZero := by
  rw [h.stored]
  cases value with
  | none | bool b | int n => rfl
  | _ => exact h.elim

/-- A value that survives comes back with its zeros positive. -/
theorem Survives.stored {v : Value} (h : Survives v) : v.stored = v.positiveZero := by
  refine stored_of_stable (h.mono fun w hRow => ?_)
  cases w with
  | packedRow row => exact fun cell hCell hSized => (hRow cell hCell hSized).stable
  | _ => trivial

/--
**Marshal round trip.** A value whose fixed-size row cells are `None`, booleans
in boolean columns or integers in their column's range comes back from its own
encoding, when there is one and it fits a stream; the sign of a zero real is
all that changes.
-/
theorem decode_encode (v : Value) (bytes : Bytes) (hv : v.Everywhere RowCells)
    (hEnc : encode v = .ok bytes) (hLen : bytes.length ≤ MAX_STREAM_BYTES) :
    decode bytes true = .ok v.positiveZero := by
  rw [← Survives.stored hv]
  exact decode_stored hEnc hLen

/-- A row with an integer, a boolean, a string and an absent real. -/
def sampleRow : PackedRowData Value where
  columns := [⟨ascii "a", .i4⟩, ⟨ascii "b", .bool⟩, ⟨ascii "c", .str⟩, ⟨ascii "d", .r8⟩]
  values := [.int (-3), .bool true, .string (ascii "x"), .none]

/-- The sample's cells fit its columns. -/
theorem sampleRow_cells : FixedCells sampleRow := by
  intro cell hCell hSized
  simp only [sampleRow, List.zip_cons_cons, List.zip_nil_left, List.mem_cons,
    List.not_mem_nil, or_false] at hCell
  rcases hCell with rfl | rfl | rfl | rfl
  · exact ⟨by decide, by decide⟩
  · exact rfl
  · exact absurd rfl hSized
  · exact trivial

/-- It goes out and comes back, next to a negative zero. -/
theorem decode_encode_sampleRow :
    ∃ bytes, encode (.tuple [.real 0x8000000000000000, .packedRow sampleRow]) = .ok bytes ∧
      decode bytes true = .ok (.tuple [.real 0, .packedRow sampleRow]) := by
  have hRow : Survives (.packedRow sampleRow) := by
    refine .node sampleRow_cells fun child hc => ?_
    simp only [Value.children, sampleRow, List.mem_cons, List.not_mem_nil, or_false] at hc
    rcases hc with rfl | rfl | rfl | rfl
    all_goals exact survives_leaf trivial rfl
  have hAll : Survives (.tuple [.real 0x8000000000000000, .packedRow sampleRow]) := by
    refine .node trivial fun child hc => ?_
    simp only [Value.children, List.mem_cons, List.not_mem_nil, or_false] at hc
    rcases hc with rfl | rfl
    · exact survives_leaf trivial rfl
    · exact hRow
  have hRun : ∃ bytes, encode (.tuple [.real 0x8000000000000000, .packedRow sampleRow]) =
      .ok bytes ∧ bytes.length ≤ MAX_STREAM_BYTES := by decide +kernel
  obtain ⟨bytes, hEnc, hFits⟩ := hRun
  exact ⟨bytes, hEnc, decode_encode _ bytes hAll hEnc hFits⟩

end Ithax.Marshal
