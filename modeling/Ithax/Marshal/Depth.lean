import Ithax.Lib.ReaderFilter
import Ithax.Marshal.Decode
import Ithax.Marshal.Encode
import Ithax.Marshal.RowLayout

/-!
# Nesting depth of decoded values

`DecodeValue` counts the depth of its own recursion. A saved element is spliced
into the value at the depth of the reference, whatever its own nesting is, so
the bound on the recursion is not a bound on the value.

`fittingLevels` is the decoder with the missing check: a saved element, and the
descriptor a packed row is written with, must fit below the limit at the place
they are used. It accepts exactly the streams whose value respects the limit.

* `encode_ne_depth`     — a value within the limit encodes without a depth error;
* `filters_fittingLevels` — the checked decoder keeps exactly the values that
  respect the limit;
* `decode_depth_iff`    — whole streams.
-/

namespace Ithax.Marshal

open Ithax.Lib Ithax.Lib.Reader

-- ---------------------------------------------------------------------------
-- Nesting
-- ---------------------------------------------------------------------------

/-- Nesting of the descriptor a row with these columns is written with. -/
def descriptorDepth (columns : List PackedColumn) : Nat :=
  if columns.isEmpty then 1 else 3

mutual

/-- How deep values nest inside a value; a value without children has depth 0.
A packed row contains its descriptor. -/
def Value.nestingDepth : Value → Nat
  | .tuple items => deepest items
  | .list items => deepest items
  | .dict entries => deepestEntry entries
  | .object _ args => args.nestingDepth + 1
  | .objectEx _ ⟨header, list, dict⟩ =>
    max (header.nestingDepth + 1) (max (deepest list) (deepestEntry dict))
  | .subStruct value => value.nestingDepth + 1
  | .checksumedStream _ value => value.nestingDepth + 1
  | .packedRow ⟨columns, values⟩ => max (descriptorDepth columns + 1) (deepest values)
  | _ => 0

/-- One more than the deepest of the values; 0 if there are none. -/
def deepest : List Value → Nat
  | [] => 0
  | v :: vs => max (v.nestingDepth + 1) (deepest vs)

/-- One more than the deepest key or value of the entries; 0 if there are none. -/
def deepestEntry : List (DictEntry Value) → Nat
  | [] => 0
  | ⟨key, value⟩ :: rest =>
    max (max (key.nestingDepth + 1) (value.nestingDepth + 1)) (deepestEntry rest)

end

/-- No value of a list is too deep. -/
theorem deepest_le {vs : List Value} {n : Nat} :
    deepest vs ≤ n ↔ ∀ v ∈ vs, v.nestingDepth < n := by
  induction vs with
  | nil => simp [deepest]
  | cons v vs ih =>
    rw [deepest, Nat.max_le, ih, List.forall_mem_cons]
    rfl

/-- No key and no value of the entries is too deep. -/
theorem deepestEntry_le {entries : List (DictEntry Value)} {n : Nat} :
    deepestEntry entries ≤ n ↔
      ∀ entry ∈ entries, entry.key.nestingDepth < n ∧ entry.value.nestingDepth < n := by
  induction entries with
  | nil => simp [deepestEntry]
  | cons entry entries ih =>
    rw [deepestEntry, Nat.max_le, Nat.max_le, ih, List.forall_mem_cons]
    rfl

/-- The value fits into `levels` levels of recursion. -/
def Fits (levels : Nat) (v : Value) : Prop := v.nestingDepth < levels

instance (levels : Nat) : DecidablePred (Fits levels) :=
  fun v => inferInstanceAs (Decidable (v.nestingDepth < levels))

/-- A tuple fits when its elements fit one level down. -/
theorem fits_tuple {levels : Nat} {items : List Value} :
    Fits (levels + 1) (.tuple items) ↔ ∀ item ∈ items, Fits levels item := by
  change deepest items < levels + 1 ↔ _
  rw [Nat.lt_succ_iff, deepest_le]
  rfl

/-- So does a list. -/
theorem fits_list {levels : Nat} {items : List Value} :
    Fits (levels + 1) (.list items) ↔ ∀ item ∈ items, Fits levels item := by
  change deepest items < levels + 1 ↔ _
  rw [Nat.lt_succ_iff, deepest_le]
  rfl

/-- Both halves of a dict entry. -/
def EntryFits (levels : Nat) (entry : DictEntry Value) : Prop :=
  Fits levels entry.key ∧ Fits levels entry.value

/-- A dict fits when its keys and values fit one level down. -/
theorem fits_dict {levels : Nat} {entries : List (DictEntry Value)} :
    Fits (levels + 1) (.dict entries) ↔ ∀ entry ∈ entries, EntryFits levels entry := by
  change deepestEntry entries < levels + 1 ↔ _
  rw [Nat.lt_succ_iff, deepestEntry_le]
  rfl

/-- An object fits when its arguments do. -/
theorem fits_object {levels : Nat} {type : Bytes} {args : Value} :
    Fits (levels + 1) (.object type args) ↔ Fits levels args := by
  change args.nestingDepth + 1 < levels + 1 ↔ _
  rw [Nat.succ_lt_succ_iff]
  rfl

/-- An `ObjectEx` fits when all its parts do. -/
theorem fits_objectEx {levels : Nat} {isType2 : Bool} {data : ObjectExData Value} :
    Fits (levels + 1) (.objectEx isType2 data) ↔
      Fits levels data.header ∧ (∀ item ∈ data.list, Fits levels item) ∧
        ∀ entry ∈ data.dict, EntryFits levels entry := by
  change max (data.header.nestingDepth + 1)
    (max (deepest data.list) (deepestEntry data.dict)) < levels + 1 ↔ _
  rw [Nat.lt_succ_iff, Nat.max_le, Nat.max_le, deepest_le, deepestEntry_le]
  rfl

/-- A `SubStruct` takes a level. -/
theorem fits_subStruct {levels : Nat} {value : Value} :
    Fits (levels + 1) (.subStruct value) ↔ Fits levels value := by
  change value.nestingDepth + 1 < levels + 1 ↔ _
  rw [Nat.succ_lt_succ_iff]
  rfl

/-- A checksummed value takes a level. -/
theorem fits_checksumedStream {levels : Nat} {checksum : UInt32} {value : Value} :
    Fits (levels + 1) (.checksumedStream checksum value) ↔ Fits levels value := by
  change value.nestingDepth + 1 < levels + 1 ↔ _
  rw [Nat.succ_lt_succ_iff]
  rfl

/-- A row takes the levels of its descriptor and of its values. -/
theorem fits_packedRow {levels : Nat} {row : PackedRowData Value} :
    Fits (levels + 1) (.packedRow row) ↔
      descriptorDepth row.columns < levels ∧ ∀ value ∈ row.values, Fits levels value := by
  change max (descriptorDepth row.columns + 1) (deepest row.values) < levels + 1 ↔ _
  rw [Nat.lt_succ_iff, Nat.max_le, deepest_le]
  rfl

/-- The descriptor is a value of that depth. -/
theorem nestingDepth_buildRowHeader (columns : List PackedColumn) :
    (buildRowHeader columns).nestingDepth = descriptorDepth columns := by
  cases columns with
  | nil => rfl
  | cons column columns =>
    have hColumns : ∀ cs : List PackedColumn, deepest (cs.map fun column =>
        Value.tuple [.string column.name, .int (Int64.ofNat column.type.toByte.toNat)]) ≤ 2 := by
      intro cs
      rw [deepest_le]
      intro v hv
      obtain ⟨c, -, rfl⟩ := List.mem_map.mp hv
      simp [Value.nestingDepth, deepest]
    have := hColumns columns
    simp only [buildRowHeader, Value.nestingDepth, deepest, deepestEntry, List.map_cons,
      descriptorDepth, List.isEmpty_cons]
    simp
    omega

-- ---------------------------------------------------------------------------
-- Encoding within the limit
-- ---------------------------------------------------------------------------

/-- The computation does not end in `MarshalDepthError`. -/
def NoDepthError {α : Type} (m : Result α) : Prop :=
  ∀ message, m ≠ .error (.thrown (.depth message))

/-- A sequence throws no depth error when its parts throw none. -/
theorem NoDepthError.bind {α β : Type} {m : Result α} {f : α → Result β}
    (hm : NoDepthError m) (hf : ∀ a, NoDepthError (f a)) : NoDepthError (m >>= f) := by
  intro message hRun
  match m, hm, hRun with
  | .ok a, _, hRun => exact hf a message hRun
  | .error e, hm, hRun =>
    have hSame : e = .thrown (.depth message) := Except.error.inj hRun
    exact hm message (by rw [hSame])

/-- A result is no depth error. -/
theorem noDepthError_ok {α : Type} (a : α) : NoDepthError (.ok a : Result α) := by
  intro message h
  cases h

/-- A fault is none either. -/
theorem noDepthError_index {α : Type} (buf : List α) (i : Nat) :
    NoDepthError (index buf i : Result α) := by
  intro message h
  unfold index at h
  split at h
  · cases h
  · cases h

/-- A loop over a list. -/
theorem NoDepthError.foldlM {α β : Type} {f : β → α → Result β}
    (hf : ∀ b x, NoDepthError (f b x)) (xs : List α) (b : β) :
    NoDepthError (xs.foldlM f b) := by
  induction xs generalizing b with
  | nil => exact noDepthError_ok b
  | cons x xs ih =>
    rw [List.foldlM_cons]
    exact (hf b x).bind fun b' => ih b'

/-- The elements of a container. -/
theorem noDepthError_encodeEach {α : Type} {encode : α → Result Bytes} {xs : List α}
    (h : ∀ x ∈ xs, NoDepthError (encode x)) : NoDepthError (encodeEach encode xs) := by
  induction xs with
  | nil => exact noDepthError_ok []
  | cons x xs ih =>
    refine (h x (by simp)).bind fun head => ?_
    refine (ih fun y hy => h y (by simp [hy])).bind fun tail => ?_
    exact noDepthError_ok _

/-- A bit of the packed part. -/
theorem noDepthError_setBitIf (condition : Bool) (bits : Bytes) (n : Nat) :
    NoDepthError (setBitIf condition bits n) := by
  unfold setBitIf
  split
  · exact (noDepthError_index _ _).bind fun _ => noDepthError_ok _
  · exact noDepthError_ok _

/-- An integer cell throws a format error at most. -/
theorem noDepthError_cellInt (field : Value) : NoDepthError (cellInt field) := by
  intro message h
  cases field <;> cases h

/-- So does a real cell. -/
theorem noDepthError_cellReal (field : Value) : NoDepthError (cellReal field) := by
  intro message h
  cases field <;> cases h

/-- So does a boolean cell. -/
theorem noDepthError_cellBool (field : Value) : NoDepthError (cellBool field) := by
  intro message h
  cases field <;> cases h

/-- A cell of the packed part. -/
theorem noDepthError_appendPackedScalar (type : DbType) (field : Value) :
    NoDepthError (appendPackedScalar type field) := by
  refine (noDepthError_cellInt field).bind fun n => ?_
  cases type with
  | r4 | r8 => exact (noDepthError_cellReal field).bind fun _ => noDepthError_ok _
  | _ => exact noDepthError_ok _

/-- The packed part as a whole. -/
theorem noDepthError_packFixed (row : PackedRowData Value) :
    NoDepthError (packFixed row) := by
  refine (NoDepthError.foldlM (fun buffer entry => ?_) _ _).bind fun buffer =>
    noDepthError_ok _
  refine (noDepthError_index _ _).bind fun column => ?_
  split
  · exact noDepthError_ok _
  refine (noDepthError_index _ _).bind fun field => ?_
  refine (noDepthError_setBitIf _ _ _).bind fun bits => ?_
  split
  · refine (noDepthError_cellBool _).bind fun bit => ?_
    exact (noDepthError_setBitIf _ _ _).bind fun _ => noDepthError_ok _
  · exact (noDepthError_appendPackedScalar _ _).bind fun _ => noDepthError_ok _

/-- A limit error is another error. -/
theorem noDepthError_limit {α : Type} (message : String) :
    NoDepthError (raise (.limit message) : Result α) := by
  intro m h
  cases h

/-- A format error is another error. -/
theorem noDepthError_format {α : Type} (message : String) :
    NoDepthError (raise (.format message) : Result α) := by
  intro m h
  cases h

/-- A row that fits: its descriptor and its values are encoded one level down. -/
theorem noDepthError_encodePackedRow {encodeNext : Value → Result Bytes}
    {levels : Nat} (hNext : ∀ w, Fits levels w → NoDepthError (encodeNext w))
    {row : PackedRowData Value} (hRow : Fits (levels + 1) (.packedRow row)) :
    NoDepthError (encodePackedRow encodeNext row) := by
  obtain ⟨hHeader, hValues⟩ := fits_packedRow.mp hRow
  unfold encodePackedRow
  split
  · exact noDepthError_limit _
  split
  · exact noDepthError_format _
  refine (hNext _ (by rw [Fits, nestingDepth_buildRowHeader]; exact hHeader)).bind
    fun header => ?_
  refine (noDepthError_packFixed row).bind fun rle => ?_
  have hTail : NoDepthError (encodeEach (encodeVariable encodeNext row.values)
      (sizeOrder row.columns)) := by
    refine noDepthError_encodeEach fun entry _ => ?_
    unfold encodeVariable
    split
    · by_cases hIn : entry.2 < row.values.length
      · rw [index_of_lt hIn]
        exact hNext _ (hValues _ (List.getElem_mem hIn))
      · intro message h
        rw [index, List.getElem?_eq_none (by omega)] at h
        cases h
    · exact noDepthError_ok _
  exact hTail.bind fun _ => noDepthError_ok _

/-- One level of the encoder. -/
theorem noDepthError_encodeKind {encodeNext : Value → Result Bytes}
    {levels : Nat} (hNext : ∀ w, Fits levels w → NoDepthError (encodeNext w))
    {v : Value} (hv : Fits (levels + 1) v) : NoDepthError (encodeKind encodeNext v) := by
  cases v with
  | tuple items =>
    show NoDepthError (encodeTuple encodeNext items)
    unfold encodeTuple
    split
    · exact noDepthError_limit _
    · refine NoDepthError.bind (noDepthError_encodeEach fun item hItem => ?_) fun _ =>
        noDepthError_ok _
      exact hNext item (fits_tuple.mp hv item hItem)
  | list items =>
    show NoDepthError (encodeList encodeNext items)
    unfold encodeList
    split
    · exact noDepthError_limit _
    · refine NoDepthError.bind (noDepthError_encodeEach fun item hItem => ?_) fun _ =>
        noDepthError_ok _
      exact hNext item (fits_list.mp hv item hItem)
  | dict entries =>
    show NoDepthError (encodeDict encodeNext entries)
    unfold encodeDict
    split
    · exact noDepthError_limit _
    · refine NoDepthError.bind (noDepthError_encodeEach fun entry hEntry => ?_) fun _ =>
        noDepthError_ok _
      obtain ⟨hKey, hValue⟩ := fits_dict.mp hv entry hEntry
      refine (hNext _ hValue).bind fun value => ?_
      exact (hNext _ hKey).bind fun _ => noDepthError_ok _
  | object type args =>
    exact (hNext args (fits_object.mp hv)).bind fun _ => noDepthError_ok _
  | objectEx isType2 data =>
    obtain ⟨hHeader, hList, hDict⟩ := fits_objectEx.mp hv
    refine (hNext _ hHeader).bind fun header => ?_
    refine NoDepthError.bind (noDepthError_encodeEach fun item hItem =>
      hNext item (hList item hItem)) fun list => ?_
    refine NoDepthError.bind (noDepthError_encodeEach fun entry hEntry => ?_) fun _ =>
      noDepthError_ok _
    obtain ⟨hKey, hValue⟩ := hDict entry hEntry
    refine (hNext _ hKey).bind fun key => ?_
    exact (hNext _ hValue).bind fun _ => noDepthError_ok _
  | subStruct value =>
    exact (hNext value (fits_subStruct.mp hv)).bind fun _ => noDepthError_ok _
  | checksumedStream checksum value =>
    exact (hNext value (fits_checksumedStream.mp hv)).bind fun _ => noDepthError_ok _
  | packedRow row => exact noDepthError_encodePackedRow hNext hv
  | _ => exact noDepthError_ok _

/-- What fits is encoded without a depth error. By induction on the levels. -/
theorem noDepthError_encodeLevels (levels : Nat) :
    ∀ v, Fits levels v → NoDepthError (encodeLevels levels v) := by
  induction levels with
  | zero => intro v hv; exact absurd hv (Nat.not_lt_zero _)
  | succ levels ih => intro v hv; exact noDepthError_encodeKind ih hv

/-- A value within the limit is encoded without a depth error. -/
theorem encode_ne_depth {v : Value} (h : v.nestingDepth ≤ MAX_MARSHAL_DEPTH) :
    NoDepthError (encode v) := by
  have hFits : Fits (MAX_MARSHAL_DEPTH + 1 - 0) v := Nat.lt_succ_of_le h
  exact (noDepthError_encodeLevels _ v hFits).bind fun _ => noDepthError_ok _

-- ---------------------------------------------------------------------------
-- The decoder with the missing check
-- ---------------------------------------------------------------------------

/-- `DecodeSavedElement`, refusing an element that does not fit where it is
referenced. -/
def fittingSavedElement (levels : Nat) : Decoder Value := do
  let value ← decodeSavedElement
  if Fits levels value then pure value
  else Reader.fail (.depth "saved element exceeds the depth limit")

/-- `DecodePackedRow`, refusing a row whose descriptor does not fit. The decoded
descriptor itself is not part of the value and is read as before. -/
def fittingPackedRow (levels : Nat) (decodeHeader decodeNext : Decoder Value) :
    Decoder Value := do
  let header ← decodeHeader
  let columns ← Reader.ofChecked (rowColumns header)
  if descriptorDepth columns < levels then decodeRowBody decodeNext columns
  else Reader.fail (.depth "row descriptor exceeds the depth limit")

/-- `DecodeOpcode` with `levels` depths left below it. -/
def fittingOpcode (levels : Nat) (decodeHeader decodeNext : Decoder Value)
    (opcode : UInt8) : Decoder Value :=
  match Opcode.ofByte? opcode with
  | some .pySavedStreamElement => fittingSavedElement (levels + 1)
  | some .pyPackedRow => fittingPackedRow levels decodeHeader decodeNext
  | _ => decodeOpcode decodeNext opcode

/-- `DecodeValue` with `levels` depths left, checking what it splices in. -/
def fittingLevels : Nat → Decoder Value
  | 0 => Reader.fail (.depth "marshal nesting exceeds the depth limit")
  | levels + 1 =>
    decodeFlagged (fittingOpcode levels (decodeLevels levels) (fittingLevels levels))

/-- `Decode` with the check. -/
def decodeFitting (stream : Bytes) (requireExactEnd : Bool) : Result Value :=
  decodeStream (fittingLevels (MAX_MARSHAL_DEPTH + 1)) stream requireExactEnd

-- ---------------------------------------------------------------------------
-- Leaves
-- ---------------------------------------------------------------------------

/-- A decoder of values without children. -/
abbrev Flat (m : Decoder Value) : Prop := Yields m fun v => v.nestingDepth = 0

/-- A reader of leaves needs no check. -/
theorem Flat.filters {m : Decoder Value} (h : Flat m) (levels : Nat) :
    Filters (Fits (levels + 1)) m m :=
  filters_of_yields fun inp c r hRun => by
    have hZero := h inp c r hRun
    show r.1.nestingDepth < levels + 1
    omega

/-- A `PyVarInteger`. -/
theorem flat_decodeVarInteger : Flat decodeVarInteger := by
  refine Yields.bind fun len => Yields.ite (yields_pure rfl) ?_
  refine Yields.ite yields_fail ?_
  exact Yields.bind fun bytes => yields_pure rfl

/-- A run of bytes. -/
theorem flat_decodeBytes {make : Bytes → Value} (message : String) (len : Nat)
    (h : ∀ bytes, (make bytes).nestingDepth = 0) : Flat (decodeBytes make message len) :=
  Yields.ite yields_fail (Yields.bind fun bytes => yields_pure (h bytes))

/-- A string of the table. -/
theorem flat_decodeStringTableItem : Flat decodeStringTableItem := by
  refine Yields.bind fun i => ?_
  cases lookupString i with
  | some text => exact yields_pure rfl
  | none => exact yields_fail

/-- UCS-2 text. -/
theorem flat_decodeWStringUcs2 (count : Nat) : Flat (decodeWStringUcs2 count) :=
  Yields.ite yields_fail (Yields.bind fun _ => Yields.bind fun _ => yields_pure rfl)

/-- A substream, which is bytes. -/
theorem flat_decodeSubStream : Flat decodeSubStream :=
  Yields.bind fun _ => Yields.bind fun _ => yields_pure rfl

-- ---------------------------------------------------------------------------
-- Rows
-- ---------------------------------------------------------------------------

/-- The cells in the slots fit. -/
def SlotsFit (levels : Nat) (entries : List (Nat × Nat))
    (values : List (Option Value)) : Prop :=
  ∀ entry ∈ entries, ∀ v, values[entry.2]? = some (some v) → Fits levels v

/-- A packed cell is a leaf. -/
theorem readPackedScalar_flat (data : Bytes) (offset : Nat) (type : DbType) :
    (readPackedScalar data offset type).Yields fun v => v.nestingDepth = 0 := by
  cases type with
  | cy | i8 | ui8 | fileTime | r8 | i4 | ui4 | r4 | i2 | ui2 =>
    exact Checked.Yields.after fun bs => Checked.yields_ok rfl
  | i1 | ui1 => exact Checked.Yields.after fun b => Checked.yields_ok rfl
  | _ => intro v h; cases h

/-- Every assigned slot holds a value without children. -/
def FlatSlots (values : List (Option Value)) : Prop :=
  ∀ slot ∈ values, ∀ v, slot = some v → v.nestingDepth = 0

/-- A leaf goes into a slot. -/
theorem FlatSlots.store {values : List (Option Value)} (h : FlatSlots values)
    {i : Nat} {value : Value} (hValue : value.nestingDepth = 0) :
    (storeSlot values i value).Yields fun values' =>
      values'.length = values.length ∧ FlatSlots values' := by
  intro values' hStore
  unfold storeSlot at hStore
  split at hStore
  · cases hStore
    refine ⟨List.length_set, fun slot hSlot v hv => ?_⟩
    rcases List.mem_or_eq_of_mem_set hSlot with hOld | rfl
    · exact h slot hOld v hv
    · cases hv
      exact hValue
  · cases hStore

/-- The packed part of a row holds only values without children. -/
theorem unpackFixed_flat (columns : List PackedColumn) (rle : Bytes) :
    (unpackFixed columns rle).Yields fun values =>
      values.length = columns.length ∧ FlatSlots values := by
  refine Checked.Yields.after fun unpacked => ?_
  split
  · intro v h; cases h
  refine Checked.Yields.bind (Checked.Yields.foldlM
    (I := fun cursor : RowCursor => cursor.values.length = columns.length ∧
      FlatSlots cursor.values) (fun entry _ cursor hCursor => ?_) _ ?_)
    fun cursor hCursor => Checked.yields_ok hCursor
  · refine Checked.Yields.after fun column => ?_
    split
    · exact Checked.yields_ok hCursor
    refine Checked.Yields.after fun isNull => ?_
    split
    · refine Checked.Yields.bind (Q := fun v : Value => v.nestingDepth = 0) ?_ ?_
      · unfold readBoolCell
        split
        · exact Checked.yields_ok rfl
        · exact Checked.Yields.after fun bit => Checked.yields_ok rfl
      · intro value hValue
        refine Checked.Yields.bind (hCursor.2.store hValue) ?_
        rintro values ⟨hLength, hFlat⟩
        exact Checked.yields_ok ⟨hLength.trans hCursor.1, hFlat⟩
    · refine Checked.Yields.bind (Q := fun v : Value => v.nestingDepth = 0) ?_ ?_
      · unfold readScalarCell
        split
        · exact Checked.yields_ok rfl
        · exact readPackedScalar_flat _ _ _
      · intro value hValue
        refine Checked.Yields.bind (hCursor.2.store hValue) ?_
        rintro values ⟨hLength, hFlat⟩
        exact Checked.yields_ok ⟨hLength.trans hCursor.1, hFlat⟩
  · refine ⟨List.length_replicate, fun slot hSlot v hv => ?_⟩
    rw [List.eq_of_mem_replicate hSlot] at hv
    cases hv

/-- The slots of a row whose values are all there. -/
theorem allSet_eq_ok {filled : List (Option Value)} {values : List Value}
    (h : allSet filled = .ok values) : filled = values.map some := by
  induction filled generalizing values with
  | nil =>
    cases h
    rfl
  | cons slot rest ih =>
    cases slot with
    | none => cases h
    | some v =>
      obtain ⟨vs, hRest, h⟩ := Checked.bind_eq_ok h
      cases h
      rw [List.map_cons, ih hRest]

section Composite

variable {levels : Nat} {strictNext decodeNext : Decoder Value}
  (hNext : Filters (Fits levels) strictNext decodeNext)

omit hNext in
/-- A slot that was stored. -/
theorem storeSlot_eq_ok {values values' : List (Option Value)} {i : Nat} {value : Value}
    (h : storeSlot values i value = .ok values') :
    i < values.length ∧ values' = values.set i (some value) := by
  unfold storeSlot at h
  split at h
  · rename_i hi
    cases h
    exact ⟨hi, rfl⟩
  · cases h

omit hNext in
/-- A round of the second column loop, inverted. -/
theorem decodeVariable_eq_ok {values : List (Option Value)} {size i : Nat}
    {inp : Input} {c : Cursor SaveTable} {r : List (Option Value) × Cursor SaveTable}
    (h : decodeVariable decodeNext values (size, i) inp c = .ok r) :
    (size ≠ 0 ∧ r = (values, c)) ∨
      (size = 0 ∧ ∃ v c₁, decodeNext inp c = .ok (v, c₁) ∧ i < values.length ∧
        r = (values.set i (some v), c₁)) := by
  unfold decodeVariable at h
  split at h
  · rename_i hZero
    obtain ⟨v, c₁, hNext, hStore⟩ := bind_eq_ok h
    obtain ⟨hStore, hCursor⟩ := ofChecked_eq_ok hStore
    obtain ⟨hi, hSet⟩ := storeSlot_eq_ok hStore
    exact Or.inr ⟨hZero, v, c₁, hNext, hi, Prod.ext hSet hCursor⟩
  · rename_i hSized
    cases h
    exact Or.inl ⟨hSized, rfl⟩

omit hNext in
/-- A slot that no entry names is left alone by the second column loop. -/
theorem yields_variable_frame (entries : List (Nat × Nat)) {i : Nat}
    (hi : i ∉ entries.map Prod.snd) :
    ∀ b, Yields (entries.foldlM (decodeVariable decodeNext) b)
      fun filled => filled[i]? = b[i]? := by
  induction entries with
  | nil => intro b; exact yields_pure rfl
  | cons entry entries ih =>
    intro b inp c r hRun
    obtain ⟨size, j⟩ := entry
    rw [List.map_cons, List.mem_cons, not_or] at hi
    rw [List.foldlM_cons] at hRun
    obtain ⟨b', c₁, hHead, hRest⟩ := bind_eq_ok hRun
    rw [ih hi.2 b' inp c₁ r hRest]
    rcases decodeVariable_eq_ok hHead with ⟨-, hSame⟩ | ⟨-, v, c₂, -, -, hSet⟩
    · cases hSame
      rfl
    · cases hSet
      exact List.getElem?_set_ne (Ne.symm hi.1)

omit hNext in
/-- The second column loop keeps the number of slots and the sized ones. -/
theorem yields_decodeVariable {columns : List PackedColumn} {entry : Nat × Nat}
    (hEntry : entry ∈ sizeOrder columns) {values : List (Option Value)}
    (hLength : values.length = columns.length)
    (hSized : SlotsFit levels ((sizeOrder columns).filter fun e => e.1 ≠ 0) values) :
    Yields (decodeVariable decodeNext values entry) fun values' =>
      values'.length = columns.length ∧
        SlotsFit levels ((sizeOrder columns).filter fun e => e.1 ≠ 0) values' := by
  intro inp c r hRun
  obtain ⟨size, i⟩ := entry
  rcases decodeVariable_eq_ok hRun with ⟨-, rfl⟩ | ⟨hZero, v, c₁, -, -, rfl⟩
  · exact ⟨hLength, hSized⟩
  refine ⟨by rw [List.length_set]; exact hLength, fun e he w hw => ?_⟩
  -- a sized column is another column
  obtain ⟨hMem, hNonzero⟩ := List.mem_filter.mp he
  have hOther : i ≠ e.2 := by
    intro hSame
    obtain ⟨column, hColumn, hSize⟩ := mem_sizeOrder.mp hMem
    obtain ⟨column', hColumn', hSize'⟩ := mem_sizeOrder.mp hEntry
    simp only at hColumn' hSize'
    rw [hSame, hColumn] at hColumn'
    cases hColumn'
    simp only [ne_eq, decide_not, Bool.not_eq_true', decide_eq_false_iff_not] at hNonzero
    omega
  rw [List.getElem?_set_ne hOther] at hw
  exact hSized e he w hw

include hNext

/-- A column outside the packed part, checked as it is read. -/
theorem filters_decodeVariable {done : List (Nat × Nat)} {entry : Nat × Nat}
    {values : List (Option Value)}
    (hDone : SlotsFit levels (done.filter fun e => e.1 = 0) values) :
    Filters (SlotsFit levels ((done ++ [entry]).filter fun e => e.1 = 0))
      (decodeVariable strictNext values entry) (decodeVariable decodeNext values entry) := by
  obtain ⟨size, i⟩ := entry
  unfold decodeVariable
  rw [List.filter_append]
  by_cases hZero : size = 0
  · rw [if_pos hZero, if_pos hZero]
    subst hZero
    refine hNext.bind (fun v hv => filters_of_yields ?_) ?_
    · -- a value that fits, in its slot
      intro inp c r hRun e he w hw
      obtain ⟨hi, hSet⟩ := storeSlot_eq_ok (ofChecked_eq_ok hRun).1
      rw [hSet] at hw
      by_cases hSame : i = e.2
      · rw [← hSame, List.getElem?_set_self hi] at hw
        cases hw
        exact hv
      · rw [List.getElem?_set_ne hSame] at hw
        rcases List.mem_append.mp he with hOld | hNew
        · exact hDone e hOld w hw
        · obtain ⟨hMem, -⟩ := List.mem_filter.mp hNew
          rw [List.mem_singleton] at hMem
          exact absurd (by rw [hMem]) hSame
    · intro v inp c r hRun hFit
      obtain ⟨hi, hSet⟩ := storeSlot_eq_ok (ofChecked_eq_ok hRun).1
      refine hFit (0, i) (List.mem_append_right _ (by simp)) v ?_
      rw [hSet, List.getElem?_set_self hi]
  · rw [if_neg hZero, if_neg hZero]
    refine filters_of_yields (yields_pure ?_)
    rw [List.filter_singleton]
    simpa [hZero] using hDone

/-- The body of a row whose descriptor fits. -/
theorem filters_decodeRowBody {columns : List PackedColumn}
    (hDescriptor : descriptorDepth columns < levels) :
    Filters (Fits (levels + 1)) (decodeRowBody strictNext columns)
      (decodeRowBody decodeNext columns) := by
  refine Filters.after fun rleLen => Filters.ite (filters_fail _ _) ?_
  refine Filters.after fun rle => ?_
  have hFixed : Yields (ofChecked (unpackFixed columns rle) : Decoder _) fun values =>
      values.length = columns.length ∧
        SlotsFit levels ((sizeOrder columns).filter fun e => e.1 ≠ 0) values := by
    intro inp c r hRun
    obtain ⟨hLength, hFlat⟩ := unpackFixed_flat columns rle r.1 (ofChecked_eq_ok hRun).1
    refine ⟨hLength, fun e he v hv => ?_⟩
    have hZero := hFlat _ (List.mem_of_getElem? hv) v rfl
    show v.nestingDepth < levels
    omega
  refine (filters_same _).bindWith hFixed (fun fixed hFixed _ => ?_)
    fun _ _ _ _ _ _ _ => trivial
  have hKeep : ∀ entry ∈ sizeOrder columns, ∀ values : List (Option Value),
      (values.length = columns.length ∧
        SlotsFit levels ((sizeOrder columns).filter fun e => e.1 ≠ 0) values) →
      Yields (decodeVariable decodeNext values entry) fun values' =>
        values'.length = columns.length ∧
          SlotsFit levels ((sizeOrder columns).filter fun e => e.1 ≠ 0) values' :=
    fun entry hEntry values hValues => yields_decodeVariable hEntry hValues.1 hValues.2
  have hLoop := Filters.foldlM
    (P := fun done values => SlotsFit levels (done.filter fun e => e.1 = 0) values)
    hKeep (fun done entry todo _ values _ hDone => filters_decodeVariable hNext hDone)
    (fun done todo hSplit values inp c r hRun hEnd e he v hv => by
      -- what was stored before is still there at the end
      have hNodup := nodup_sizeOrder_indices columns
      rw [hSplit, List.map_append] at hNodup
      have hDone := (List.mem_filter.mp he).1
      have hOut : e.2 ∉ todo.map Prod.snd := fun hIn =>
        (List.nodup_append.mp hNodup).2.2 e.2 (List.mem_map_of_mem hDone) e.2 hIn rfl
      have hFrame := yields_variable_frame todo hOut values inp c r hRun
      refine hEnd e ?_ v (hFrame.trans hv)
      rw [hSplit, List.filter_append]
      exact List.mem_append_left _ he)
    fixed hFixed (by intro e he; simp at he)
  refine hLoop.bindWith (Yields.foldlM hKeep fixed hFixed) ?_ ?_
  · -- every slot holds a cell that fits, so the row does
    intro filled hFilled hVariable
    refine filters_of_yields ?_
    rintro inp c ⟨result, c'⟩ hRun
    obtain ⟨values, c₁, hAll, hRow⟩ := bind_eq_ok hRun
    have hMap := allSet_eq_ok (ofChecked_eq_ok hAll).1
    cases hRow
    refine fits_packedRow.mpr ⟨hDescriptor, fun v hv => ?_⟩
    obtain ⟨i, hi, rfl⟩ := List.getElem_of_mem hv
    have hColumn : i < columns.length := by
      rw [← hFilled.1, hMap, List.length_map]
      exact hi
    have hSlot : filled[i]? = some (some values[i]) := by
      rw [hMap, List.getElem?_map, List.getElem?_eq_getElem hi, Option.map_some]
    have hEntry := exists_mem_sizeOrder hColumn
    by_cases hZero : dbTypeSizeBits columns[i].type = 0
    · exact hVariable _ (List.mem_filter.mpr ⟨hEntry, by simpa using hZero⟩) _ hSlot
    · exact hFilled.2 _ (List.mem_filter.mpr ⟨hEntry, by simpa using hZero⟩) _ hSlot
  · rintro filled inp c ⟨result, c'⟩ - hRun hFits e he v hv
    obtain ⟨values, c₁, hAll, hRow⟩ := bind_eq_ok hRun
    have hMap := allSet_eq_ok (ofChecked_eq_ok hAll).1
    cases hRow
    refine (fits_packedRow.mp hFits).2 v ?_
    have hIn := List.mem_of_getElem? hv
    rw [hMap] at hIn
    obtain ⟨w, hw, hEq⟩ := List.mem_map.mp hIn
    cases hEq
    exact hw

omit hNext in
/-- The row has the columns of its descriptor. -/
theorem yields_decodeRowBody (columns : List PackedColumn) :
    Yields (decodeRowBody decodeNext columns) fun v =>
      ∃ values, v = .packedRow ⟨columns, values⟩ := by
  refine Yields.bind fun rleLen => Yields.ite yields_fail ?_
  refine Yields.bind fun rle => Yields.bind fun fixed => Yields.bind fun filled => ?_
  exact Yields.bind fun values => yields_pure ⟨values, rfl⟩

/-- A packed row: the checked decoder looks at the descriptor first. -/
theorem filters_fittingPackedRow :
    Filters (Fits (levels + 1)) (fittingPackedRow levels decodeNext strictNext)
      (decodePackedRow decodeNext) := by
  refine Filters.after fun header => Filters.after fun columns => ?_
  by_cases hDescriptor : descriptorDepth columns < levels
  · rw [if_pos hDescriptor]
    exact filters_decodeRowBody hNext hDescriptor
  · rw [if_neg hDescriptor]
    refine filters_refuse fun inp c r hRun hFits => ?_
    obtain ⟨values, hRow⟩ := yields_decodeRowBody columns inp c r hRun
    rw [hRow] at hFits
    exact hDescriptor (fits_packedRow.mp hFits).1

-- ---------------------------------------------------------------------------
-- Containers
-- ---------------------------------------------------------------------------

/-- A tuple, its elements checked. -/
theorem filters_decodeTuple (count : Nat) :
    Filters (Fits (levels + 1)) (decodeTuple strictNext count)
      (decodeTuple decodeNext count) :=
  (hNext.replicate count).map fun _ => fits_tuple

/-- A list, its elements checked. -/
theorem filters_decodeList (count : Nat) :
    Filters (Fits (levels + 1)) (decodeList strictNext count)
      (decodeList decodeNext count) :=
  (hNext.replicate count).map fun _ => fits_list

/-- An entry whose value comes first. -/
theorem filters_decodeValueKey :
    Filters (EntryFits levels) (decodeValueKey strictNext)
      (decodeValueKey decodeNext) := by
  refine hNext.bind (fun value hValue => hNext.map fun key => ?_) ?_
  · exact ⟨fun h => h.1, fun h => ⟨h, hValue⟩⟩
  · rintro value inp c ⟨entry, c'⟩ hRun hEntry
    obtain ⟨key, c₁, -, hRest⟩ := bind_eq_ok hRun
    cases hRest
    exact hEntry.2

/-- An entry whose key comes first. -/
theorem filters_decodeKeyValue :
    Filters (EntryFits levels) (decodeKeyValue strictNext)
      (decodeKeyValue decodeNext) := by
  refine hNext.bind (fun key hKey => hNext.map fun value => ?_) ?_
  · exact ⟨fun h => h.2, fun h => ⟨hKey, h⟩⟩
  · rintro key inp c ⟨entry, c'⟩ hRun hEntry
    obtain ⟨value, c₁, -, hRest⟩ := bind_eq_ok hRun
    cases hRest
    exact hEntry.1

/-- A dict, its entries checked. -/
theorem filters_decodeDict (count : Nat) :
    Filters (Fits (levels + 1)) (decodeDict strictNext count)
      (decodeDict decodeNext count) :=
  ((filters_decodeValueKey hNext).replicate count).map fun _ => fits_dict

/-- The type string of an object is not a child of it; it is read one depth
below all the same, and fits there whenever the arguments do. -/
theorem filters_decodeObject :
    Filters (Fits (levels + 1)) (decodeObject strictNext) (decodeObject decodeNext) := by
  refine hNext.bind (fun type _ => ?_) ?_
  · cases type with
    | string name => exact hNext.map fun _ => fits_object
    | _ => exact filters_fail _ _
  · rintro type inp c ⟨result, c'⟩ hRun hFits
    cases type with
    | string name =>
      obtain ⟨args, c₁, -, hRest⟩ := bind_eq_ok hRun
      cases hRest
      have hArgs := fits_object.mp hFits
      show 0 < levels
      exact Nat.lt_of_le_of_lt (Nat.zero_le _) hArgs
    | _ => cases hRun

omit hNext in
/-- One round of a sequence up to its terminator. -/
theorem filters_untilTerminator {α : Type} {p : α → Prop} {item' item : Decoder α}
    (hItem : Filters p item' item) (message : String) (acc : List α)
    (hAcc : ∀ a ∈ acc, p a) :
    Filters (Sum.elim (fun acc => ∀ a ∈ acc, p a) fun acc => ∀ a ∈ acc, p a)
      (untilTerminator message item' acc) (untilTerminator message item acc) := by
  refine Filters.after fun _ => Filters.after fun next => Filters.ite ?_ ?_
  · exact Filters.after fun _ => filters_of_yields (yields_pure hAcc)
  · refine hItem.map fun a => ?_
    constructor
    · intro h
      exact h a (by simp)
    · intro ha x hx
      rcases List.mem_append.mp hx with hOld | hNew
      · exact hAcc x hOld
      · rw [List.mem_singleton] at hNew
        exact hNew ▸ ha

omit hNext in
/-- What an ObjectEx loop has collected is in what it returns. -/
theorem subset_of_iterate {α : Type} {item : Decoder α} {message : String} (fuel : Nat) :
    ∀ (acc : List α) inp c r,
      Reader.iterate (untilTerminator message item) fuel acc inp c = .ok r →
      acc ⊆ r.1 := by
  induction fuel with
  | zero => intro acc inp c r hRun; cases hRun
  | succ fuel ih =>
    intro acc inp c r hRun
    obtain ⟨out, c₁, hStep, hRest⟩ := bind_eq_ok hRun
    -- a round leaves with `acc`, or goes on with one more element
    have hOut : out = .inr acc ∨ ∃ a, out = .inl (acc ++ [a]) := by
      have hYields : Yields (untilTerminator message item acc) fun out =>
          out = .inr acc ∨ ∃ a, out = .inl (acc ++ [a]) := by
        refine Yields.bind fun _ => Yields.bind fun next => Yields.ite ?_ ?_
        · exact Yields.bind fun _ => yields_pure (Or.inl rfl)
        · exact Yields.bind fun a => yields_pure (Or.inr ⟨a, rfl⟩)
      exact hYields inp c (out, c₁) hStep
    rcases hOut with rfl | ⟨a, rfl⟩
    · cases hRest
      exact List.Subset.refl _
    · exact List.Subset.trans (List.subset_append_left acc [a]) (ih _ inp c₁ r hRest)

omit hNext in
/-- The whole sequence. The two readers stop after the same round. -/
theorem filters_terminated {α : Type} {p : α → Prop} {item' item : Decoder α}
    (hItem : Filters p item' item) (message : String) :
    Filters (fun xs => ∀ a ∈ xs, p a)
      (Reader.iterate (untilTerminator message item') (MAX_STREAM_BYTES + 1) [])
      (Reader.iterate (untilTerminator message item) (MAX_STREAM_BYTES + 1) []) := by
  refine Filters.iterate (I := fun acc => ∀ a ∈ acc, p a)
    (fun acc hAcc => filters_untilTerminator hItem message acc hAcc) ?_ _ [] (by simp)
  intro fuel acc inp c r hRun hAll a ha
  exact hAll a (subset_of_iterate fuel acc inp c r hRun ha)

/-- An `ObjectEx`: its header, then the two sequences. -/
theorem filters_decodeObjectEx (isType2 : Bool) :
    Filters (Fits (levels + 1)) (decodeObjectEx strictNext isType2)
      (decodeObjectEx decodeNext isType2) := by
  have hList := filters_terminated hNext "object ex list is unterminated"
  have hDict := filters_terminated (filters_decodeKeyValue hNext)
    "object ex dict is unterminated"
  refine hNext.bind (fun header hHeader => hList.bind (fun list hItems =>
    hDict.map fun dict => ?_) ?_) ?_
  · rw [fits_objectEx]
    exact ⟨fun h => h.2.2, fun h => ⟨hHeader, hItems, h⟩⟩
  · rintro list inp c ⟨result, c'⟩ hRun hFits
    obtain ⟨dict, c₁, -, hRest⟩ := bind_eq_ok hRun
    cases hRest
    exact (fits_objectEx.mp hFits).2.1
  · rintro header inp c ⟨result, c'⟩ hRun hFits
    obtain ⟨list, c₁, -, hRun⟩ := bind_eq_ok hRun
    obtain ⟨dict, c₂, -, hRest⟩ := bind_eq_ok hRun
    cases hRest
    exact (fits_objectEx.mp hFits).1

-- ---------------------------------------------------------------------------
-- The decoder
-- ---------------------------------------------------------------------------

/-- Whatever the opcode, the checked decoder keeps what fits. -/
theorem filters_fittingOpcode (opcode : UInt8) :
    Filters (Fits (levels + 1)) (fittingOpcode levels decodeNext strictNext opcode)
      (decodeOpcode decodeNext opcode) := by
  unfold fittingOpcode decodeOpcode
  cases Opcode.ofByte? opcode with
  | none => exact filters_fail _ _
  | some op =>
    cases op with
    | pySavedStreamElement => exact Filters.check _
    | pyPackedRow => exact filters_fittingPackedRow hNext
    | pyOneTuple =>
      refine hNext.map fun first => fits_tuple.trans ?_
      simp
    | pyTwoTuple =>
      refine hNext.bind (fun first hFirst => hNext.map fun second =>
        fits_tuple.trans ?_) ?_
      · simp [hFirst]
      · rintro first inp c ⟨result, c'⟩ hRun hFits
        obtain ⟨second, c₁, -, hRest⟩ := bind_eq_ok hRun
        cases hRest
        exact fits_tuple.mp hFits first (by simp)
    | pyOneList =>
      refine hNext.map fun first => fits_list.trans ?_
      simp
    | pyTuple => exact Filters.after fun count => filters_decodeTuple hNext count
    | pyList => exact Filters.after fun count => filters_decodeList hNext count
    | pyDict => exact Filters.after fun count => filters_decodeDict hNext count
    | pyObject => exact filters_decodeObject hNext
    | pyObjectEx1 => exact filters_decodeObjectEx hNext false
    | pyObjectEx2 => exact filters_decodeObjectEx hNext true
    | pySubStruct => exact hNext.map fun _ => fits_subStruct
    | pyChecksumedStream =>
      exact Filters.after fun checksum => hNext.map fun _ => fits_checksumedStream
    | pyVarInteger => exact flat_decodeVarInteger.filters levels
    | pyShortString =>
      exact Filters.after fun len =>
        (flat_decodeBytes _ len.toNat fun _ => rfl).filters levels
    | pyLongString | pyWStringUTF8 | pyToken | pyBuffer | cPicked =>
      exact Filters.after fun len => (flat_decodeBytes _ len fun _ => rfl).filters levels
    | pyStringTableItem => exact flat_decodeStringTableItem.filters levels
    | pyWStringUCS2Char => exact (flat_decodeWStringUcs2 1).filters levels
    | pyWStringUCS2 =>
      exact Filters.after fun count => (flat_decodeWStringUcs2 count).filters levels
    | pySubStream => exact flat_decodeSubStream.filters levels
    | packedTerminator => exact filters_fail _ _
    | pyByte | pySignedShort | pyLong | pyLongLong | pyReal | pyCharString =>
      exact Flat.filters (Yields.bind fun _ => yields_pure rfl) levels
    | _ => exact Flat.filters (yields_pure rfl) levels

omit hNext in
/-- The flags around an opcode do not change what it returns. -/
theorem filters_decodeFlagged {p : Value → Prop} {body' body : UInt8 → Decoder Value}
    (h : ∀ opcode, Filters p (body' opcode) (body opcode)) :
    Filters p (decodeFlagged body') (decodeFlagged body) := by
  refine Filters.after fun raw => Filters.ite (filters_fail _ _) (Filters.ite ?_ (h _))
  refine Filters.after fun storageIndex => (h _).bind (fun result hResult => ?_) ?_
  · exact Filters.after fun _ => filters_of_yields (yields_pure hResult)
  · rintro result inp c ⟨final, c'⟩ hRun hFinal
    obtain ⟨_, c₁, -, hRest⟩ := bind_eq_ok hRun
    cases hRest
    exact hFinal

end Composite

/-- **The check filters by depth.** With `levels` depths left the checked decoder
accepts what the decoder accepts, if and only if the value fits. -/
theorem filters_fittingLevels (levels : Nat) :
    Filters (Fits levels) (fittingLevels levels) (decodeLevels levels) := by
  induction levels with
  | zero => exact filters_fail _ _
  | succ levels ih => exact filters_decodeFlagged fun opcode => filters_fittingOpcode ih opcode

/-- A filtered root filters whole streams. -/
theorem decodeStream_filters {p : Value → Prop} {strict loose : Decoder Value}
    (h : Filters p strict loose) (stream : Bytes) (exact : Bool) (v : Value) :
    decodeStream strict stream exact = .ok v ↔
      decodeStream loose stream exact = .ok v ∧ p v := by
  unfold decodeStream
  split
  · constructor
    · intro hRun; cases hRun
    · rintro ⟨hRun, -⟩; cases hRun
  cases readHeader (Input.whole stream) ⟨0, []⟩ with
  | error e =>
    constructor
    · intro hRun; cases hRun
    · rintro ⟨hRun, -⟩; cases hRun
  | ok head =>
    obtain ⟨saveCount, cursor⟩ := head
    have hRoot := h ⟨stream, valueEnd stream.length cursor.offset saveCount⟩
      ⟨cursor.offset, List.replicate saveCount none⟩
    constructor
    · intro hRun
      obtain ⟨_, hHead, hRun⟩ := Checked.bind_eq_ok hRun
      cases hHead
      obtain ⟨⟨result, c⟩, hStrict, hRun⟩ := Checked.bind_eq_ok hRun
      obtain ⟨hLoose, hResult⟩ := (hRoot (result, c)).mp hStrict
      simp only at hRun
      refine ⟨?_, ?_⟩
      · show (loose ⟨stream, _⟩ ⟨cursor.offset, _⟩ >>= _) = _
        rw [hLoose]
        exact hRun
      · split at hRun
        · cases hRun
        · cases hRun
          exact hResult
    · rintro ⟨hRun, hv⟩
      obtain ⟨_, hHead, hRun⟩ := Checked.bind_eq_ok hRun
      cases hHead
      obtain ⟨⟨result, c⟩, hLoose, hRun⟩ := Checked.bind_eq_ok hRun
      simp only at hRun
      have hSame : result = v := by
        split at hRun
        · cases hRun
        · exact Except.ok.inj hRun
      have hStrict := (hRoot (result, c)).mpr ⟨hLoose, hSame ▸ hv⟩
      show (strict ⟨stream, _⟩ ⟨cursor.offset, _⟩ >>= _) = _
      rw [hStrict]
      exact hRun

/-- Everything the stream splices into its value fits where it is spliced in:
the checked decoder accepts the stream. -/
def SplicesFit (stream : Bytes) (exact : Bool) : Prop :=
  ∃ w, decodeFitting stream exact = .ok w

/--
**Depth of decoded values.** For a stream that `Decode` accepts, the value nests
no deeper than `MAX_MARSHAL_DEPTH`, and encodes without a depth error, exactly
when everything the stream splices in fits where it is spliced in.
-/
theorem decode_depth_iff (stream : Bytes) (exact : Bool) (v : Value)
    (hDec : decode stream exact = .ok v) :
    (v.nestingDepth ≤ MAX_MARSHAL_DEPTH ∧
      ∀ message, encode v ≠ .error (.thrown (.depth message))) ↔
    SplicesFit stream exact := by
  have hFilter := decodeStream_filters (filters_fittingLevels (MAX_MARSHAL_DEPTH + 1))
    stream exact
  constructor
  · rintro ⟨hDepth, -⟩
    exact ⟨v, (hFilter v).mpr ⟨hDec, Nat.lt_succ_of_le hDepth⟩⟩
  · rintro ⟨w, hFit⟩
    obtain ⟨hSame, hw⟩ := (hFilter w).mp hFit
    -- the checked decoder returns the same value
    have hEq : w = v := Except.ok.inj (hSame.symm.trans hDec)
    have hDepth : v.nestingDepth ≤ MAX_MARSHAL_DEPTH := Nat.le_of_lt_succ (hEq ▸ hw)
    exact ⟨hDepth, encode_ne_depth hDepth⟩

/-- An empty tuple stored and referenced once, inside a two-tuple. -/
theorem decode_depth_iff_reference :
    Value.nestingDepth (.tuple [.tuple [], .tuple []]) ≤ MAX_MARSHAL_DEPTH ∧
      SplicesFit [0x7E, 1, 0, 0, 0, 0x2C, 0x64, 1, 0, 0, 0, 0x1B, 1, 0, 0, 0, 0] true := by
  have hDec : decode [0x7E, 1, 0, 0, 0, 0x2C, 0x64, 1, 0, 0, 0, 0x1B, 1, 0, 0, 0, 0] true =
      .ok (.tuple [.tuple [], .tuple []]) := rfl
  have hDepth : Value.nestingDepth (.tuple [.tuple [], .tuple []]) ≤ MAX_MARSHAL_DEPTH := by
    decide
  exact ⟨hDepth, (decode_depth_iff _ _ _ hDec).mp ⟨hDepth, encode_ne_depth hDepth⟩⟩

/-- A stream with one saved element: sixty nested tuples are stored, and a
reference to them stands inside sixty more. -/
def splicedStream : Bytes :=
  [0x7E, 1, 0, 0, 0] ++ [0x2C] ++ [0x65, 1, 0, 0, 0] ++ List.replicate 59 0x25 ++ [0x24] ++
    List.replicate 60 0x25 ++ [0x1B, 1] ++ [0, 0, 0, 0]

/-- `Decode` accepts it; its value is deeper than the limit and `Encode` refuses
it. -/
theorem decode_splicedStream_deep :
    ∃ v, decode splicedStream true = .ok v ∧ MAX_MARSHAL_DEPTH < v.nestingDepth ∧
      ∃ message, encode v = .error (.thrown (.depth message)) := by
  have hRun : ∃ v, decode splicedStream true = .ok v ∧ MAX_MARSHAL_DEPTH < v.nestingDepth ∧
      encode v = .error (.thrown (.depth "marshal nesting exceeds the depth limit")) := by
    decide +kernel
  obtain ⟨v, hDec, hDeep, hThrown⟩ := hRun
  exact ⟨v, hDec, hDeep, _, hThrown⟩

end Ithax.Marshal
