import Ithax.Marshal.Depth
import Ithax.Marshal.RoundTrip

/-!
# What the encoder accepts

`EncodeValue` checks the depth, the number of elements of a container and, for a packed
row, its columns and the kinds of its fixed-size cells. Nothing else can stop it, so its
domain is a property of the value alone.

## Results

* `encodable_packedRow` — one level of a row: its own checks, and its cells a level down.
* `encodable_iff`       — the values that are encoded with some levels left.
* `encode_ok_iff`       — the values that `Encode` accepts.
-/

namespace Ithax.Marshal

open Ithax.Lib

/-- The value is encoded with `levels` depths left. -/
def Encodable (levels : Nat) (v : Value) : Prop := ∃ bytes, encodeLevels levels v = .ok bytes

/-- What `EncodeValue` checks of a value before its children. -/
def Admissible : Value → Prop
  | .tuple items | .list items => items.length ≤ MAX_CONTAINER_COUNT
  | .dict entries => entries.length ≤ MAX_CONTAINER_COUNT
  | .packedRow row => row.columns.length ≤ kMaxPackedRowColumns ∧ Packable row
  | _ => True

-- ---------------------------------------------------------------------------
-- Sequences
-- ---------------------------------------------------------------------------

/-- A sequence is encoded when each of its elements is. -/
theorem encodeEach_isOk_iff {α : Type} {encode : α → Result Bytes} {xs : List α} :
    (∃ body, encodeEach encode xs = .ok body) ↔ ∀ x ∈ xs, ∃ bytes, encode x = .ok bytes := by
  constructor
  · rintro ⟨body, hBody⟩ x hx
    obtain ⟨enc, hEach, -⟩ := encodeEach_eq_ok hBody
    exact ⟨enc x, hEach x hx⟩
  · intro h
    induction xs with
    | nil => exact ⟨[], rfl⟩
    | cons x xs ih =>
      obtain ⟨head, hHead⟩ := h x List.mem_cons_self
      obtain ⟨tail, hTail⟩ := ih fun y hy => h y (List.mem_cons_of_mem _ hy)
      refine ⟨head ++ tail, ?_⟩
      rw [encodeEach, hHead, hTail]
      rfl

/-- A last step that only builds the result. -/
theorem bind_isOk_iff {α β : Type} {m : Result α} {f : α → β} :
    (∃ b, (do let a ← m; .ok (f a) : Result β) = .ok b) ↔ ∃ a, m = .ok a := by
  constructor
  · rintro ⟨b, h⟩
    obtain ⟨a, ha, -⟩ := Checked.bind_eq_ok h
    exact ⟨a, ha⟩
  · rintro ⟨a, rfl⟩
    exact ⟨f a, rfl⟩

/-- Two steps and the result. -/
theorem bind₂_isOk_iff {α β γ : Type} {m : Result α} {n : Result β} {f : α → β → γ} :
    (∃ c, (do let a ← m; let b ← n; .ok (f a b) : Result γ) = .ok c) ↔
      (∃ a, m = .ok a) ∧ ∃ b, n = .ok b := by
  constructor
  · rintro ⟨c, h⟩
    obtain ⟨a, ha, h⟩ := Checked.bind_eq_ok h
    obtain ⟨b, hb, -⟩ := Checked.bind_eq_ok h
    exact ⟨⟨a, ha⟩, b, hb⟩
  · rintro ⟨⟨a, rfl⟩, b, rfl⟩
    exact ⟨f a b, rfl⟩

/-- A count that is checked first. -/
theorem limited_isOk_iff {α : Type} {n bound : Nat} {e : MarshalError} {m : Result α} :
    (∃ a, (if n > bound then raise e else m) = .ok a) ↔ n ≤ bound ∧ ∃ a, m = .ok a := by
  by_cases h : n > bound
  · rw [if_pos h]
    constructor
    · rintro ⟨a, ha⟩
      cases ha
    · rintro ⟨hLe, -⟩
      omega
  · rw [if_neg h]
    exact (and_iff_right (Nat.le_of_not_lt h)).symm

-- ---------------------------------------------------------------------------
-- One level
-- ---------------------------------------------------------------------------

section Composite

variable {levels : Nat}

/-- A tuple: its length and its elements. -/
theorem encodable_tuple {items : List Value} :
    Encodable (levels + 1) (.tuple items) ↔
      items.length ≤ MAX_CONTAINER_COUNT ∧ ∀ item ∈ items, Encodable levels item := by
  show (∃ bytes, encodeTuple (encodeLevels levels) items = .ok bytes) ↔ _
  rw [encodeTuple, limited_isOk_iff, bind_isOk_iff, encodeEach_isOk_iff]
  rfl

/-- A list: its length and its elements. -/
theorem encodable_list {items : List Value} :
    Encodable (levels + 1) (.list items) ↔
      items.length ≤ MAX_CONTAINER_COUNT ∧ ∀ item ∈ items, Encodable levels item := by
  show (∃ bytes, encodeList (encodeLevels levels) items = .ok bytes) ↔ _
  rw [encodeList, limited_isOk_iff, bind_isOk_iff, encodeEach_isOk_iff]
  rfl

/-- The halves of an entry, in either order. -/
theorem forall_entries_iff {p : Value → Prop} {entries : List (DictEntry Value)} :
    (∀ entry ∈ entries, p entry.key ∧ p entry.value) ↔
      ∀ child ∈ entries.flatMap fun entry => [entry.key, entry.value], p child := by
  simp only [List.mem_flatMap, List.mem_cons, List.not_mem_nil, or_false]
  constructor
  · rintro h child ⟨entry, hEntry, rfl | rfl⟩
    · exact (h entry hEntry).1
    · exact (h entry hEntry).2
  · intro h entry hEntry
    exact ⟨h _ ⟨entry, hEntry, Or.inl rfl⟩, h _ ⟨entry, hEntry, Or.inr rfl⟩⟩

/-- A dict: its length, its keys and its values. -/
theorem encodable_dict {entries : List (DictEntry Value)} :
    Encodable (levels + 1) (.dict entries) ↔ entries.length ≤ MAX_CONTAINER_COUNT ∧
      ∀ entry ∈ entries, Encodable levels entry.key ∧ Encodable levels entry.value := by
  show (∃ bytes, encodeDict (encodeLevels levels) entries = .ok bytes) ↔ _
  rw [encodeDict, limited_isOk_iff, bind_isOk_iff, encodeEach_isOk_iff]
  refine and_congr_right fun _ => forall₂_congr fun entry _ => ?_
  rw [encodeValueKey, bind₂_isOk_iff]
  exact and_comm

/-- An `ObjectEx`: the header and what is in both sequences. Their lengths are not checked. -/
theorem encodable_objectEx {isType2 : Bool} {data : ObjectExData Value} :
    Encodable (levels + 1) (.objectEx isType2 data) ↔ Encodable levels data.header ∧
      (∀ item ∈ data.list, Encodable levels item) ∧
      ∀ entry ∈ data.dict, Encodable levels entry.key ∧ Encodable levels entry.value := by
  have hDict : (∃ dict, encodeEach (encodeKeyValue (encodeLevels levels)) data.dict = .ok dict) ↔
      ∀ entry ∈ data.dict, Encodable levels entry.key ∧ Encodable levels entry.value := by
    rw [encodeEach_isOk_iff]
    refine forall₂_congr fun entry _ => ?_
    rw [encodeKeyValue, bind₂_isOk_iff]
    rfl
  have hList : (∃ list, encodeEach (encodeLevels levels) data.list = .ok list) ↔
      ∀ item ∈ data.list, Encodable levels item := encodeEach_isOk_iff
  rw [← hDict, ← hList]
  constructor
  · rintro ⟨bytes, h⟩
    change encodeObjectEx (encodeLevels levels) isType2 data = .ok bytes at h
    obtain ⟨header, hHeader, h⟩ := Checked.bind_eq_ok h
    obtain ⟨list, hItems, h⟩ := Checked.bind_eq_ok h
    obtain ⟨dict, hEntries, -⟩ := Checked.bind_eq_ok h
    exact ⟨⟨header, hHeader⟩, ⟨list, hItems⟩, dict, hEntries⟩
  · rintro ⟨⟨header, hHeader⟩, ⟨list, hItems⟩, dict, hEntries⟩
    show ∃ bytes, encodeObjectEx (encodeLevels levels) isType2 data = .ok bytes
    rw [encodeObjectEx, hHeader, hItems, hEntries]
    exact ⟨_, rfl⟩

/-- An object: its arguments. -/
theorem encodable_object {type : Bytes} {args : Value} :
    Encodable (levels + 1) (.object type args) ↔ Encodable levels args := by
  show (∃ bytes, encodeObject (encodeLevels levels) type args = .ok bytes) ↔ _
  rw [encodeObject, bind_isOk_iff]
  rfl

/-- A struct: its value. -/
theorem encodable_subStruct {value : Value} :
    Encodable (levels + 1) (.subStruct value) ↔ Encodable levels value :=
  bind_isOk_iff

/-- A checksummed value: the value. -/
theorem encodable_checksumedStream {checksum : UInt32} {value : Value} :
    Encodable (levels + 1) (.checksumedStream checksum value) ↔ Encodable levels value :=
  bind_isOk_iff

/-- A size-0 cell is encoded as a value, any other is not looked at. -/
theorem encodeVariable_isOk_iff {values : List Value} {size i : Nat} {value : Value}
    (hValue : values[i]? = some value) :
    (∃ bytes, encodeVariable (encodeLevels levels) values (size, i) = .ok bytes) ↔
      (size = 0 → Encodable levels value) := by
  unfold encodeVariable
  by_cases hZero : size = 0
  · rw [if_pos hZero, index, hValue]
    exact (imp_iff_right hZero).symm
  · rw [if_neg hZero]
    exact ⟨fun _ h => absurd h hZero, fun _ => ⟨[], rfl⟩⟩

/-- A packed row: its sized cells are packed, and the others are values of their own. -/
theorem encodable_packedRow {row : PackedRowData Value} :
    Encodable (levels + 1) (.packedRow row) ↔
      row.columns.length ≤ kMaxPackedRowColumns ∧ Packable row ∧
      Encodable levels (buildRowHeader row.columns) ∧
      ∀ cell ∈ row.columns.zip row.values, dbTypeSizeBits cell.1.type = 0 →
        Encodable levels cell.2 := by
  show (∃ bytes, encodePackedRow (encodeLevels levels) row = .ok bytes) ↔ _
  rw [encodePackedRow, limited_isOk_iff]
  refine and_congr_right fun _ => ?_
  by_cases hLength : row.values.length = row.columns.length
  · rw [if_neg (not_not.mpr hLength)]
    constructor
    · rintro ⟨bytes, h⟩
      obtain ⟨header, hHeader, h⟩ := Checked.bind_eq_ok h
      obtain ⟨rle, hFixed, h⟩ := Checked.bind_eq_ok h
      obtain ⟨unpacked, hVariable, -⟩ := Checked.bind_eq_ok h
      refine ⟨packable_of_packFixed hLength hFixed, ⟨header, hHeader⟩, ?_⟩
      intro cell hCell hZero
      obtain ⟨i, hi⟩ := List.mem_iff_getElem?.mp hCell
      obtain ⟨hColumn, hValue⟩ := List.getElem?_zip_eq_some.mp hi
      have hEntry : (dbTypeSizeBits cell.1.type, i) ∈ sizeOrder row.columns :=
        mem_sizeOrder.mpr ⟨cell.1, hColumn, rfl⟩
      exact (encodeVariable_isOk_iff hValue).mp
        (encodeEach_isOk_iff.mp ⟨unpacked, hVariable⟩ _ hEntry) hZero
    · rintro ⟨hRow, ⟨header, hHeader⟩, hCells⟩
      obtain ⟨buffer, -, hFixed⟩ := exists_packState hRow
      have hEach : ∀ entry ∈ sizeOrder row.columns, ∃ bytes,
          encodeVariable (encodeLevels levels) row.values entry = .ok bytes := by
        rintro ⟨size, i⟩ hEntry
        obtain ⟨column, hColumn, hSize⟩ := mem_sizeOrder.mp hEntry
        have hi : i < row.values.length := by
          rw [hLength]
          exact (List.getElem?_eq_some_iff.mp hColumn).1
        have hValue := List.getElem?_eq_getElem hi
        refine (encodeVariable_isOk_iff hValue).mpr fun hZero => ?_
        exact hCells _ (mem_zip_of_getElem? hColumn hValue) (hSize.symm.trans hZero)
      obtain ⟨unpacked, hVariable⟩ := encodeEach_isOk_iff.mpr hEach
      rw [hHeader, hFixed]
      show ∃ bytes, (encodeEach (encodeVariable (encodeLevels levels) row.values)
        (sizeOrder row.columns) >>= _) = .ok bytes
      rw [hVariable]
      exact ⟨_, rfl⟩
  · rw [if_pos hLength]
    constructor
    · rintro ⟨bytes, h⟩
      cases h
    · rintro ⟨hRow, -⟩
      exact absurd hRow.length hLength

end Composite

-- ---------------------------------------------------------------------------
-- All levels
-- ---------------------------------------------------------------------------

/-- Beyond the depth limit nothing is encoded. -/
theorem not_encodable_zero (v : Value) : ¬Encodable 0 v := by
  rintro ⟨bytes, h⟩
  cases h

/-- A descriptor is within the limits when its columns are. -/
theorem admissible_buildRowHeader {columns : List PackedColumn}
    (h : columns.length ≤ kMaxPackedRowColumns) :
    (buildRowHeader columns).Everywhere Admissible := by
  have hColumn : ∀ column : PackedColumn, Value.Everywhere Admissible
      (.tuple [.string column.name, .int (Int64.ofNat column.type.toByte.toNat)]) := by
    intro column
    refine .node (show 2 ≤ MAX_CONTAINER_COUNT by decide) fun child hChild => ?_
    simp only [Value.children, List.mem_cons, List.not_mem_nil, or_false] at hChild
    rcases hChild with rfl | rfl
    · exact .leaf trivial rfl
    · exact .leaf trivial rfl
  refine .node trivial fun child hChild => ?_
  simp only [buildRowHeader, Value.children, List.flatMap_nil, List.append_nil, List.mem_cons,
    List.not_mem_nil, or_false] at hChild
  rcases hChild with rfl | rfl
  · exact .leaf trivial rfl
  · refine .node ?_ fun child hc => ?_
    · show (columns.map _).length ≤ MAX_CONTAINER_COUNT
      rw [List.length_map]
      exact h.trans (by decide)
    · obtain ⟨column, -, rfl⟩ := List.mem_map.mp hc
      exact hColumn column

/-- A packed cell is a leaf. -/
theorem PackedCell.leaf {type : DbType} {value : Value} (h : PackedCell type value) :
    value.Everywhere Admissible ∧ value.nestingDepth = 0 := by
  cases value with
  | none | bool b | int n => exact ⟨.leaf trivial rfl, rfl⟩
  | _ => exact h.elim

/-- The fixed-size cells of a row are leaves, so only the others have to be looked at. -/
theorem forall_values_iff {row : PackedRowData Value} (hRow : Packable row) {p : Value → Prop}
    (hLeaf : ∀ cell ∈ row.columns.zip row.values, dbTypeSizeBits cell.1.type ≠ 0 → p cell.2) :
    (∀ cell ∈ row.columns.zip row.values, dbTypeSizeBits cell.1.type = 0 → p cell.2) ↔
      ∀ value ∈ row.values, p value := by
  constructor
  · intro h value hValue
    obtain ⟨i, hi⟩ := List.mem_iff_getElem?.mp hValue
    have hLt : i < row.columns.length := by
      rw [← hRow.length]
      exact (List.getElem?_eq_some_iff.mp hi).1
    have hCell := mem_zip_of_getElem? (List.getElem?_eq_getElem hLt) hi
    by_cases hZero : dbTypeSizeBits row.columns[i].type = 0
    · exact h _ hCell hZero
    · exact hLeaf _ hCell hZero
  · intro h cell hCell _
    exact h cell.2 (List.of_mem_zip hCell).2

/-- The encoder refuses nothing but what is too deep or, somewhere inside, not admissible. -/
theorem encodable_iff (levels : Nat) (v : Value) :
    Encodable levels v ↔ Fits levels v ∧ v.Everywhere Admissible := by
  induction levels generalizing v with
  | zero =>
    constructor
    · intro h
      exact absurd h (not_encodable_zero v)
    · rintro ⟨hFits, -⟩
      exact absurd hFits (Nat.not_lt_zero _)
  | succ levels ih =>
    rw [everywhere_iff]
    cases v with
    | tuple items =>
      rw [encodable_tuple, fits_tuple]
      simp only [ih, forall_and, Admissible, Value.children]
      tauto
    | list items =>
      rw [encodable_list, fits_list]
      simp only [ih, forall_and, Admissible, Value.children]
      tauto
    | dict entries =>
      rw [encodable_dict, fits_dict, Value.children, ← forall_entries_iff]
      simp only [ih, EntryFits, forall_and, Admissible]
      tauto
    | object type args =>
      rw [encodable_object, fits_object, ih]
      simp only [Admissible, Value.children, List.mem_singleton, forall_eq, true_and]
    | objectEx isType2 data =>
      rw [encodable_objectEx, fits_objectEx, Value.children]
      simp only [List.forall_mem_cons, List.forall_mem_append, ← forall_entries_iff, ih,
        EntryFits, forall_and, Admissible]
      tauto
    | subStruct value =>
      rw [encodable_subStruct, fits_subStruct, ih]
      simp only [Admissible, Value.children, List.mem_singleton, forall_eq, true_and]
    | checksumedStream checksum value =>
      rw [encodable_checksumedStream, fits_checksumedStream, ih]
      simp only [Admissible, Value.children, List.mem_singleton, forall_eq, true_and]
    | packedRow row =>
      rw [encodable_packedRow, fits_packedRow, ih]
      have hHeader : Fits levels (buildRowHeader row.columns) ↔
          descriptorDepth row.columns < levels := by
        rw [Fits, nestingDepth_buildRowHeader]
      rw [hHeader]
      show _ ↔ _ ∧ (_ ∧ _) ∧ ∀ value ∈ row.values, _
      constructor
      · rintro ⟨hCount, hRow, ⟨hDepth, -⟩, hCells⟩
        have hLeaf : ∀ cell ∈ row.columns.zip row.values, dbTypeSizeBits cell.1.type ≠ 0 →
            Encodable levels cell.2 := by
          intro cell hCell hSized
          obtain ⟨hEverywhere, hZero⟩ := (hRow.cells cell hCell hSized).leaf
          refine (ih _).mpr ⟨?_, hEverywhere⟩
          show cell.2.nestingDepth < levels
          omega
        have hValues := (forall_values_iff hRow hLeaf).mp hCells
        exact ⟨⟨hDepth, fun value hValue => ((ih _).mp (hValues value hValue)).1⟩,
          ⟨hCount, hRow⟩, fun value hValue => ((ih _).mp (hValues value hValue)).2⟩
      · rintro ⟨⟨hDepth, hFits⟩, ⟨hCount, hRow⟩, hInside⟩
        refine ⟨hCount, hRow, ⟨hDepth, admissible_buildRowHeader hCount⟩, ?_⟩
        intro cell hCell _
        have hValue := (List.of_mem_zip hCell).2
        exact (ih _).mpr ⟨hFits _ hValue, hInside _ hValue⟩
    | _ =>
      constructor
      · intro _
        exact ⟨Nat.succ_pos _, trivial, fun child hc => absurd hc List.not_mem_nil⟩
      · intro _
        exact ⟨_, rfl⟩

/-- The values that `Encode` accepts. -/
theorem encode_ok_iff (v : Value) :
    (∃ bytes, encode v = .ok bytes) ↔
      v.nestingDepth ≤ MAX_MARSHAL_DEPTH ∧ v.Everywhere Admissible := by
  rw [encode, bind_isOk_iff]
  show Encodable (MAX_MARSHAL_DEPTH + 1) v ↔ _
  rw [encodable_iff, Fits, Nat.lt_succ_iff]

end Ithax.Marshal
