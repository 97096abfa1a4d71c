import Ithax.Marshal.SelfDelimiting

/-!
# The value area and the save table

A stream that announces `n` saved objects ends in a table of `4 n` bytes, and the root value
stands between the header and that table. `Decode` computes where the value area ends by an
unsigned subtraction that may wrap, compares against it in exact mode, and otherwise leaves
the bounds to the readers, most of which check the end of the buffer only.

## Results

* `readRoot_confined` — the root value is read from inside the buffer, and from the bytes
  before the final cursor only.
* `valueEnd_cases` — where the computed end lies: before the table, inside the header or
  beyond every buffer.
* `tableRespected_of_exact` — the exact mode is enough, or that no saved object is announced.
* `tableRespected_iff` — an accepted stream has its table and its root value stops before it
  exactly if the mode is exact, no table is announced, or no root value ends in the place of
  the table.
-/

namespace Ithax.Marshal

open Ithax.Lib Ithax.Lib.Reader

-- ---------------------------------------------------------------------------
-- The header and the root value
-- ---------------------------------------------------------------------------

/-- What `Decode` asks of a stream before it reads the root value. -/
structure HeaderAccepted (stream : Bytes) : Prop where
  size : stream.length ≤ MAX_STREAM_BYTES
  header : 5 ≤ stream.length
  magic : stream[0]? = some MARSHAL_HEADER_BYTE
  saved : saveCount stream ≤ MAX_SAVED_OBJECTS

/-- `DecodeValue(0)` from behind the header of `stream`, with `bytes` in its place: the
declared end and the save table are those of `stream`. -/
def readRoot (stream bytes : Bytes) : Result (Value × Cursor SaveTable) :=
  decodeValue 0 ⟨bytes, valueEnd stream.length 5 (saveCount stream)⟩
    ⟨5, List.replicate (saveCount stream) none⟩

theorem readHeader_eq_ok {stream : Bytes} (h : HeaderAccepted stream) (store : SaveTable) :
    readHeader (Input.whole stream) ⟨0, store⟩ = .ok (saveCount stream, ⟨5, store⟩) := by
  obtain ⟨-, hLen, hMagic, hSaved⟩ := h
  have hPos : (0 : Nat) < stream.length := by omega
  have hByte : stream[0] = MARSHAL_HEADER_BYTE := by
    rw [List.getElem?_eq_getElem hPos] at hMagic
    exact Option.some.inj hMagic
  have hCount := toNat_saveCount hLen
  unfold readHeader readU8
  rw [bind_ok (takeByte_apply hPos)]
  simp only [hByte, ne_eq, not_true_eq_false, if_false]
  unfold readU32 readBytes
  rw [Reader.bind_apply, bind_ok (take_apply (by simp only; omega))]
  show (if (UInt32.ofNat (saveCount stream)).toNat > MAX_SAVED_OBJECTS then _ else _ :
    Decoder Nat) _ _ = _
  rw [hCount, if_neg (by omega)]
  show Except.ok ((UInt32.ofNat (saveCount stream)).toNat, _) = _
  rw [hCount]

theorem headerAccepted_of_readHeader {stream : Bytes} {store : SaveTable} {n : Nat}
    {c : Cursor SaveTable} (hSize : stream.length ≤ MAX_STREAM_BYTES)
    (h : readHeader (Input.whole stream) ⟨0, store⟩ = .ok (n, c)) :
    HeaderAccepted stream := by
  obtain ⟨hLen, hCount, -⟩ := readHeader_ok h
  have hPos : (0 : Nat) < stream.length := by omega
  unfold readHeader readU8 at h
  rw [bind_ok (takeByte_apply hPos)] at h
  split at h
  · cases h
  rename_i hMagic
  obtain ⟨count, c₁, -, h⟩ := bind_eq_ok h
  split at h
  · cases h
  rename_i hSaved
  cases h
  refine ⟨hSize, hLen, ?_, by omega⟩
  rw [List.getElem?_eq_getElem hPos]
  exact congrArg some (not_not.mp hMagic)

/-- `Decode` accepts what has an accepted header and a root value, and in exact mode a root
value that stops at the computed end. -/
theorem decode_ok_iff_readRoot {stream : Bytes} {exact : Bool} {v : Value} :
    decode stream exact = .ok v ↔
      HeaderAccepted stream ∧ ∃ c, readRoot stream stream = .ok (v, c) ∧
        (exact = true → c.offset = valueEnd stream.length 5 (saveCount stream)) := by
  constructor
  · intro h
    rw [decode, decodeStream] at h
    split at h
    · cases h
    rename_i hSize
    obtain ⟨⟨n, c₀⟩, hHead, h⟩ := Checked.bind_eq_ok h
    have hAcc := headerAccepted_of_readHeader (by omega) hHead
    rw [readHeader_eq_ok hAcc] at hHead
    cases hHead
    obtain ⟨⟨w, c⟩, hRoot, h⟩ := Checked.bind_eq_ok h
    simp only at h
    split at h
    · cases h
    rename_i hEnd
    cases h
    refine ⟨hAcc, c, hRoot, fun hExact => ?_⟩
    by_contra hNe
    exact hEnd ⟨hExact, hNe⟩
  · rintro ⟨hAcc, c, hRoot, hEnd⟩
    have hSize := hAcc.size
    rw [decode, decodeStream, if_neg (by omega)]
    show (readHeader (Input.whole stream) ⟨0, []⟩ >>= _) = _
    rw [readHeader_eq_ok hAcc]
    show (readRoot stream stream >>= _) = _
    rw [hRoot]
    show (if exact = true ∧ _ then _ else _) = _
    rw [if_neg (fun hBoth => hBoth.2 (hEnd hBoth.1))]

/-- What is consumed of `bytes` determines the run, and nothing behind the buffer is. -/
theorem readRoot_confined {stream bytes : Bytes} {v : Value} {c : Cursor SaveTable}
    (hLen : 5 ≤ bytes.length) (h : readRoot stream bytes = .ok (v, c)) :
    6 ≤ c.offset ∧ c.offset ≤ bytes.length ∧
      ∀ t, bytes.take c.offset <+: t → readRoot stream t = .ok (v, c) :=
  holds_decodeValue (Compositional.confined _ _) 0 ⟨bytes, _⟩ ⟨5, _⟩ v c hLen h

-- ---------------------------------------------------------------------------
-- The computed end
-- ---------------------------------------------------------------------------

/-- The table fits behind the header, or the end falls inside the header, or the subtraction
wraps beyond every buffer. -/
theorem valueEnd_cases {size n : Nat} (hHeader : 5 ≤ size) (hSize : size ≤ MAX_STREAM_BYTES)
    (hSaved : n ≤ MAX_SAVED_OBJECTS) :
    (5 + 4 * n ≤ size ∧ valueEnd size 5 n + 4 * n = size) ∨
    (size < 5 + 4 * n ∧ (valueEnd size 5 n < 5 ∨ size < valueEnd size 5 n)) := by
  unfold MAX_STREAM_BYTES at hSize
  unfold MAX_SAVED_OBJECTS at hSaved
  unfold valueEnd
  by_cases hZero : n = 0
  · rw [if_pos hZero]
    omega
  · rw [if_neg hZero]
    omega

-- ---------------------------------------------------------------------------
-- The table is respected
-- ---------------------------------------------------------------------------

/-- If the stream is accepted, its table is there and the root value was read entirely from
the bytes before it: the cursor stops there, and those bytes alone give the same run. -/
def TableRespected (stream : Bytes) (exact : Bool) : Prop :=
  ∀ v, decode stream exact = .ok v →
    5 + 4 * saveCount stream ≤ stream.length ∧
    ∃ c, readRoot stream stream = .ok (v, c) ∧
      c.offset + 4 * saveCount stream ≤ stream.length ∧
      readRoot stream (stream.take (stream.length - 4 * saveCount stream)) = .ok (v, c)

/-- The first `k` bytes of the stream are the header and one root value, to its last byte. -/
def HoldsRoot (stream : Bytes) (k : Nat) : Prop :=
  ∃ v c, readRoot stream (stream.take k) = .ok (v, c) ∧ c.offset = k

/-- Behind an accepted header a root value leaves fewer bytes than the table takes. -/
def RootOverruns (stream : Bytes) : Prop :=
  HeaderAccepted stream ∧ ∃ k, 5 ≤ k ∧ k ≤ stream.length ∧
    stream.length < k + 4 * saveCount stream ∧ HoldsRoot stream k

theorem stops_before_table {stream : Bytes} {exact : Bool} {v : Value} {c : Cursor SaveTable}
    (hAcc : HeaderAccepted stream) (hRoot : readRoot stream stream = .ok (v, c))
    (hEnd : exact = true → c.offset = valueEnd stream.length 5 (saveCount stream))
    (hCond : exact = true ∨ saveCount stream = 0 ∨ ¬RootOverruns stream) :
    c.offset + 4 * saveCount stream ≤ stream.length := by
  obtain ⟨hAdv, hIn, hSame⟩ := readRoot_confined hAcc.header hRoot
  rcases hCond with hExact | hNone | hOver
  · -- the final cursor lies in the buffer and behind the header, so only one case is left
    have hStop := hEnd hExact
    rcases valueEnd_cases hAcc.header hAcc.size hAcc.saved with hFits | hNot
    · omega
    · omega
  · omega
  · by_contra hLong
    have hCut := hSame (stream.take c.offset) (List.prefix_refl _)
    exact hOver ⟨hAcc, c.offset, by omega, hIn, by omega, v, c, hCut, rfl⟩

/-- Any of the three conditions keeps the root value out of the table. -/
theorem tableRespected_of {stream : Bytes} {exact : Bool}
    (hCond : exact = true ∨ saveCount stream = 0 ∨ ¬RootOverruns stream) :
    TableRespected stream exact := by
  intro v hDec
  obtain ⟨hAcc, c, hRoot, hEnd⟩ := decode_ok_iff_readRoot.mp hDec
  obtain ⟨hAdv, -, hSame⟩ := readRoot_confined hAcc.header hRoot
  have hStop := stops_before_table hAcc hRoot hEnd hCond
  refine ⟨by omega, c, hRoot, hStop, hSame _ ?_⟩
  exact List.take_prefix_take_left (by omega)

/-- The exact mode is enough, and so is a header that announces no saved object: no run of the
decoder has to be looked at. -/
theorem tableRespected_of_exact {stream : Bytes} {exact : Bool}
    (h : exact = true ∨ saveCount stream = 0) : TableRespected stream exact :=
  tableRespected_of (h.imp_right .inl)

/-- A root value that ends in the place of the table is accepted in the lenient mode. -/
theorem decode_of_rootOverruns {stream : Bytes} (h : RootOverruns stream) :
    ∃ v c, decode stream false = .ok v ∧ readRoot stream stream = .ok (v, c) ∧
      stream.length < c.offset + 4 * saveCount stream := by
  obtain ⟨hAcc, k, hHeader, hk, hLong, v, c, hCut, rfl⟩ := h
  have hTake : (stream.take c.offset).length = c.offset := by
    rw [List.length_take, Nat.min_eq_left hk]
  obtain ⟨-, -, hSame⟩ := readRoot_confined (by omega) hCut
  have hWhole := hSame stream (by
    rw [List.take_take, Nat.min_self]
    exact List.take_prefix _ _)
  exact ⟨v, c, decode_ok_iff_readRoot.mpr ⟨hAcc, c, hWhole, fun h => Bool.noConfusion h⟩,
    hWhole, hLong⟩

/-- **The save table is respected** in exact mode, where no table is announced, and wherever
no root value ends in the place of the table. Nothing else keeps the root value out of it:
`Decode` has no check of its own in the lenient mode. -/
theorem tableRespected_iff (stream : Bytes) (exact : Bool) :
    TableRespected stream exact ↔
      exact = true ∨ saveCount stream = 0 ∨ ¬RootOverruns stream := by
  constructor
  · intro h
    by_contra hCond
    rw [not_or, not_or, not_not] at hCond
    obtain ⟨hMode, -, hOver⟩ := hCond
    obtain ⟨v, c, hDec, hRoot, hLong⟩ := decode_of_rootOverruns hOver
    have hMode' : exact = false := by simpa using hMode
    rw [← hMode'] at hDec
    obtain ⟨-, c', hRoot', hShort, -⟩ := h v hDec
    rw [hRoot] at hRoot'
    cases hRoot'
    omega
  · exact tableRespected_of

/-- One saved object announced, no byte of its table, and a root value of one byte. -/
def missingTable : Bytes := [0x7E, 0x01, 0x00, 0x00, 0x00, 0x01]

theorem not_tableRespected : ¬∀ stream exact, TableRespected stream exact := by
  intro h
  have hAccepts : (decode missingTable false).toOption.isSome = true := by
    decide +kernel
  have hCount : saveCount missingTable = 1 := by
    decide
  cases hDec : decode missingTable false with
  | error e =>
    rw [hDec] at hAccepts
    cases hAccepts
  | ok v =>
    obtain ⟨hSize, -⟩ := h missingTable false v hDec
    have hSix : missingTable.length = 6 := rfl
    rw [hCount] at hSize
    omega

end Ithax.Marshal
