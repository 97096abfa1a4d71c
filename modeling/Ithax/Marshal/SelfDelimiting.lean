import Ithax.Marshal.DecoderWalk

/-!
# Marshal streams are self-delimiting

The decoder is `Delimited`, an instance of the walk of `Marshal/DecoderWalk.lean`:
a successful run looks only at the bytes it consumes, and a prefix that cuts them
short is reported as truncated. For streams without a save table, whose declared
end is the end of the stream, this settles what `Decode` does with prefixes and
with trailing bytes.

Main results:

* `delimited_decodeLevels` — the recursive decoder is self-delimiting;
* `decode_selfDelimiting`  — proper prefixes of an accepted stream are
  truncated, extensions are trailing data.
-/

namespace Ithax.Marshal

open Ithax.Lib Ithax.Lib.Reader

/-- `Delimited`, with `MarshalTruncatedError` as the report of a cut. -/
abbrev SelfDelimited {α : Type} (k : Nat) (m : Decoder α) : Prop :=
  Delimited MarshalError.IsTruncated k m

/-- The recursive decoder is self-delimiting, at every depth. -/
theorem delimited_decodeLevels (levels : Nat) :
    SelfDelimited 1 (decodeLevels levels) :=
  holds_decodeLevels (Compositional.delimited _ _) levels

/-! ## Whole streams without a save table -/

/-- The save count a stream announces: the four bytes after the magic byte. -/
def saveCount (stream : Bytes) : Nat := leNat ((stream.drop 1).take 4)

/-- Four bytes fit the `std::uint32_t` they are read into. -/
theorem toNat_saveCount {stream : Bytes} (h : 5 ≤ stream.length) :
    (UInt32.ofNat (saveCount stream)).toNat = saveCount stream := by
  have hBound := leNat_lt ((stream.drop 1).take 4)
  rw [List.length_take, List.length_drop,
    Nat.min_eq_left (by omega : 4 ≤ stream.length - 1)] at hBound
  simp only [UInt32.toNat_ofNat', saveCount]
  omega

theorem delimited_readHeader : SelfDelimited 5 readHeader :=
  holds_readHeader (Compositional.delimited _ _)

theorem readHeader_ok {stream : Bytes} {store : SaveTable} {n : Nat}
    {c : Cursor SaveTable}
    (h : readHeader (Input.whole stream) ⟨0, store⟩ = .ok (n, c)) :
    5 ≤ stream.length ∧ n = saveCount stream ∧ c = ⟨5, store⟩ := by
  obtain ⟨hAdv, hIn, -, -⟩ :=
    delimited_readHeader stream ⟨0, store⟩ n c (Nat.zero_le _) h
  have hLen : 5 ≤ stream.length := by omega
  unfold readHeader readU8 at h
  rw [bind_ok (takeByte_apply (show (0 : Nat) < stream.length by omega))] at h
  split at h
  · cases h
  unfold readU32 readBytes at h
  obtain ⟨count, c₁, hRead, h⟩ := bind_eq_ok h
  rw [bind_ok (take_apply (by simp only; omega))] at hRead
  cases hRead
  split at h
  · cases h
  cases h
  exact ⟨hLen, toNat_saveCount hLen, rfl⟩

/-- The header and the root value, as one reader. -/
def readStream : Decoder Value := do
  let _ ← readHeader
  decodeValue 0

theorem delimited_readStream : SelfDelimited 5 readStream :=
  Delimited.bind 5 1 delimited_readHeader (fun _ => delimited_decodeLevels _)
    (by omega)

/-- Without a save table the declared end is the end of the stream and the
table stays empty, so `Decode` is one run of `readStream`. -/
theorem decode_eq_readStream {stream : Bytes} (exact : Bool)
    (hLen : stream.length ≤ MAX_STREAM_BYTES)
    (hSave : 5 ≤ stream.length → saveCount stream = 0) :
    decode stream exact =
      match readStream (Input.whole stream) ⟨0, []⟩ with
      | .error e => .error e
      | .ok (v, c) =>
        if exact ∧ c.offset ≠ stream.length then
          raise (.format "marshal stream has trailing data")
        else .ok v := by
  rw [decode, decodeStream, if_neg (by omega), readStream, Reader.bind_apply]
  cases hHead : readHeader (Input.whole stream) ⟨0, []⟩ with
  | error e => rfl
  | ok r =>
    obtain ⟨n, c⟩ := r
    obtain ⟨hFive, hCount, rfl⟩ := readHeader_ok hHead
    have hn : n = 0 := hCount.trans (hSave hFive)
    have hEnd : valueEnd stream.length 5 n = stream.length := by
      rw [hn, valueEnd, if_pos rfl]
      omega
    subst hn
    show (decodeValue 0 ⟨stream, valueEnd stream.length 5 0⟩ ⟨5, []⟩ >>= _) = _
    simp only [hEnd, Input.whole]
    cases decodeValue 0 ⟨stream, stream.length⟩ ⟨5, []⟩ with
    | error e => rfl
    | ok r => rfl

/-- **Self-delimiting streams.** A stream without a save table that `Decode`
accepts to its end is cut short by every proper prefix, in both modes; whatever
is appended to it is trailing data in exact mode and ignored otherwise. -/
theorem decode_selfDelimiting (s : Bytes) (v : Value) (hSave : saveCount s = 0)
    (hDec : decode s true = .ok v) :
    (∀ p, p <+: s → p ≠ s → ∀ exact, ∃ message,
      decode p exact = .error (.thrown (.truncated message))) ∧
    ∀ t, t ≠ [] → (s ++ t).length ≤ MAX_STREAM_BYTES →
      (∃ message, decode (s ++ t) true = .error (.thrown (.format message))) ∧
        decode (s ++ t) false = .ok v := by
  have hLen := length_le_of_decode hDec
  -- one run of the reader over all of `s`
  rw [decode_eq_readStream true hLen fun _ => hSave] at hDec
  obtain ⟨c, hRun, hEnd⟩ : ∃ c, readStream (Input.whole s) ⟨0, []⟩ = .ok (v, c) ∧
      c.offset = s.length := by
    split at hDec
    · cases hDec
    · rename_i w c hRun
      by_cases hOff : c.offset = s.length
      · rw [if_neg (by simp [hOff])] at hDec
        cases hDec
        exact ⟨c, hRun, hOff⟩
      · rw [if_pos ⟨rfl, hOff⟩] at hDec
        cases hDec
  obtain ⟨hAdv, -, hExt, hCut⟩ :=
    delimited_readStream s ⟨0, []⟩ v c (Nat.zero_le _) hRun
  have hFive : 5 ≤ s.length := by
    simp only at hAdv
    omega
  refine ⟨fun p hp hNe exact => ?_, fun t hNil hBound => ?_⟩
  · -- a proper prefix runs out of bytes
    have hShort : p.length < s.length := by
      refine lt_of_le_of_ne hp.length_le fun hEq => hNe ?_
      exact hp.eq_of_length hEq
    obtain ⟨e, he, hErr⟩ := hCut p hp (Nat.zero_le _) (by omega)
    obtain ⟨message, rfl⟩ : ∃ message, e = .truncated message := by
      cases e with
      | truncated message => exact ⟨message, rfl⟩
      | _ => exact he.elim
    have hSave' : 5 ≤ p.length → saveCount p = 0 := by
      intro hp5
      have hKeep : (p.drop 1).take 4 = (s.drop 1).take 4 := by
        refine (drop_take_eq_of_keeps hp5 ?_).symm
        exact (List.take_prefix _ _).trans hp
      rw [saveCount, hKeep]
      exact hSave
    refine ⟨message, ?_⟩
    rw [decode_eq_readStream exact (by omega) hSave', hErr]
  · -- an extension leaves the run as it is
    have hSame := hExt (s ++ t) (by rw [hEnd, List.take_length]; exact List.prefix_append s t)
    have hSave' : saveCount (s ++ t) = 0 := by
      rw [← hSave, saveCount, saveCount, List.drop_append_of_le_length (by omega),
        List.take_append_of_le_length (by rw [List.length_drop]; omega)]
    have hMore : c.offset ≠ (s ++ t).length := by
      have : 0 < t.length := List.length_pos_iff.mpr hNil
      rw [List.length_append]
      omega
    constructor
    · refine ⟨"marshal stream has trailing data", ?_⟩
      rw [decode_eq_readStream true hBound fun _ => hSave', hSame]
      exact if_pos ⟨rfl, hMore⟩
    · rw [decode_eq_readStream false hBound fun _ => hSave', hSame]
      exact if_neg (by simp)

/-- A tuple of the list `[300, None]` and a buffer of three bytes. -/
def nestedStream : Bytes :=
  [0x7E, 0, 0, 0, 0, 0x2C, 0x15, 2, 0x05, 0x2C, 1, 0x01, 0x0D, 3, 0x0A, 0x0B, 0x0C]

/-- The stream, cut inside the bytes of its buffer and extended by another value. -/
theorem decode_selfDelimiting_nestedStream :
    decode nestedStream true =
        .ok (.tuple [.list [.int 300, .none], .buffer [0x0A, 0x0B, 0x0C]]) ∧
      (∀ exact, ∃ message,
        decode (nestedStream.take 15) exact = .error (.thrown (.truncated message))) ∧
      (∃ message, decode (nestedStream ++ [0x01]) true = .error (.thrown (.format message))) ∧
      decode (nestedStream ++ [0x01]) false =
        .ok (.tuple [.list [.int 300, .none], .buffer [0x0A, 0x0B, 0x0C]]) := by
  have hDec : decode nestedStream true =
      .ok (.tuple [.list [.int 300, .none], .buffer [0x0A, 0x0B, 0x0C]]) := rfl
  obtain ⟨hCut, hExtended⟩ := decode_selfDelimiting nestedStream _ rfl hDec
  exact ⟨hDec, hCut _ (List.take_prefix 15 _) (by decide),
    hExtended [0x01] (by decide) (by decide)⟩

end Ithax.Marshal
