import Ithax.Marshal.PackedRow

/-!
# The zero run-length code is lossless

`ZeroDecompress` stops as soon as it has the bytes the column types add up to.
Given exactly as many bytes, it returns what `ZeroCompress` was given: nibble by
nibble (`decompressNibble_compressRun`), control byte by control byte
(`zeroDecompressLoop_compress`).

A control byte stands for two bytes at least, but for the last one, so the code is at
most half longer than the row (`length_zeroCompress_le`), and no schema makes a row that
comes near the limit of its code.
-/

namespace Ithax.Marshal

open Ithax.Lib

-- ---------------------------------------------------------------------------
-- Runs
-- ---------------------------------------------------------------------------

theorem runLength_le (rest : Bytes) : runLength rest ≤ 8 ∧ runLength rest ≤ rest.length := by
  have hWhile : runLength rest ≤ (rest.take 8).length :=
    (List.takeWhile_sublist _).length_le
  rw [List.length_take] at hWhile
  omega

theorem runLength_pos {rest : Bytes} (h : rest ≠ []) : 0 < runLength rest := by
  cases rest with
  | nil => exact absurd rfl h
  | cons b bs => simp [runLength]

/-- A run that starts with a zero is all zeros. -/
theorem take_runLength_of_zero {rest : Bytes} (h : rest.head? = some 0) :
    rest.take (runLength rest) = List.replicate (runLength rest) 0 := by
  -- the run is a prefix of `rest`, so taking its length gives it back
  have hPrefix : (rest.take 8).takeWhile
      (fun b => (b == 0) == (rest.head? == some 0)) <+: rest :=
    (List.takeWhile_prefix _).trans (List.take_prefix 8 rest)
  have hTake : rest.take (runLength rest) = (rest.take 8).takeWhile
      (fun b => (b == 0) == (rest.head? == some 0)) :=
    (List.prefix_iff_eq_take.mp hPrefix).symm
  rw [hTake, List.eq_replicate_iff]
  refine ⟨rfl, fun b hb => ?_⟩
  have hZero := List.all_eq_true.mp List.all_takeWhile b hb
  simpa [h] using hZero

/-- The code of a nibble: zeros from 8 on, literals below. -/
theorem compressRun_eq (rest : Bytes) :
    compressRun rest =
      (if rest.head? = some 0 then runLength rest + 7 else 8 - runLength rest,
        if rest.head? = some 0 then [] else rest.take (runLength rest),
        rest.drop (runLength rest)) := by
  unfold compressRun
  simp only
  split
  · rfl
  · rfl

/-- What a nibble takes off its input. -/
theorem compressRun_spec {rest literals rest' : Bytes} {code : Nat} (hNe : rest ≠ [])
    (h : compressRun rest = (code, literals, rest')) :
    code < 16 ∧ rest.take (runLength rest) ++ rest' = rest ∧
      rest'.length < rest.length := by
  have hRun := runLength_le rest
  have hPos := runLength_pos hNe
  rw [compressRun_eq, Prod.mk.injEq, Prod.mk.injEq] at h
  obtain ⟨rfl, -, rfl⟩ := h
  refine ⟨?_, List.take_append_drop _ _, ?_⟩
  · split
    · omega
    · omega
  · rw [List.length_drop]
    omega

/-- A nibble is decoded to the run it was made from. -/
theorem decompressNibble_compressRun (pre post : Bytes) {out rest literals rest' : Bytes}
    {expected nibble code : Nat} {control : UInt8} (hNe : rest ≠ [])
    (h : compressRun rest = (code, literals, rest')) (hOut : out.length < expected)
    (hCode : (control.toNat >>> (nibble * 4)) &&& 0x0F = code) :
    decompressNibble (pre ++ literals ++ post) expected control nibble
        (pre.length, out) =
      .ok ((pre ++ literals).length, out ++ rest.take (runLength rest)) := by
  have hRun := runLength_le rest
  have hPos := runLength_pos hNe
  rw [compressRun_eq, Prod.mk.injEq, Prod.mk.injEq] at h
  obtain ⟨rfl, rfl, -⟩ := h
  unfold decompressNibble
  simp only [hCode]
  rw [if_neg (by omega)]
  by_cases hZero : rest.head? = some 0
  · simp only [hZero, if_true]
    rw [if_neg (by omega), take_runLength_of_zero hZero,
      show runLength rest + 7 - 7 = runLength rest by omega, List.append_nil]
  · simp only [hZero, if_false]
    have hLen : (rest.take (runLength rest)).length = runLength rest := by
      rw [List.length_take]
      omega
    have hEight : 8 - (8 - runLength rest) = runLength rest := by omega
    rw [if_pos (by omega), hEight, if_neg (by simp only [List.length_append]; omega),
      slice_of_le (by simp only [List.length_append]; omega)]
    -- the literals stand right at the read index
    have hLiterals : ((pre ++ rest.take (runLength rest) ++ post).drop pre.length).take
        (runLength rest) = rest.take (runLength rest) := by
      rw [List.append_assoc, List.drop_left]
      nth_rewrite 1 [← hLen]
      exact List.take_left
    rw [hLiterals]
    show Except.ok (pre.length + runLength rest, out ++ rest.take (runLength rest)) = _
    rw [List.length_append, hLen]

-- ---------------------------------------------------------------------------
-- Control bytes
-- ---------------------------------------------------------------------------

theorem control_low {low high : Nat} (hLow : low < 16) :
    ((UInt8.ofNat (low ||| high <<< 4)).toNat >>> (0 * 4)) &&& 0x0F = low := by
  have hSum : low ||| high <<< 4 = high * 2 ^ 4 + low := by
    rw [Nat.or_comm, Nat.shiftLeft_eq, Nat.mul_comm, ← Nat.two_pow_add_eq_or_of_lt hLow]
  rw [hSum, show (0x0F : Nat) = 2 ^ 4 - 1 from rfl, Nat.and_two_pow_sub_one_eq_mod,
    Nat.shiftRight_eq_div_pow, UInt8.toNat_ofNat']
  omega

theorem control_high {low high : Nat} (hLow : low < 16) (hHigh : high < 16) :
    ((UInt8.ofNat (low ||| high <<< 4)).toNat >>> (1 * 4)) &&& 0x0F = high := by
  have hSum : low ||| high <<< 4 = high * 2 ^ 4 + low := by
    rw [Nat.or_comm, Nat.shiftLeft_eq, Nat.mul_comm, ← Nat.two_pow_add_eq_or_of_lt hLow]
  rw [hSum, show (0x0F : Nat) = 2 ^ 4 - 1 from rfl, Nat.and_two_pow_sub_one_eq_mod,
    Nat.shiftRight_eq_div_pow, UInt8.toNat_ofNat']
  omega

/-- A control byte whose input ended on the low nibble. -/
theorem control_single {low : Nat} (hLow : low < 16) :
    ((UInt8.ofNat low).toNat >>> (0 * 4)) &&& 0x0F = low := by
  have hSame := @control_low low 0 hLow
  rwa [Nat.zero_shiftLeft, Nat.or_zero] at hSame

/-- Once the expected length is reached the rest of the input is ignored. -/
theorem decompressNibble_full {rle out : Bytes} {expected nibble i : Nat}
    {control : UInt8} (h : expected ≤ out.length) :
    decompressNibble rle expected control nibble (i, out) = .ok (i, out) := by
  unfold decompressNibble
  exact if_pos h

theorem zeroDecompressLoop_full {rle out : Bytes} {expected i fuel : Nat}
    (h : expected ≤ out.length) :
    zeroDecompressLoop rle expected (fuel + 1) (i, out) = .ok (i, out) := by
  unfold zeroDecompressLoop
  rw [if_neg (by omega)]

/-- A round of the decompressor: the control byte, then its two nibbles. -/
theorem zeroDecompressLoop_step {pre tail out : Bytes} {expected fuel : Nat}
    {control : UInt8} {s₁ s₂ : Nat × Bytes} (hOut : out.length < expected)
    (hLow : decompressNibble (pre ++ control :: tail) expected control 0
      (pre.length + 1, out) = .ok s₁)
    (hHigh : decompressNibble (pre ++ control :: tail) expected control 1 s₁ = .ok s₂) :
    zeroDecompressLoop (pre ++ control :: tail) expected (fuel + 1) (pre.length, out) =
      zeroDecompressLoop (pre ++ control :: tail) expected fuel s₂ := by
  have hIn : pre.length < (pre ++ control :: tail).length := by simp
  rw [zeroDecompressLoop, if_pos ⟨hIn, hOut⟩, index_of_lt hIn,
    List.getElem_append_right le_rfl]
  simp only [Nat.sub_self, List.getElem_cons_zero]
  show (decompressNibble (pre ++ control :: tail) expected control 0
    (pre.length + 1, out) >>= _) = _
  rw [hLow]
  show (decompressNibble (pre ++ control :: tail) expected control 1 s₁ >>= _) = _
  rw [hHigh]
  rfl

/-- Decompression, after `pre`, of what compression made of `rest`. The two
loops keep the same pace, a control byte a round; `fuel` bounds the rounds of
the compressor, `fuel'` those of the decompressor. -/
theorem zeroDecompressLoop_compress (fuel : Nat) :
    ∀ (rest pre out : Bytes) (expected fuel' : Nat), rest.length ≤ fuel →
      out.length + rest.length = expected →
      (zeroCompressLoop fuel rest).length < fuel' →
      ∃ i, zeroDecompressLoop (pre ++ zeroCompressLoop fuel rest) expected fuel'
        (pre.length, out) = .ok (i, out ++ rest) := by
  induction fuel with
  | zero =>
    intro rest pre out expected fuel' hFuel hLen hFuel'
    obtain rfl : rest = [] := List.length_eq_zero_iff.mp (by omega)
    obtain ⟨fuel', rfl⟩ : ∃ n, fuel' = n + 1 := ⟨fuel' - 1, by omega⟩
    refine ⟨pre.length, ?_⟩
    rw [zeroDecompressLoop_full (by simp at hLen; omega), List.append_nil]
  | succ fuel ih =>
    intro rest pre out expected fuel' hFuel hLen hFuel'
    obtain ⟨fuel', rfl⟩ : ∃ n, fuel' = n + 1 := ⟨fuel' - 1, by omega⟩
    cases rest with
    | nil =>
      refine ⟨pre.length, ?_⟩
      rw [zeroDecompressLoop_full (by simp at hLen; omega), List.append_nil]
    | cons b bs =>
      have hNe : b :: bs ≠ [] := by simp
      have hGo : out.length < expected := by
        simp only [List.length_cons] at hLen
        omega
      rcases hLow : compressRun (b :: bs) with ⟨low, literals₀, rest₀⟩
      obtain ⟨hCode₀, hRest₀, -⟩ := compressRun_spec hNe hLow
      by_cases hEnd : rest₀ = []
      · -- the input ended on the low nibble; the high one is not looked at
        have hBytes : zeroCompressLoop (fuel + 1) (b :: bs) =
            UInt8.ofNat low :: literals₀ := by
          simp [zeroCompressLoop, hLow, hEnd]
        rw [hBytes] at hFuel' ⊢
        rw [hEnd, List.append_nil] at hRest₀
        have hNibble := decompressNibble_compressRun (pre ++ [UInt8.ofNat low]) []
          hNe hLow hGo (control_single hCode₀)
        simp only [hRest₀, List.append_nil, List.append_assoc,
          List.singleton_append, List.length_append, List.length_singleton] at hNibble
        have hFull : expected ≤ (out ++ b :: bs).length := by
          rw [List.length_append]
          omega
        rw [zeroDecompressLoop_step hGo hNibble (decompressNibble_full hFull)]
        obtain ⟨fuel', rfl⟩ : ∃ n, fuel' = n + 1 := ⟨fuel' - 1, by
          simp only [List.length_cons] at hFuel'
          omega⟩
        exact ⟨_, zeroDecompressLoop_full hFull⟩
      · rcases hHigh : compressRun rest₀ with ⟨high, literals₁, rest₁⟩
        obtain ⟨hCode₁, hRest₁, hShort⟩ := compressRun_spec hEnd hHigh
        have hBytes : zeroCompressLoop (fuel + 1) (b :: bs) =
            UInt8.ofNat (low ||| high <<< 4) ::
              (literals₀ ++ literals₁ ++ zeroCompressLoop fuel rest₁) := by
          simp [zeroCompressLoop, hLow, hEnd, hHigh]
        rw [hBytes] at hFuel' ⊢
        have hTaken := congrArg List.length hRest₀
        have hTaken₁ := congrArg List.length hRest₁
        have hLeft : 0 < rest₀.length := List.length_pos_iff.mpr hEnd
        simp only [List.length_append] at hTaken hTaken₁ hLen
        generalize hControl : UInt8.ofNat (low ||| high <<< 4) = control at *
        generalize hTail : zeroCompressLoop fuel rest₁ = tail at *
        have hNibble₀ := decompressNibble_compressRun (pre ++ [control])
          (literals₁ ++ tail) hNe hLow hGo (hControl ▸ control_low hCode₀)
        have hGo₁ : (out ++ (b :: bs).take (runLength (b :: bs))).length < expected := by
          rw [List.length_append]
          omega
        have hNibble₁ := decompressNibble_compressRun
          (pre ++ [control] ++ literals₀) tail hEnd hHigh hGo₁
          (hControl ▸ control_high hCode₀ hCode₁)
        have hShape : pre ++ [control] ++ literals₀ ++ (literals₁ ++ tail) =
            pre ++ control :: (literals₀ ++ literals₁ ++ tail) := by simp
        have hShape₁ : pre ++ [control] ++ literals₀ ++ literals₁ ++ tail =
            pre ++ control :: (literals₀ ++ literals₁ ++ tail) := by simp
        rw [hShape, List.length_append, List.length_singleton] at hNibble₀
        rw [hShape₁] at hNibble₁
        rw [zeroDecompressLoop_step hGo hNibble₀ hNibble₁, ← hShape₁]
        -- the next control byte goes on after both runs
        have hNext := ih rest₁ (pre ++ [control] ++ literals₀ ++ literals₁)
          (out ++ (b :: bs).take (runLength (b :: bs)) ++ rest₀.take (runLength rest₀))
          expected fuel' (by simp only [List.length_cons] at *; omega)
          (by simp only [List.length_append]; omega)
          (by rw [hTail]; simp only [List.length_cons, List.length_append] at hFuel'; omega)
        obtain ⟨i, hi⟩ := hNext
        refine ⟨i, ?_⟩
        rw [hTail] at hi
        rw [hi, List.append_assoc, List.append_assoc, hRest₁, hRest₀]

/-- **Lossless.** The decompressor gives back the packed bytes and the bit
section, when together they have the length the column types add up to. -/
theorem zeroDecompress_zeroCompress {packed bitData : Bytes}
    {columns : List PackedColumn}
    (h : packed.length + bitData.length = expectedBytes columns) :
    zeroDecompress (zeroCompress packed bitData) columns = .ok (packed ++ bitData) := by
  obtain ⟨i, hLoop⟩ := zeroDecompressLoop_compress (packed ++ bitData).length
    (packed ++ bitData) [] [] (expectedBytes columns)
    ((zeroCompress packed bitData).length + 1) le_rfl
    (by simpa using h) (by rw [zeroCompress]; omega)
  rw [zeroDecompress]
  simp only [List.nil_append, List.length_nil] at hLoop
  show (zeroDecompressLoop (zeroCompress packed bitData) (expectedBytes columns)
    ((zeroCompress packed bitData).length + 1) (0, []) >>= _) = _
  rw [zeroCompress] at hLoop ⊢
  rw [hLoop]
  show (if (packed ++ bitData).length < expectedBytes columns then _ else _) = _
  rw [if_neg (by rw [List.length_append]; omega)]

-- ---------------------------------------------------------------------------
-- Length
-- ---------------------------------------------------------------------------

/-- The literals of a nibble are bytes that it takes. -/
theorem length_compressRun_le {rest literals rest' : Bytes} {code : Nat}
    (h : compressRun rest = (code, literals, rest')) :
    literals.length + rest'.length ≤ rest.length := by
  have hRun := runLength_le rest
  rw [compressRun_eq, Prod.mk.injEq, Prod.mk.injEq] at h
  obtain ⟨-, rfl, rfl⟩ := h
  by_cases hZero : rest.head? = some 0
  · simp [hZero]
  · simp [hZero]
    omega

/-- By induction on the rounds: a round with two nibbles takes two bytes for its control
byte, and only the last round can have one. -/
theorem length_zeroCompressLoop_le (fuel : Nat) : ∀ rest : Bytes,
    2 * (zeroCompressLoop fuel rest).length ≤ 3 * rest.length + 1 := by
  induction fuel with
  | zero => simp [zeroCompressLoop]
  | succ fuel ih =>
    intro rest
    cases rest with
    | nil => simp [zeroCompressLoop]
    | cons b bs =>
      rcases hLow : compressRun (b :: bs) with ⟨low, literals₀, rest₀⟩
      have hTaken := length_compressRun_le hLow
      have hShorter := (compressRun_spec (by simp) hLow).2.2
      by_cases hEnd : rest₀ = []
      · simp [zeroCompressLoop, hLow, hEnd] at *
        omega
      · rcases hHigh : compressRun rest₀ with ⟨high, literals₁, rest₁⟩
        have hTaken₁ := length_compressRun_le hHigh
        have hShorter₁ := (compressRun_spec hEnd hHigh).2.2
        have hRest := ih rest₁
        simp [zeroCompressLoop, hLow, hEnd, hHigh] at *
        omega

theorem length_zeroCompress_le (packed bitData : Bytes) :
    2 * (zeroCompress packed bitData).length ≤ 3 * (packed.length + bitData.length) + 1 := by
  rw [← List.length_append]
  exact length_zeroCompressLoop_le _ (packed ++ bitData)

theorem dbTypeSizeBits_le (type : DbType) : dbTypeSizeBits type ≤ 64 := by
  cases type <;> simp [dbTypeSizeBits]

theorem fixedBits_le (columns : List PackedColumn) : fixedBits columns ≤ 64 * columns.length := by
  induction columns with
  | nil => simp [fixedBits]
  | cons column columns ih =>
    have hColumn := dbTypeSizeBits_le column.type
    simp only [fixedBits, List.map_cons, List.sum_cons, List.length_cons] at *
    split
    · omega
    · omega

/-- A column takes eight bytes and two bits at most. -/
theorem expectedBytes_le (columns : List PackedColumn) :
    expectedBytes columns ≤ 9 * columns.length := by
  have hFixed := fixedBits_le columns
  have hBools : boolCount columns ≤ columns.length := List.countP_le_length
  unfold expectedBytes bitBytes
  omega

/-- **The code is inverse.** Decompression gives back what was compressed, byte for byte,
and what is compressed for a schema that the encoder accepts is within the limit of the
decoder. -/
theorem zeroRle_inverse {packed bits : Bytes} {columns : List PackedColumn}
    (h : packed.length + bits.length = expectedBytes columns) :
    zeroDecompress (zeroCompress packed bits) columns = .ok (packed ++ bits) ∧
      (columns.length ≤ kMaxPackedRowColumns →
        (zeroCompress packed bits).length ≤ kMaxPackedRowBytes) := by
  refine ⟨zeroDecompress_zeroCompress h, fun hCount => ?_⟩
  have hCode := length_zeroCompress_le packed bits
  have hRow := expectedBytes_le columns
  unfold kMaxPackedRowColumns at hCount
  unfold kMaxPackedRowBytes
  omega

/-- Three literals: the high nibble of the one control byte is not used. -/
theorem zeroRle_inverse_unusedNibble :
    zeroCompress [7, 9] [3] = [0x05, 7, 9, 3] ∧
      zeroDecompress (zeroCompress [7, 9] [3]) [⟨[], .i2⟩] = .ok ([7, 9] ++ [3]) ∧
      ([⟨[], .i2⟩] : List PackedColumn).length ≤ kMaxPackedRowColumns ∧
      (zeroCompress [7, 9] [3]).length ≤ kMaxPackedRowBytes := by
  obtain ⟨hInverse, hShort⟩ := @zeroRle_inverse [7, 9] [3] [⟨[], .i2⟩] (by decide)
  exact ⟨by decide, hInverse, by decide, hShort (by decide)⟩

end Ithax.Marshal
