import Ithax.Lib.Utf16
import Ithax.Marshal.RoundTrip

/-!
# Wide strings

A text travels as its UTF-8 bytes (`PyWStringUTF8`) or as UTF-16 code units
(`PyWStringUCS2`, and `PyWStringUCS2Char` for one unit). The decoder makes UTF-8 of the
second form unit by unit, so both surrogates of a pair become three bytes each, where the
code point has four in UTF-8.

* `length_unitsUtf8`      — the decoded bytes are two too many for every pair;
* `wideString_agrees_iff` — the two forms meet exactly on the texts of the basic plane.
-/

namespace Ithax.Marshal

open Ithax.Lib Ithax.Lib.Reader

-- ---------------------------------------------------------------------------
-- One unit
-- ---------------------------------------------------------------------------

/-- The bytes that `AppendUtf16Unit` appends. -/
def unitUtf8 (unit : UInt16) : Bytes := appendUtf16Unit [] unit

/-- `AppendUtf16Unit` appends the bytes of a unit. -/
theorem appendUtf16Unit_eq (out : Bytes) (unit : UInt16) :
    appendUtf16Unit out unit = out ++ unitUtf8 unit := by
  unfold unitUtf8 appendUtf16Unit
  by_cases hOne : unit < 0x80
  · simp [hOne]
  · by_cases hTwo : unit < 0x800
    · simp [hOne, hTwo]
    · simp [hOne, hTwo]

/-- The marker bits of a byte lie above its payload. -/
theorem marker_or {k a x : Nat} (hx : x < 2 ^ k) :
    UInt8.ofNat (2 ^ k * a) ||| UInt8.ofNat x = UInt8.ofNat (x + 2 ^ k * a) := by
  rw [← UInt8.ofNat_or, ← Nat.two_pow_add_eq_or_of_lt hx, Nat.add_comm]

/-- The low six bits of a unit. -/
theorem lowSix (unit : UInt16) : (unit &&& 0x3F).toUInt8 = UInt8.ofNat (unit.toNat % 64) := by
  rw [← UInt8.toNat_inj, UInt16.toNat_toUInt8, UInt16.toNat_and, UInt8.toNat_ofNat']
  show (unit.toNat &&& (2 ^ 6 - 1)) % 256 = _
  rw [Nat.and_two_pow_sub_one_eq_mod]

/-- A continuation byte carries six bits. -/
theorem continuationByte (unit : UInt16) :
    (0x80 : UInt8) ||| (unit &&& 0x3F).toUInt8 = UInt8.ofNat (unit.toNat % 64 + 0x80) := by
  rw [lowSix]
  exact @marker_or 6 2 (unit.toNat % 64) (Nat.mod_lt _ (by decide))

/-- The bits above the low six. -/
theorem toNat_shiftSix (unit : UInt16) : (unit >>> 6).toNat = unit.toNat / 64 :=
  Nat.shiftRight_eq_div_pow unit.toNat 6

/-- The lead byte of two carries them. -/
theorem toUInt8_shiftSix (unit : UInt16) :
    (unit >>> 6).toUInt8 = UInt8.ofNat (unit.toNat / 64) := by
  rw [← UInt8.toNat_inj, UInt16.toNat_toUInt8, toNat_shiftSix, UInt8.toNat_ofNat']

/-- The lead byte of three carries the four above twelve. -/
theorem toUInt8_shiftTwelve (unit : UInt16) :
    (unit >>> 12).toUInt8 = UInt8.ofNat (unit.toNat / 4096) := by
  have hShift : (unit >>> 12).toNat = unit.toNat / 4096 :=
    Nat.shiftRight_eq_div_pow unit.toNat 12
  rw [← UInt8.toNat_inj, UInt16.toNat_toUInt8, hShift, UInt8.toNat_ofNat']

/-- The unit of a code point of the basic plane becomes its UTF-8 form. -/
theorem unitUtf8_of_lt {c : Char} (h : c.toNat < SUPPLEMENTARY) :
    unitUtf8 (UInt16.ofNat c.toNat) = String.utf8EncodeChar c := by
  have hUnit : (UInt16.ofNat c.toNat).toNat = c.toNat := by
    rw [UInt16.toNat_ofNat']
    exact Nat.mod_eq_of_lt h
  have hVal : c.val.toNat = c.toNat := rfl
  unfold SUPPLEMENTARY at h
  generalize UInt16.ofNat c.toNat = unit at *
  unfold unitUtf8 appendUtf16Unit String.utf8EncodeChar
  simp only [hVal, UInt16.lt_iff_toNat_lt, hUnit, UInt16.reduceToNat, List.nil_append]
  by_cases hOne : c.toNat < 128
  · have hByte : unit.toUInt8 = UInt8.ofNat c.toNat := by
      rw [← UInt8.toNat_inj, UInt16.toNat_toUInt8, UInt8.toNat_ofNat', hUnit]
    have hOne' : c.toNat ≤ 127 := by omega
    rw [if_pos hOne, if_pos hOne', hByte]
  · have hOne' : ¬c.toNat ≤ 127 := by omega
    rw [if_neg hOne, if_neg hOne']
    by_cases hTwo : c.toNat < 2048
    · have hLead := @marker_or 5 6 (c.toNat / 64) (by omega)
      have hFive : c.toNat / 64 % 32 = c.toNat / 64 := Nat.mod_eq_of_lt (by omega)
      have hTwo' : c.toNat ≤ 2047 := by omega
      rw [if_pos hTwo, if_pos hTwo', continuationByte, toUInt8_shiftSix, hUnit, hFive]
      exact congrArg (· :: _) hLead
    · have hLead := @marker_or 4 14 (c.toNat / 4096) (by omega)
      have hFour : c.toNat / 4096 % 16 = c.toNat / 4096 := Nat.mod_eq_of_lt (by omega)
      have hTwo' : ¬c.toNat ≤ 2047 := by omega
      have hThree : c.toNat ≤ 65535 := by omega
      rw [if_neg hTwo, if_neg hTwo', if_pos hThree, continuationByte, continuationByte,
        toUInt8_shiftTwelve, toNat_shiftSix, hUnit, hFour]
      exact congrArg (· :: _) hLead

/-- A surrogate becomes three bytes. -/
theorem length_unitUtf8_of_le {unit : UInt16} (h : 0x800 ≤ unit.toNat) :
    (unitUtf8 unit).length = 3 := by
  have hOne : ¬unit < 0x80 := by
    rw [UInt16.lt_iff_toNat_lt]
    exact Nat.not_lt.mpr (Nat.le_trans (by decide) h)
  have hTwo : ¬unit < 0x800 := by
    rw [UInt16.lt_iff_toNat_lt]
    exact Nat.not_lt.mpr h
  simp [unitUtf8, appendUtf16Unit, hOne, hTwo]

-- ---------------------------------------------------------------------------
-- Whole texts
-- ---------------------------------------------------------------------------

/-- What the loop of `DecodeWStringUcs2` makes of the units. -/
def unitsUtf8 (units : List UInt16) : Bytes := units.flatMap unitUtf8

/-- Whether a text has no code point beyond the basic plane. -/
def Basic (text : List Char) : Prop := ∀ c ∈ text, c.toNat < SUPPLEMENTARY

instance (text : List Char) : Decidable (Basic text) :=
  List.decidableBAll _ text

/-- Without surrogates unit by unit and code point by code point agree. -/
theorem unitsUtf8_of_basic {text : List Char} (h : Basic text) :
    unitsUtf8 (utf16 text) = utf8 text := by
  induction text with
  | nil => rfl
  | cons c text ih =>
    have hHead : c.toNat < SUPPLEMENTARY := h c (by simp)
    have hTail := ih fun d hd => h d (by simp [hd])
    rw [unitsUtf8] at hTail
    rw [utf16_cons, utf8_cons, utf16Char_of_lt hHead, unitsUtf8, List.singleton_append,
      List.flatMap_cons, hTail, unitUtf8_of_lt hHead]

/-- By induction on the text: a code point beyond the basic plane has four bytes, its two
units have six. -/
theorem length_unitsUtf8 (text : List Char) :
    (unitsUtf8 (utf16 text)).length =
      (utf8 text).length + 2 * text.countP fun c => SUPPLEMENTARY ≤ c.toNat := by
  induction text with
  | nil => rfl
  | cons c text ih =>
    unfold unitsUtf8 at *
    rw [utf16_cons, utf8_cons, List.flatMap_append, List.length_append, List.length_append, ih,
      List.countP_cons]
    by_cases hPlane : c.toNat < SUPPLEMENTARY
    · have hNot : ¬SUPPLEMENTARY ≤ c.toNat := by omega
      rw [utf16Char_of_lt hPlane, List.flatMap_singleton, unitUtf8_of_lt hPlane]
      simp [hNot]
      omega
    · have hHigh := toNat_highSurrogate c
      have hLow := toNat_lowSurrogate c
      have hThree : (unitUtf8 (highSurrogate c)).length = 3 := length_unitUtf8_of_le (by omega)
      have hThree' : (unitUtf8 (lowSurrogate c)).length = 3 := length_unitUtf8_of_le (by omega)
      have hFour : c.utf8Size = 4 :=
        Char.utf8Size_eq_four_iff.mpr (UInt32.lt_iff_toNat_lt.mpr (Nat.le_of_not_lt hPlane))
      rw [utf16Char_of_le (Nat.le_of_not_lt hPlane), String.length_utf8EncodeChar]
      simp [hThree, hThree', hFour, Nat.le_of_not_lt hPlane]
      omega

/-- They agree on no other text. -/
theorem unitsUtf8_eq_iff (text : List Char) : unitsUtf8 (utf16 text) = utf8 text ↔ Basic text := by
  constructor
  · intro hSame c hc
    have hLength := length_unitsUtf8 text
    rw [hSame] at hLength
    have hNone : text.countP (fun c => SUPPLEMENTARY ≤ c.toNat) = 0 := by omega
    rw [List.countP_eq_zero] at hNone
    simpa using hNone c hc
  · exact unitsUtf8_of_basic

-- ---------------------------------------------------------------------------
-- The loop
-- ---------------------------------------------------------------------------

/-- The low byte first. -/
theorem putU16_eq (unit : UInt16) :
    putU16 unit = [UInt8.ofNat unit.toNat, UInt8.ofNat (unit.toNat / 256)] := by
  simp [putU16, leBytes, Nat.shiftRight_eq_div_pow]

/-- The two bytes of a unit, put together as `DecodeWStringUcs2` does. -/
theorem joined_unit (unit : UInt16) :
    (UInt8.ofNat unit.toNat).toUInt16 ||| (UInt8.ofNat (unit.toNat / 256)).toUInt16 <<< 8 =
      unit := by
  have hSize := unit.toNat_lt
  have hHigh : unit.toNat / 256 * 2 ^ 8 % 2 ^ 16 = 2 ^ 8 * (unit.toNat / 256) := by omega
  have hOr := Nat.two_pow_add_eq_or_of_lt (show unit.toNat % 2 ^ 8 < 2 ^ 8 by omega)
    (unit.toNat / 256)
  have hByte : unit.toNat / 256 % 256 = unit.toNat / 256 := by omega
  rw [← UInt16.toNat_inj, UInt16.toNat_or, UInt16.toNat_shiftLeft, UInt8.toNat_toUInt16,
    UInt8.toNat_toUInt16, UInt8.toNat_ofNat', UInt8.toNat_ofNat', hByte]
  show unit.toNat % 2 ^ 8 ||| (unit.toNat / 256) <<< 8 % 2 ^ 16 = _
  rw [Nat.shiftLeft_eq, hHigh, Nat.or_comm, ← hOr]
  omega

/-- The bytes of a sequence of units. -/
def wireUnits (units : List UInt16) : Bytes := units.flatMap putU16

/-- Two bytes for each unit. -/
theorem length_wireUnits (units : List UInt16) : (wireUnits units).length = units.length * 2 := by
  induction units with
  | nil => rfl
  | cons unit units ih =>
    rw [wireUnits] at *
    simp [ih, putU16]
    omega

/-- A round of the loop reads its unit out of the middle of the bytes. -/
theorem ucs2Step_middle (done rest : List UInt16) (unit : UInt16) (out : Bytes) :
    ucs2Step (wireUnits (done ++ unit :: rest)) out done.length = .ok (out ++ unitUtf8 unit) := by
  have hBytes : wireUnits (done ++ unit :: rest) = wireUnits done ++
      [UInt8.ofNat unit.toNat, UInt8.ofNat (unit.toNat / 256)] ++ wireUnits rest := by
    simp [wireUnits, putU16_eq]
  have hLength : (wireUnits done).length = 2 * done.length := by
    rw [length_wireUnits]
    omega
  have hLow : (index (wireUnits (done ++ unit :: rest)) (2 * done.length) : Result UInt8) =
      .ok (UInt8.ofNat unit.toNat) := by
    rw [hBytes, ← hLength, index_of_lt (by simp)]
    simp
  have hHigh : (index (wireUnits (done ++ unit :: rest)) (2 * done.length + 1) : Result UInt8) =
      .ok (UInt8.ofNat (unit.toNat / 256)) := by
    rw [hBytes, ← hLength, index_of_lt (by simp)]
    simp
  rw [ucs2Step, hLow, hHigh]
  show Except.ok (appendUtf16Unit out _) = _
  rw [joined_unit, appendUtf16Unit_eq]

/-- By induction on the units that are left, after those that are `done`. -/
theorem foldlM_ucs2Step (done rest : List UInt16) (out : Bytes) :
    (List.range' done.length rest.length).foldlM (ucs2Step (wireUnits (done ++ rest))) out =
      .ok (out ++ unitsUtf8 rest) := by
  induction rest generalizing done out with
  | nil => simp [unitsUtf8]; rfl
  | cons unit rest ih =>
    have hStep := ucs2Step_middle done rest unit out
    have hNext := ih (done ++ [unit]) (out ++ unitUtf8 unit)
    simp at hNext
    rw [List.length_cons, List.range'_succ, List.foldlM_cons, hStep]
    show (List.range' (done.length + 1) rest.length).foldlM _ (out ++ unitUtf8 unit) = _
    rw [hNext]
    simp [unitsUtf8]

/-- The loop converts all units, by induction on what is left. -/
theorem ucs2ToUtf8_wireUnits (units : List UInt16) :
    ucs2ToUtf8 (wireUnits units) = .ok (unitsUtf8 units) := by
  have hCount : (units.length * 2 + 1) / 2 = units.length := by omega
  have hLoop := foldlM_ucs2Step [] units []
  rw [ucs2ToUtf8, length_wireUnits, hCount, List.range_eq_range']
  simpa using hLoop

-- ---------------------------------------------------------------------------
-- The wire forms
-- ---------------------------------------------------------------------------

/-- A text as `PyWStringUCS2`. -/
def ucs2Wire (units : List UInt16) : Bytes :=
  Opcode.pyWStringUCS2.toByte :: (putSizeEx (UInt32.ofNat units.length) ++ wireUnits units)

/-- A text as `PyWStringUTF8`. -/
def utf8Wire (text : List Char) : Bytes := Opcode.pyWStringUTF8.toByte :: putSized (utf8 text)

/-- The forms that carry the units themselves: one unit also has `PyWStringUCS2Char`. -/
def unitForms : List UInt16 → List Bytes
  | [unit] => [ucs2Wire [unit], Opcode.pyWStringUCS2Char.toByte :: wireUnits [unit]]
  | units => [ucs2Wire units]

/-- What `DecodeValue` makes of `wire` where it stands between `pre` and `post`. -/
def valueAt (depth : Nat) (saved : SaveTable) (pre wire post : Bytes) : Result Value :=
  Prod.fst <$> decodeValue depth (Input.whole (pre ++ wire ++ post)) ⟨pre.length, saved⟩

/-- UCS-2 strings are read back unit by unit. -/
theorem reads_decodeWStringUcs2 {units : List UInt16} (h : units.length * 2 ≤ MAX_STRING_BYTES) :
    ReadsBack (decodeWStringUcs2 units.length) (wireUnits units) (.wString (unitsUtf8 units)) := by
  have hCount : ¬units.length > MAX_STRING_BYTES / 2 := by omega
  have hBytes := reads_readBytes (length_wireUnits units)
  rw [decodeWStringUcs2, if_neg hCount]
  refine (Reads.bind hBytes ?_).congr (List.append_nil _) rfl
  rw [ucs2ToUtf8_wireUnits]
  exact reads_pure _

section Tagged

variable {decodeNext : Decoder Value}

/-- The form with a length. -/
theorem encodes_ucs2 (units : List UInt16) :
    Encodes (decodeTagged decodeNext) (ucs2Wire units) (.wString (unitsUtf8 units)) := by
  refine encodes_tagged .pyWStringUCS2 (by decide) (ReadsBack.of_fits fun hFits => ?_)
  have hFits' : units.length * 2 ≤ MAX_STREAM_BYTES := by
    rw [List.length_append, length_wireUnits] at hFits
    omega
  have hLength : units.length ≤ MAX_STREAM_BYTES := by omega
  have hCount := toNat_ofNat_length hLength
  refine Reads.bind (reads_readBounded ?_) ?_
  · rw [hCount]
    exact hLength
  · rw [hCount]
    exact reads_decodeWStringUcs2 hFits'

/-- The form of a single unit. -/
theorem encodes_ucs2Char (unit : UInt16) :
    Encodes (decodeTagged decodeNext) (Opcode.pyWStringUCS2Char.toByte :: wireUnits [unit])
      (.wString (unitsUtf8 [unit])) := by
  have hOne : [unit].length * 2 ≤ MAX_STRING_BYTES := by simp [MAX_STRING_BYTES]
  exact encodes_tagged .pyWStringUCS2Char (by decide) (reads_decodeWStringUcs2 hOne)

/-- Either form of the units. -/
theorem encodes_unitForm {units : List UInt16} {wire : Bytes} (h : wire ∈ unitForms units) :
    Encodes (decodeTagged decodeNext) wire (.wString (unitsUtf8 units)) := by
  unfold unitForms at h
  split at h
  · rename_i unit
    simp only [List.mem_cons, List.not_mem_nil, or_false] at h
    obtain rfl | rfl := h
    · exact encodes_ucs2 [unit]
    · exact encodes_ucs2Char unit
  · obtain rfl := List.mem_singleton.mp h
    exact encodes_ucs2 units

/-- The form in UTF-8 is taken as it is. -/
theorem encodes_utf8 (text : List Char) :
    Encodes (decodeTagged decodeNext) (utf8Wire text) (.wString (utf8 text)) :=
  encodes_sized .pyWStringUTF8 .wString _ (utf8 text) (by decide) rfl

end Tagged

section ValueAt

variable {depth : Nat} {saved : SaveTable} {pre post : Bytes}

/-- A wire form is decoded in its place between other bytes. -/
theorem valueAt_eq {wire : Bytes} {v : Value}
    (h : ∀ decodeNext, Encodes (decodeTagged decodeNext) wire v) (hDepth : depth ≤ MAX_MARSHAL_DEPTH)
    (hFits : (pre ++ wire ++ post).length ≤ MAX_STREAM_BYTES) :
    valueAt depth saved pre wire post = .ok v := by
  have hLevels : ¬depth > MAX_MARSHAL_DEPTH := by omega
  have hRun := (h (decodeValue (depth + 1))).reads pre post saved hFits
  rw [valueAt, decodeValue_eq, if_neg hLevels, hRun]
  rfl

/-- The form of the units is the longest of those that carry them. -/
theorem length_le_ucs2Wire {units : List UInt16} {wire : Bytes} (h : wire ∈ unitForms units) :
    wire.length ≤ (ucs2Wire units).length := by
  unfold unitForms at h
  split at h
  · simp only [List.mem_cons, List.not_mem_nil, or_false] at h
    obtain rfl | rfl := h
    · omega
    · simp [ucs2Wire]
  · obtain rfl := List.mem_singleton.mp h
    omega

/--
**Wide strings.** A well-formed sequence of units, wherever its form stands in a stream that
has room for it, decodes to the UTF-8 of its code points, and so to what the UTF-8 form of
the text decodes to, exactly when no code point lies beyond the basic plane.
-/
theorem wideString_agrees_iff {units : List UInt16} {text : List Char}
    (hText : codePoints units = some text) (hDepth : depth ≤ MAX_MARSHAL_DEPTH)
    (hFits : (pre ++ ucs2Wire units ++ post).length ≤ MAX_STREAM_BYTES) :
    (∀ wire ∈ unitForms units,
      valueAt depth saved pre wire post = .ok (.wString (utf8 text)) ∧
        ∀ before after, (before ++ utf8Wire text ++ after).length ≤ MAX_STREAM_BYTES →
          valueAt depth saved before (utf8Wire text) after = valueAt depth saved pre wire post) ↔
      Basic text := by
  have hUnits := codePoints_eq_some_iff.mp hText
  have hValue : ∀ wire ∈ unitForms units,
      valueAt depth saved pre wire post = .ok (.wString (unitsUtf8 units)) := by
    intro wire hWire
    have hLength := length_le_ucs2Wire hWire
    simp only [List.length_append] at hFits
    refine valueAt_eq (fun _ => encodes_unitForm hWire) hDepth ?_
    simp only [List.length_append]
    omega
  rw [← unitsUtf8_eq_iff, ← hUnits]
  constructor
  · intro hAll
    have hMem : ucs2Wire units ∈ unitForms units := by
      unfold unitForms
      split <;> simp
    have hSame := (hAll _ hMem).1
    rw [hValue _ hMem] at hSame
    simpa using hSame
  · intro hSame wire hWire
    rw [hValue wire hWire, hSame]
    refine ⟨rfl, fun before after hRoom => ?_⟩
    exact valueAt_eq (fun _ => encodes_utf8 text) hDepth hRoom

/-- Three letters, of one, two and three bytes. -/
theorem wideString_agrees_letters :
    codePoints [0x41, 0xE9, 0x20AC] = some ['A', 'é', '€'] ∧ Basic ['A', 'é', '€'] ∧
      valueAt 0 [] [0x7E] (ucs2Wire [0x41, 0xE9, 0x20AC]) [0x28] =
        .ok (.wString (utf8 ['A', 'é', '€'])) := by
  have hText : codePoints [0x41, 0xE9, 0x20AC] = some ['A', 'é', '€'] := by decide
  have hBasic : Basic ['A', 'é', '€'] := by decide
  exact ⟨hText, hBasic, ((wideString_agrees_iff hText (Nat.zero_le _)
    (by decide)).mpr hBasic _ (List.mem_singleton.mpr rfl)).1⟩

/-- A well-formed pair decodes to the three bytes of each surrogate, which is not the UTF-8
of its code point. -/
theorem wideString_pair_diverges :
    codePoints [0xD83D, 0xDE00] = some [Char.ofNat 0x1F600] ∧
      valueAt 0 [] [] (ucs2Wire [0xD83D, 0xDE00]) [] =
        .ok (.wString [0xED, 0xA0, 0xBD, 0xED, 0xB8, 0x80]) ∧
      valueAt 0 [] [] (utf8Wire [Char.ofNat 0x1F600]) [] =
        .ok (.wString [0xF0, 0x9F, 0x98, 0x80]) ∧
      valueAt 0 [] [] (ucs2Wire [0xD83D, 0xDE00]) [] ≠
        .ok (.wString (utf8 [Char.ofNat 0x1F600])) := by
  have hPair : codePoints [0xD83D, 0xDE00] = some [Char.ofNat 0x1F600] := by decide
  have hUnits : valueAt 0 [] [] (ucs2Wire [0xD83D, 0xDE00]) [] =
      .ok (.wString [0xED, 0xA0, 0xBD, 0xED, 0xB8, 0x80]) :=
    valueAt_eq (fun _ => encodes_ucs2 _) (Nat.zero_le _) (by decide)
  have hBytes : valueAt 0 [] [] (utf8Wire [Char.ofNat 0x1F600]) [] =
      .ok (.wString [0xF0, 0x9F, 0x98, 0x80]) :=
    valueAt_eq (fun _ => encodes_utf8 _) (Nat.zero_le _) (by decide)
  refine ⟨hPair, hUnits, hBytes, ?_⟩
  rw [hUnits, Ne, Except.ok.injEq, Value.wString.injEq]
  decide

end ValueAt

end Ithax.Marshal
