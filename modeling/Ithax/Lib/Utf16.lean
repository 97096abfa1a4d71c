import Mathlib.Data.Nat.Bitwise

/-!
# UTF-16

Text as UTF-16 code units: a code point of the basic plane is one unit, any other is a high
surrogate and a low one. `codePoints` reads a sequence of units back and fails where a
surrogate stands alone, so the sequences that it reads are the well-formed ones.

* `codePoints_eq_some_iff` — it is the inverse of `utf16`, on exactly its range.
-/

namespace Ithax.Lib

/-- The first code point that takes two units. -/
def SUPPLEMENTARY : Nat := 0x10000

/-- The first unit of a pair. -/
def isHighSurrogate (unit : UInt16) : Bool := 0xD800 ≤ unit.toNat ∧ unit.toNat < 0xDC00

/-- The second unit of a pair. -/
def isLowSurrogate (unit : UInt16) : Bool := 0xDC00 ≤ unit.toNat ∧ unit.toNat < 0xE000

/-- The upper ten bits of a code point outside the basic plane. -/
def highSurrogate (c : Char) : UInt16 :=
  UInt16.ofNat (0xD800 + (c.toNat - SUPPLEMENTARY) / 0x400)

/-- Its lower ten bits. -/
def lowSurrogate (c : Char) : UInt16 :=
  UInt16.ofNat (0xDC00 + (c.toNat - SUPPLEMENTARY) % 0x400)

/-- The units of a code point. -/
def utf16Char (c : Char) : List UInt16 :=
  if c.toNat < SUPPLEMENTARY then [UInt16.ofNat c.toNat] else [highSurrogate c, lowSurrogate c]

/-- A text in UTF-16. -/
def utf16 (text : List Char) : List UInt16 := text.flatMap utf16Char

/-- A text in UTF-8. -/
def utf8 (text : List Char) : List UInt8 := text.flatMap String.utf8EncodeChar

/-- The code point of a pair of surrogates. -/
def pairedChar (high low : UInt16) : Char :=
  Char.ofNat (SUPPLEMENTARY + (high.toNat - 0xD800) * 0x400 + (low.toNat - 0xDC00))

/-- The text a sequence of units stands for, when no surrogate stands alone. -/
def codePoints : List UInt16 → Option (List Char)
  | [] => some []
  | [unit] =>
    if isHighSurrogate unit ∨ isLowSurrogate unit then none else some [Char.ofNat unit.toNat]
  | unit :: next :: units =>
    if isHighSurrogate unit then
      if isLowSurrogate next then (codePoints units).map (pairedChar unit next :: ·) else none
    else if isLowSurrogate unit then none
    else (codePoints (next :: units)).map (Char.ofNat unit.toNat :: ·)

@[simp] theorem utf16_nil : utf16 [] = [] := rfl

@[simp] theorem utf16_cons (c : Char) (text : List Char) :
    utf16 (c :: text) = utf16Char c ++ utf16 text := List.flatMap_cons

@[simp] theorem utf8_nil : utf8 [] = [] := rfl

@[simp] theorem utf8_cons (c : Char) (text : List Char) :
    utf8 (c :: text) = String.utf8EncodeChar c ++ utf8 text := List.flatMap_cons

-- ---------------------------------------------------------------------------
-- Code points
-- ---------------------------------------------------------------------------

/-- A character is no surrogate and at most `0x10FFFF`. -/
theorem toNat_valid (c : Char) : c.toNat < 0xD800 ∨ 0xDFFF < c.toNat ∧ c.toNat < 0x110000 :=
  c.valid

/-- Such a number is the code point of its character. -/
theorem toNat_ofNat_of_valid {n : Nat} (h : n < 0xD800 ∨ 0xDFFF < n ∧ n < 0x110000) :
    (Char.ofNat n).toNat = n := by
  have hValid : n.isValidChar := h
  have hChar : Char.ofNat n = Char.ofNatAux n hValid := dif_pos hValid
  rw [hChar]
  rfl

/-- One unit in the basic plane. -/
theorem utf16Char_of_lt {c : Char} (h : c.toNat < SUPPLEMENTARY) :
    utf16Char c = [UInt16.ofNat c.toNat] := if_pos h

/-- Two units outside it. -/
theorem utf16Char_of_le {c : Char} (h : SUPPLEMENTARY ≤ c.toNat) :
    utf16Char c = [highSurrogate c, lowSurrogate c] := if_neg (by omega)

/-- The unit of a code point of the basic plane is no surrogate. -/
theorem not_surrogate_of_lt {c : Char} (h : c.toNat < SUPPLEMENTARY) :
    isHighSurrogate (UInt16.ofNat c.toNat) = false ∧
      isLowSurrogate (UInt16.ofNat c.toNat) = false := by
  have hValid := toNat_valid c
  unfold SUPPLEMENTARY at h
  simp [isHighSurrogate, isLowSurrogate]
  omega

/-- Nothing is cut off when the high surrogate is made a unit. -/
theorem toNat_highSurrogate (c : Char) :
    (highSurrogate c).toNat = 0xD800 + (c.toNat - SUPPLEMENTARY) / 0x400 := by
  have hValid := toNat_valid c
  rw [highSurrogate, UInt16.toNat_ofNat', SUPPLEMENTARY]
  omega

/-- Nor when the low one is. -/
theorem toNat_lowSurrogate (c : Char) :
    (lowSurrogate c).toNat = 0xDC00 + (c.toNat - SUPPLEMENTARY) % 0x400 := by
  rw [lowSurrogate, UInt16.toNat_ofNat']
  omega

theorem isHighSurrogate_highSurrogate (c : Char) : isHighSurrogate (highSurrogate c) = true := by
  have hValid := toNat_valid c
  rw [isHighSurrogate, toNat_highSurrogate, SUPPLEMENTARY, decide_eq_true_eq]
  omega

theorem isLowSurrogate_lowSurrogate (c : Char) : isLowSurrogate (lowSurrogate c) = true := by
  rw [isLowSurrogate, toNat_lowSurrogate, decide_eq_true_eq]
  omega

/-- The pair of a code point stands for it. -/
theorem pairedChar_surrogates {c : Char} (h : SUPPLEMENTARY ≤ c.toNat) :
    pairedChar (highSurrogate c) (lowSurrogate c) = c := by
  have hPoint : SUPPLEMENTARY + (0xD800 + (c.toNat - SUPPLEMENTARY) / 0x400 - 0xD800) * 0x400 +
      (0xDC00 + (c.toNat - SUPPLEMENTARY) % 0x400 - 0xDC00) = c.toNat := by
    unfold SUPPLEMENTARY at *
    omega
  rw [pairedChar, toNat_highSurrogate, toNat_lowSurrogate, hPoint, Char.ofNat_toNat]

-- ---------------------------------------------------------------------------
-- Both ways
-- ---------------------------------------------------------------------------

/-- What was written is read back. -/
theorem codePoints_utf16 (text : List Char) : codePoints (utf16 text) = some text := by
  induction text with
  | nil => rfl
  | cons c text ih =>
    rw [utf16_cons]
    by_cases hPlane : c.toNat < SUPPLEMENTARY
    · obtain ⟨hHigh, hLow⟩ := not_surrogate_of_lt hPlane
      have hUnit : (UInt16.ofNat c.toNat).toNat = c.toNat := by
        rw [UInt16.toNat_ofNat']
        exact Nat.mod_eq_of_lt hPlane
      rw [utf16Char_of_lt hPlane, List.singleton_append]
      -- the reader has an arm of its own for a unit that comes last
      cases hRest : utf16 text with
      | nil =>
        rw [hRest, codePoints, Option.some.injEq] at ih
        simp [codePoints, hHigh, hLow, hUnit, ← ih]
      | cons unit units =>
        rw [hRest] at ih
        simp [codePoints, hHigh, hLow, hUnit, ih]
    · have hPair := pairedChar_surrogates (Nat.le_of_not_lt hPlane)
      rw [utf16Char_of_le (Nat.le_of_not_lt hPlane)]
      simp [codePoints, isHighSurrogate_highSurrogate, isLowSurrogate_lowSurrogate, hPair, ih]

/-- A unit that is no surrogate is the one unit of its code point. -/
theorem utf16Char_ofNat {unit : UInt16} (hHigh : isHighSurrogate unit = false)
    (hLow : isLowSurrogate unit = false) : utf16Char (Char.ofNat unit.toNat) = [unit] := by
  have hSize := unit.toNat_lt
  simp [isHighSurrogate, isLowSurrogate] at hHigh hLow
  have hValid : unit.toNat < 0xD800 ∨ 0xDFFF < unit.toNat ∧ unit.toNat < 0x110000 := by omega
  have hUnit := toNat_ofNat_of_valid hValid
  rw [utf16Char_of_lt (by rw [hUnit]; exact hSize), hUnit, UInt16.ofNat_toNat]

/-- The code point of a pair has that pair. -/
theorem utf16Char_pairedChar {high low : UInt16} (hHigh : isHighSurrogate high = true)
    (hLow : isLowSurrogate low = true) : utf16Char (pairedChar high low) = [high, low] := by
  simp only [isHighSurrogate, isLowSurrogate, decide_eq_true_eq] at hHigh hLow
  have hPoint : (pairedChar high low).toNat =
      0x10000 + (high.toNat - 0xD800) * 0x400 + (low.toNat - 0xDC00) :=
    toNat_ofNat_of_valid (by unfold SUPPLEMENTARY; omega)
  have hPlane : SUPPLEMENTARY ≤ (pairedChar high low).toNat := by
    rw [hPoint, SUPPLEMENTARY]
    omega
  have hFirst : highSurrogate (pairedChar high low) = high := by
    rw [← UInt16.toNat_inj, toNat_highSurrogate, hPoint, SUPPLEMENTARY]
    omega
  have hSecond : lowSurrogate (pairedChar high low) = low := by
    rw [← UInt16.toNat_inj, toNat_lowSurrogate, hPoint, SUPPLEMENTARY]
    omega
  rw [utf16Char_of_le hPlane, hFirst, hSecond]

/-- What is read is the UTF-16 form of what it was read as. -/
theorem utf16_of_codePoints {units : List UInt16} : ∀ {text : List Char},
    codePoints units = some text → units = utf16 text := by
  -- along the cases of the reader
  induction units using codePoints.induct with
  | case1 =>
    intro text h
    simp [codePoints] at h
    simp [h]
  | case2 unit hSurrogate =>
    intro text h
    simp [codePoints, hSurrogate] at h
  | case3 unit hPlain =>
    intro text h
    simp at hPlain
    simp [codePoints, hPlain] at h
    simp [← h, utf16Char_ofNat hPlain.1 hPlain.2]
  | case4 high low units hHigh hLow ih =>
    intro text h
    simp only [codePoints, hHigh, hLow, if_true, Option.map_eq_some_iff] at h
    obtain ⟨rest, hRest, rfl⟩ := h
    rw [utf16_cons, utf16Char_pairedChar hHigh hLow, ← ih hRest]
    rfl
  | case5 high next units hHigh hNext =>
    intro text h
    simp [codePoints, hHigh, hNext] at h
  | case6 unit next units hHigh hLow =>
    intro text h
    simp [codePoints, hHigh, hLow] at h
  | case7 unit next units hHigh hLow ih =>
    intro text h
    simp only [Bool.not_eq_true] at hHigh hLow
    simp only [codePoints, hHigh, hLow, Bool.false_eq_true, if_false,
      Option.map_eq_some_iff] at h
    obtain ⟨rest, hRest, rfl⟩ := h
    rw [utf16_cons, utf16Char_ofNat hHigh hLow, ← ih hRest]
    rfl

/-- **The well-formed sequences.** A sequence of units has code points exactly when it is
the UTF-16 form of a text, and these are then that text. -/
theorem codePoints_eq_some_iff {units : List UInt16} {text : List Char} :
    codePoints units = some text ↔ units = utf16 text :=
  ⟨utf16_of_codePoints, fun h => h ▸ codePoints_utf16 text⟩

end Ithax.Lib
