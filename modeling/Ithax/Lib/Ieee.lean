import Ithax.Lib.LittleEndian

/-!
# Binary32 and binary64 bit patterns

Conversions between the two widths on raw bit patterns, round to nearest even,
and the comparison with zero. Widening a signalling NaN quiets it, as the
hardware conversion does.
-/

namespace Ithax.Lib

/-- `x == 0.0` on a binary64 pattern: both zeros compare equal. -/
def isZeroReal (bits : UInt64) : Bool :=
  bits == 0 || bits == 0x8000000000000000

/-- `n / 2 ^ k` rounded to nearest, ties to even. -/
def roundShift (n k : Nat) : Nat :=
  let q := n / 2 ^ k
  let r := n % 2 ^ k
  if 2 * r > 2 ^ k ∨ (2 * r = 2 ^ k ∧ q % 2 = 1) then q + 1 else q

/-- `static_cast<float>` of a binary64 pattern. -/
def narrowReal (bits : UInt64) : UInt32 :=
  let n := bits.toNat
  let sign := n / 2 ^ 63 * 2 ^ 31
  let exponent := n / 2 ^ 52 % 2 ^ 11
  let fraction := n % 2 ^ 52
  let magnitude :=
    if exponent = 0x7FF then
      if fraction = 0 then 0x7F800000
      else 0x7FC00000 ||| fraction / 2 ^ 29
    else
      let e := max exponent 1
      let m := if exponent = 0 then fraction else fraction + 2 ^ 52
      -- the hidden bit of `m` carries into the exponent field
      if 897 ≤ e then min ((e - 897) * 2 ^ 23 + roundShift m 29) 0x7F800000
      else roundShift m (29 + (897 - e))
  UInt32.ofNat (sign + magnitude)

/-- The binary64 pattern of a binary32 number. -/
def widenReal (bits : UInt32) : UInt64 :=
  let n := bits.toNat
  let sign := n / 2 ^ 31 * 2 ^ 63
  let exponent := n / 2 ^ 23 % 2 ^ 8
  let fraction := n % 2 ^ 23
  let magnitude :=
    if exponent = 0xFF then
      if fraction = 0 then 0x7FF * 2 ^ 52
      else 0x7FF * 2 ^ 52 + (fraction * 2 ^ 29 ||| 2 ^ 51)
    else if exponent = 0 then
      if fraction = 0 then 0
      else
        -- a subnormal becomes normal: its top bit is the hidden one
        let k := Nat.log2 fraction
        (k + 874) * 2 ^ 52 + (fraction * 2 ^ (52 - k) - 2 ^ 52)
    else (exponent + 896) * 2 ^ 52 + fraction * 2 ^ 29
  UInt64.ofNat (sign + magnitude)

end Ithax.Lib
