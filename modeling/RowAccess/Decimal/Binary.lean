/-
RowAccess.Decimal.Binary — decimals, and the exact values behind 64-bit floats.

A finite float is a sign and a value `significand · 2^exponent`. The decimals
that a reader rounds to it form an interval around that value, reaching half
way to each neighbour and including its ends exactly when the significand is
even. `Binary.readsBack` decides membership in that interval by
cross-multiplying naturals, so nothing here rounds.

* `Binary.ofBits` — the value of a bit pattern, sign aside.
* `Decimal.compareTo` — exact comparison of a decimal with `n · 2^j`.
* `Binary.readsBack` — whether a decimal lies in the rounding interval.
* `Decimal.toFloat` — the float nearest to a decimal, ties to even.
-/

namespace RowAccess

/-- A non-negative decimal fraction `digits · 10^exponent`. -/
structure Decimal where
  digits : Nat
  exponent : Int
  deriving DecidableEq

namespace Decimal

/-- A non-negative binary fraction `significand · 2^exponent`. -/
structure Binary where
  significand : Nat
  exponent : Int
  /-- The neighbour below is half as far away as the neighbour above. This is
  so at a power of two, except at the least normal one. -/
  narrowBelow : Bool

/-- The magnitude that a bit pattern stands for. The patterns of NaN and of
the infinities stand for no magnitude: callers tell them apart first. -/
def Binary.ofBits (bits : UInt64) : Binary :=
  let exponentField := ((bits >>> 52) &&& 0x7FF).toNat
  let fraction := (bits &&& 0xFFFFFFFFFFFFF).toNat
  if exponentField = 0 then
    ⟨fraction, -1074, false⟩
  else
    ⟨0x10000000000000 + fraction, exponentField - 1075,
      fraction == 0 && exponentField > 1⟩

/-- Compares `d` with `n · 2^j`, exactly. -/
def compareTo (d : Decimal) (n : Nat) (j : Int) : Ordering :=
  compare (d.digits * Nat.pow 10 d.exponent.toNat * Nat.pow 2 (-j).toNat)
    (n * Nat.pow 2 j.toNat * Nat.pow 10 (-d.exponent).toNat)

/-- Whether `d` is rounded to `x`, to nearest and with ties to the even
significand. The interval is written in quarters of the gap above `x`. -/
def Binary.readsBack (x : Binary) (d : Decimal) : Bool :=
  let below := if x.narrowBelow then 4 * x.significand - 1 else 4 * x.significand - 2
  let above := 4 * x.significand + 2
  let ends := x.significand % 2 == 0
  let low := d.compareTo below (x.exponent - 2)
  let high := d.compareTo above (x.exponent - 2)
  (low == .gt || (ends && low == .eq)) && (high == .lt || (ends && high == .eq))

/-- The float nearest to `d`: infinite beyond the greatest finite one, zero
below half of the least positive one. Magnitudes far outside the range are
answered before any power of ten is formed, so a long exponent costs nothing. -/
def toFloat (d : Decimal) : Float :=
  if d.digits = 0 then 0
  else
    let magnitude := d.digits.log2 * 30103 / 100000 + d.exponent
    if magnitude > 320 then Float.ofBits 0x7FF0000000000000
    else if magnitude < -340 then 0
    else Float.ofScientific d.digits (d.exponent < 0) d.exponent.natAbs

/-- The float nearest to a signed decimal. A negative zero keeps its sign. -/
def toSignedFloat (negative : Bool) (d : Decimal) : Float :=
  if negative then -d.toFloat else d.toFloat

end Decimal

end RowAccess
