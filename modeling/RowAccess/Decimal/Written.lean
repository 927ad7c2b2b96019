/-
RowAccess.Decimal.Written — floats as decimal text.

A `Style` holds the decisions of one output format; `Float` text is the
shortest decimal laid out in that style. The styles themselves stand with the
formats they belong to.

* `Decimal.positional` — digits with the point in its place.
* `Decimal.scientific` — one digit before the point and a signed exponent.
* `Style.write` — the text of a finite float.
-/
import RowAccess.Decimal.Shortest

namespace RowAccess.Decimal

/-- The decisions of a decimal number format. -/
structure Style where
  /-- Whether a number whose leading digit counts units of `10^e` is written
  without an exponent. -/
  plain : Int → Bool
  /-- Whether a whole number written without exponent ends in `.0`. -/
  pointZero : Bool
  /-- Which of two equally near shortest decimals is written. -/
  tie : Tie

/-- The decimal digits of the coefficient, leading digit first. -/
def digitChars (d : Decimal) : List Char := Nat.toDigits 10 d.digits

/-- The power of ten that the leading digit counts. -/
def leading (d : Decimal) : Int := d.digitChars.length - 1 + d.exponent

/-- The decimal written without exponent. -/
def positional (pointZero : Bool) (d : Decimal) : List Char :=
  let ds := d.digitChars
  if 0 ≤ d.exponent then
    ds ++ List.replicate d.exponent.toNat '0' ++ if pointZero then ['.', '0'] else []
  else
    let places := (-d.exponent).toNat
    if places < ds.length then
      ds.take (ds.length - places) ++ '.' :: ds.drop (ds.length - places)
    else
      '0' :: '.' :: List.replicate (places - ds.length) '0' ++ ds

/-- The decimal written with an exponent, whose sign is always shown. -/
def scientific (d : Decimal) : List Char :=
  let mark := if 0 ≤ d.leading then ['e', '+'] else ['e', '-']
  let exponent := mark ++ Nat.toDigits 10 d.leading.natAbs
  match d.digitChars with
  | [] => exponent
  | [c] => c :: exponent
  | c :: rest => c :: '.' :: rest ++ exponent

/-- The decimal laid out in a style. -/
def Style.layout (style : Style) (d : Decimal) : List Char :=
  if style.plain d.leading then d.positional style.pointZero else d.scientific

/-- Whether the sign bit is set, as it also is on negative zero. -/
def isNegative (x : Float) : Bool := x.toBits >>> 63 == 1

/-- The text of a finite float: its sign, if negative, and the shortest
decimal that reads back to it. -/
def Style.write (style : Style) (x : Float) : List Char :=
  let sign := if isNegative x then ['-'] else []
  sign ++ style.layout ((Binary.ofBits x.toBits).shortest style.tie)

end RowAccess.Decimal
