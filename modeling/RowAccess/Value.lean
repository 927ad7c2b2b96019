/-
RowAccess.Value — the scalars that a column holds and a condition demands.

Two relations compare values. `==` is equality of kind and content. `agrees`
is the equality of a storage layer, in which a whole number and a float agree
when the number, rounded to a float, equals it. NaN stands in neither relation
to anything.

* `Value.agrees` — equality as a storage layer sees it.
* `Value.display` — the text of a value in conditions shown to people.
-/
import RowAccess.Decimal.Written
import RowAccess.Text.Quoted

namespace RowAccess

/-- A scalar of a column. -/
inductive Value where
  | bool (b : Bool)
  | int (n : Int64)
  | float (x : Float)
  | text (s : String)
  deriving BEq

namespace Value

/-- The float nearest to a whole number. -/
def roundInt (n : Int64) : Float := Float.ofInt n.toInt

/-- Whether a storage layer holds the two values to be equal: numbers compare
with each other, and no other two kinds do. -/
def agrees : Value → Value → Bool
  | bool a, bool b => a == b
  | int a, int b => a == b
  | float a, float b => a == b
  | int a, float b => roundInt a == b
  | float a, int b => roundInt b == a
  | text a, text b => a == b
  | _, _ => false

/-- Numbers are shown with every digit in its place, never with an exponent;
of two equally near shortest decimals the greater is shown. -/
def numberStyle : Decimal.Style where
  plain _ := true
  pointZero := false
  tie := .up

/-- The text of a float. -/
def floatText (x : Float) : String :=
  if x.isNaN then "NaN"
  else if x.isInf then if Decimal.isNegative x then "-inf" else "inf"
  else String.ofList (numberStyle.write x)

/-- The text of a truth value. -/
def boolText (b : Bool) : String := if b then "true" else "false"

/-- The text of a value in conditions shown to people: text is quoted. -/
def display : Value → String
  | bool b => boolText b
  | int n => n.toInt.repr
  | float x => floatText x
  | text s => Text.quoted s

end Value

end RowAccess
