/-
RowAccess.Json.Writer — values and rules as JSON.

Objects are written without blanks, conditions in their order. Floats always
have a point or an exponent, so a reader can tell them from whole numbers;
NaN and the infinities have no numeral and are written as `null`.

* `writeValue`, `writeConditions`, `writeRule`, `writeRules` — the texts.
-/
import RowAccess.Rule

namespace RowAccess.Json

/-- Floats are written without exponent from 0.00001 up to 16 digits before
the point; of two equally near shortest decimals the even one is written. -/
def numberStyle : Decimal.Style where
  plain e := -5 ≤ e && e < 16
  pointZero := true
  tie := .toEven

/-- The text of a float. -/
def floatText (x : Float) : List Char :=
  if x.isNaN || x.isInf then "null".toList else numberStyle.write x

/-- A digit of an escaped code unit, in lower case. -/
def hexDigit (n : Nat) : Char := Nat.digitChar n

/-- A character as written between quotes. Only quotes, backslashes and
controls are escaped. -/
def escaped (c : Char) : List Char :=
  match c with
  | '"' => ['\\', '"']
  | '\\' => ['\\', '\\']
  | '\x08' => ['\\', 'b']
  | '\x0c' => ['\\', 'f']
  | '\n' => ['\\', 'n']
  | '\r' => ['\\', 'r']
  | '\t' => ['\\', 't']
  | c =>
    if c.toNat < 0x20 then
      ['\\', 'u', '0', '0', hexDigit (c.toNat / 16), hexDigit (c.toNat % 16)]
    else [c]

/-- The text of a string. -/
def quoted (s : String) : List Char := '"' :: s.toList.flatMap escaped ++ ['"']

/-- The text of a value. -/
def writeValue : Value → List Char
  | .bool b => (Value.boolText b).toList
  | .int n => n.toInt.repr.toList
  | .float x => floatText x
  | .text s => quoted s

/-- The text of conditions: an object of fields and values. -/
def writeConditions (c : Conditions) : List Char :=
  '{' :: [','].intercalate
    (c.pairs.map fun (name, value) => quoted name ++ ':' :: writeValue value) ++ ['}']

/-- The text of a rule. -/
def writeRule (r : Rule) : List Char :=
  let conditions :=
    match r.conditions with
    | some c => writeConditions c
    | none => "null".toList
  '{' :: quoted "conditions" ++ ':' :: conditions ++
    ',' :: quoted "inverted" ++
    ':' :: (Value.boolText (r.effect == .deny)).toList ++ ['}']

/-- The text of a list of rules. -/
def writeRules (rules : RuleList) : List Char :=
  '[' :: [','].intercalate (rules.toList.map writeRule) ++ [']']

end RowAccess.Json
