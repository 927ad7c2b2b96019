/-
RowAccess.Sql.Dialect — how a database writes names and values.

An identifier stands between the quote marks of its dialect and a string
between single quotes; a mark inside is written twice, all else stands for
itself.

* `Dialect.identifier` — a column or table name.
* `Dialect.literal` — a value.
-/
import RowAccess.Value

namespace RowAccess.Sql

/-- The databases that queries are written for. -/
inductive Dialect where
  | postgres
  | sqlite
  | mysql
  deriving DecidableEq

/-- A text between two marks, with each mark inside written twice. -/
def delimited (mark : Char) (s : List Char) : List Char :=
  mark :: s.flatMap (fun c => if c = mark then [mark, mark] else [c]) ++ [mark]

namespace Dialect

/-- The mark around identifiers. -/
def identifierMark : Dialect → Char
  | postgres => '"'
  | sqlite => '\x60'
  | mysql => '\x60'

/-- The written form of a column or table name. -/
def identifier (d : Dialect) (name : String) : List Char :=
  delimited d.identifierMark name.toList

/-- The written form of a truth value. -/
def boolean : Dialect → Bool → List Char
  | sqlite, b => if b then ['1'] else ['0']
  | _, b => (Value.boolText b).toList

/-- The written form of a float. NaN and the infinities have no numeral: they
are written as strings, which a float column reads. -/
def float (x : Float) : List Char :=
  if x.isNaN then "'NaN'".toList
  else if x.isInf then
    if Decimal.isNegative x then "'-Infinity'".toList else "'Infinity'".toList
  else (Value.floatText x).toList

/-- The written form of a value. -/
def literal (d : Dialect) : Value → List Char
  | .bool b => d.boolean b
  | .int n => n.toInt.repr.toList
  | .float x => float x
  | .text s => delimited '\'' s.toList

/-- The requirement that a column holds a value. -/
def equality (d : Dialect) (name : String) (value : Value) : List Char :=
  d.identifier name ++ " = ".toList ++ d.literal value

end Dialect

end RowAccess.Sql
