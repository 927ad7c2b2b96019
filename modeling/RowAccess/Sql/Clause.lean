/-
RowAccess.Sql.Clause — requirements as they stand in a where clause.

* `Clause` — an equality asked for by the caller, or a term of a filter.
* `Clause.written` — its text in a dialect.
* `Where` — a predicate that renders each of its terms as a clause.
-/
import RowAccess.Filter
import RowAccess.Sql.Dialect

namespace RowAccess.Sql

/-- A requirement of a where clause. Clauses are joined by `and`. -/
inductive Clause where
  | equals (field : String) (value : Value)
  | term (requirement : Term)

/-- The equalities of conditions, each behind `lead`, joined by `and`. -/
def equalities (d : Dialect) (lead : List Char) (c : Conditions) : List Char :=
  " and ".toList.intercalate
    (c.pairs.map fun (name, value) => lead ++ d.equality name value)

/-- The text of a clause. Exclusion negates every equality by itself, since
it is meant to reject a row as soon as one of them holds. -/
def Clause.written (d : Dialect) : Clause → List Char
  | equals field value => d.equality field value
  | term (.noneOf c) => equalities d "not ".toList c
  | term (.anyOf alternatives) =>
    '(' :: " or ".toList.intercalate
      (alternatives.map fun c => '(' :: equalities d [] c ++ [')']) ++ [')']

/-- The text of a clause. -/
def Clause.text (d : Dialect) (c : Clause) : String := String.ofList (c.written d)

/-- The terms of a predicate, in the order in which they were added, and the
dialect they are written in. -/
structure Where where
  dialect : Dialect
  terms : List Term := []

namespace Where

/-- Whether there is no term. -/
def isEmpty (w : Where) : Bool := w.terms.isEmpty

/-- The texts of the terms, to be joined by `and`. -/
def fragments (w : Where) : List String :=
  w.terms.map fun t => (Clause.term t).text w.dialect

instance : Restriction Where where
  exclude w c := { w with terms := w.terms ++ [.noneOf c] }
  requireAny w alternatives := { w with terms := w.terms ++ [.anyOf alternatives] }

end Where

end RowAccess.Sql
