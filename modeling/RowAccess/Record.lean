/-
RowAccess.Record — one row, as evaluation in memory sees it.

A record maps field names to values. A dotted name is a single column. Fields
have no order of their own; they are listed by name.

* `Record.ofList` — the record of a list of fields, where the last one of a
  name wins.
* `Record.set`, `Record.get?` — write and read a field.
-/
import Std.Data.TreeMap
import RowAccess.Value

namespace RowAccess

/-- A row: field names with their values. -/
structure Record where
  fields : Std.TreeMap String Value

namespace Record

/-- The record without fields. -/
def empty : Record := ⟨∅⟩

instance : EmptyCollection Record where
  emptyCollection := empty

/-- The value of a field, if the record has it. -/
def get? (r : Record) (name : String) : Option Value := r.fields[name]?

/-- Gives a field a value, in place of any earlier one. -/
def set (r : Record) (name : String) (value : Value) : Record :=
  ⟨r.fields.insert name value⟩

/-- The record of a list of fields. The last value of a name stands. -/
def ofList (fields : List (String × Value)) : Record :=
  fields.foldl (fun r (name, value) => r.set name value) empty

/-- The fields, by name in the order of code points. -/
def toList (r : Record) : List (String × Value) := r.fields.toList

/-- Two records are equal when they have the same names with equal values. -/
instance : BEq Record where
  beq r s := r.toList == s.toList

@[simp, grind =] theorem get?_empty (name : String) : empty.get? name = none := by
  simp [empty, get?]

@[simp, grind =] theorem get?_set (r : Record) (name other : String) (value : Value) :
    (r.set name value).get? other =
      if name = other then some value else r.get? other := by
  simp [set, get?, Std.TreeMap.getElem?_insert]

end Record

end RowAccess
