/-
RowAccess.Filter — predicates built up of requirements.

A predicate starts as one that every record satisfies. Each requirement is
added to all earlier ones, and the order in which they were added is kept. A
storage layer has predicates of its own. The ones here are filters, which can
be looked into and evaluated.

A filter keeps its requirements as terms, all of which have to hold. The empty
filter admits every record. An absent field behaves like a column without a
value: neither `=` nor its negation holds of it, so a term that excludes a
value rejects a record that lacks the field.

* `Restriction` — the two requirements that rules give rise to.
* `Term` — one requirement of a filter.
* `Filter.admits` — evaluation on a record.
-/
import RowAccess.Conditions

namespace RowAccess

/-- Predicates on records to which requirements can be added. -/
class Restriction (β : Type) where
  /-- Further requires that no field of the conditions holds the given value. -/
  exclude : β → Conditions → β
  /-- Further requires that at least one of the conditions holds. -/
  requireAny : β → List Conditions → β

/-- One requirement of a filter. -/
inductive Term where
  /-- No field of the conditions is absent or holds the given value. -/
  | noneOf (conditions : Conditions)
  /-- At least one of the conditions holds. -/
  | anyOf (alternatives : List Conditions)
  deriving BEq

namespace Term

/-- Whether a record meets the requirement. -/
def admits : Term → Record → Bool
  | noneOf c, r => c.pairs.all fun (name, denied) => (r.get? name).any (!·.agrees denied)
  | anyOf alternatives, r => alternatives.any (·.holds r)

/-- A requirement as shown to people. -/
def display : Term → String
  | noneOf c =>
    " AND ".intercalate (c.pairs.map fun (name, value) =>
      "NOT (" ++ name ++ " = " ++ value.display ++ ")")
  | anyOf alternatives =>
    "(" ++ " OR ".intercalate (alternatives.map fun c => "(" ++ c.display ++ ")") ++ ")"

end Term

/-- Requirements in the order in which they were added. -/
structure Filter where
  terms : List Term := []
  deriving BEq

namespace Filter

/-- The filter without requirements. -/
def empty : Filter := {}

/-- Whether there is no requirement. -/
def isEmpty (f : Filter) : Bool := f.terms.isEmpty

/-- Whether a record meets every requirement. -/
def admits (f : Filter) (r : Record) : Bool := f.terms.all (·.admits r)

instance : Restriction Filter where
  exclude f c := ⟨f.terms ++ [.noneOf c]⟩
  requireAny f alternatives := ⟨f.terms ++ [.anyOf alternatives]⟩

/-- A filter as shown to people. -/
def display (f : Filter) : String :=
  if f.isEmpty then "TRUE" else " AND ".intercalate (f.terms.map (·.display))

end Filter

end RowAccess
