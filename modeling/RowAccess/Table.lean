/-
RowAccess.Table — records of one subject held in memory.

* `Table.accessible` — the records on which a rule source grants an action.
-/
import RowAccess.Filter
import RowAccess.Ruling

namespace RowAccess

/-- The records of a subject, in the order of their insertion. -/
structure Table (σ : Type) where
  subject : Subject
  records : List Record := []
  options : Options σ := {}

namespace Table

variable {σ : Type}

/-- An empty table of a subject. -/
def ofSubject (name : String) : Except Subject.Fault (Table σ) := do
  let subject ← Subject.ofName name
  return { subject }

/-- Adds a record after all others. -/
def insert (t : Table σ) (r : Record) : Table σ := { t with records := t.records ++ [r] }

/-- The number of records. -/
def size (t : Table σ) : Nat := t.records.length

/-- Whether there is no record. -/
def isEmpty (t : Table σ) : Bool := t.records.isEmpty

/-- The records on which a source grants an action, in the order of the table.
Where access is denied the records are not looked at. -/
def accessible (t : Table σ) (source : RuleSource) (action : String) :
    StateM σ (Traced (List Record)) := do
  let ruling ← source.ruling t.options action t.subject.name Filter.empty
  match ruling.verdict with
  | .noAccess => pure ⟨[], ruling.events ++ [.scanSkipped t.subject.name action]⟩
  | .unrestricted f | .filtered f => pure ⟨t.records.filter f.admits, ruling.events⟩

/-- The records on which a source grants the default action. -/
def accessibleByDefault (t : Table σ) (source : RuleSource) :
    StateM σ (Traced (List Record)) :=
  t.accessible source RuleSource.defaultAction

end Table

end RowAccess
