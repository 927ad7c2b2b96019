/-
RowAccess.Sql.Select — a query for the accessible rows of a table.

Clauses are added in the order of the steps that give rise to them, whether
they come from the caller or from access rules. Each keeps the dialect that
was set when it was added; the name of the table is written in the dialect
set last.

* `Select.whereEq` — a requirement of the caller.
* `Select.accessible` — restriction to what a rule source grants.
* `Select.text` — the query.
-/
import RowAccess.Ruling
import RowAccess.Sql.Clause

namespace RowAccess.Sql

/-- The column of the requirement that no row meets. -/
def defaultSentinel : String := "__forbidden_by_policy__"

/-- Settings of a query. -/
structure Settings (σ : Type) where
  dialect : Dialect := .postgres
  /-- A column that no row has. Demanding a value of it empties a query. -/
  sentinel : String := defaultSentinel
  access : Options σ := {}

/-- A clause with the dialect it is written in. -/
structure Placed where
  dialect : Dialect
  clause : Clause

/-- The text of a clause in its dialect. -/
def Placed.text (p : Placed) : String := p.clause.text p.dialect

/-- A query for the rows of a table that holds the records of a subject. -/
structure Select (σ : Type) where
  subject : Subject
  table : String
  settings : Settings σ := {}
  clauses : List Placed := []
  /-- The query returns no rows, so it need not be run. -/
  resolvesEmpty : Bool := false

namespace Select

variable {σ : Type}

/-- The query for all rows of a table. -/
def ofSubject (name table : String) : Except Subject.Fault (Select σ) := do
  let subject ← Subject.ofName name
  return { subject, table }

/-- Replaces the settings. Clauses added before stay as they are. -/
def withSettings (q : Select σ) (settings : Settings σ) : Select σ := { q with settings }

/-- Adds clauses, in the dialect now set. -/
def add (q : Select σ) (clauses : List Clause) : Select σ :=
  { q with clauses := q.clauses ++ clauses.map (⟨q.settings.dialect, ·⟩) }

/-- Further requires that a column holds a value. -/
def whereEq (q : Select σ) (field : String) (value : Value) : Select σ :=
  q.add [.equals field value]

/-- Further requires that a source grants an action on the row. If nothing is
granted, the query is given a requirement that no row meets. -/
def accessible (q : Select σ) (source : RuleSource) (action : String) :
    StateM σ (Traced (Select σ)) := do
  let start : Where := { dialect := q.settings.dialect }
  let ruling ← source.ruling q.settings.access action q.subject.name start
  match ruling.verdict with
  | .noAccess =>
    pure ⟨{ q.whereEq q.settings.sentinel (.int 1) with resolvesEmpty := true },
      ruling.events ++ [.queryEmptied q.subject.name action]⟩
  | .unrestricted w | .filtered w => pure ⟨q.add (w.terms.map .term), ruling.events⟩

/-- Further requires that a source grants the default action on the row. -/
def accessibleByDefault (q : Select σ) (source : RuleSource) :
    StateM σ (Traced (Select σ)) :=
  q.accessible source RuleSource.defaultAction

/-- The text of the query. -/
def text (q : Select σ) : String :=
  let table := String.ofList (q.settings.dialect.identifier q.table)
  let clauses := q.clauses.map (·.text)
  "select " ++ table ++ ".* from " ++ table ++
    if clauses.isEmpty then "" else " where " ++ " and ".intercalate clauses

end Select

end RowAccess.Sql
