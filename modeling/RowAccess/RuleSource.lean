/-
RowAccess.RuleSource — subjects, where their rules come from, and who is asked
about their fields.

A subject is a kind of record. A rule source answers which rules govern an
action on a subject. It may be asked about any name; a query or a table is about
a subject, whose name is not empty. A relation hook says of a field whether it
names a related entity. It may keep a state between questions, and its answers
are only reported.

* `Subject.ofName` — a subject has a name that is not empty.
* `RuleSource` — rules by action and subject.
* `RelationHook` — the question asked of every field of a condition.
* `Options` — whether a hook is installed.
-/
import RowAccess.Rule

namespace RowAccess

/-- The name of a kind of record. -/
structure Subject where
  name : String
  name_ne_empty : name ≠ ""

namespace Subject

/-- Why there is no subject. -/
inductive Fault where
  | missingName
  deriving DecidableEq

/-- The text of a fault. -/
def Fault.message : Fault → String
  | missingName => "cannot detect subject name to return accessible records"

/-- The subject of a name. -/
def ofName (name : String) : Except Fault Subject :=
  if h : name = "" then .error .missingName else .ok ⟨name, h⟩

end Subject

/-- A provider of rules. It lists the most recently declared rule first. -/
structure RuleSource where
  rulesFor (action subject : String) : RuleList

/-- The action assumed where none is named. -/
def RuleSource.defaultAction : String := "read"

/-- Says whether a field of a subject's records names a related entity. The
answer may depend on the rule source and on a state of the hook's own. -/
abbrev RelationHook (σ : Type) := (field subject : String) → RuleSource → StateM σ Bool

/-- The hook that finds no relations. -/
def RelationHook.none {σ : Type} : RelationHook σ := fun _ _ _ => pure false

/-- Settings for deciding access. -/
structure Options (σ : Type) where
  relationHook : Option (RelationHook σ) := .none

namespace Options

/-- The hook installed, or the one that finds no relations. -/
def hook {σ : Type} (options : Options σ) : RelationHook σ :=
  options.relationHook.getD .none

/-- The settings as shown to people: a hook has no text of its own. -/
def display {σ : Type} (options : Options σ) : String :=
  "CompileOptions \x7b relation_hook: " ++
    Value.boolText options.relationHook.isSome ++ " \x7d"

end Options

end RowAccess
