/-
RowAccess.Policy — rules declared for actions on subjects.

A policy is a list of grants in the order of their declaration. A grant for
the action `manage` applies to every action, one for the subject `all` to
every subject. Asked for an action and a subject, a policy lists the rules of
the grants that apply, the last declared first.

* `Policy.can`, `Policy.cannot` and their conditioned forms — declarations.
* `Policy.rulesFor` — the rules that govern an action on a subject.
-/
import RowAccess.RuleSource

namespace RowAccess

/-- A rule declared for an action on a subject. -/
structure Grant where
  action : String
  subject : String
  rule : Rule
  deriving BEq

namespace Grant

/-- The action that stands for every action. -/
def anyAction : String := "manage"

/-- The subject that stands for every subject. -/
def anySubject : String := "all"

/-- Whether the grant speaks of an action on a subject. -/
def appliesTo (g : Grant) (action subject : String) : Bool :=
  (g.action == action || g.action == anyAction) &&
    (g.subject == subject || g.subject == anySubject)

end Grant

/-- Grants in the order of their declaration. -/
structure Policy where
  grants : List Grant := []
  deriving BEq

namespace Policy

/-- The policy that grants nothing. -/
def empty : Policy := {}

/-- Declares a rule, which takes precedence over those declared before. -/
def declare (p : Policy) (action subject : String) (rule : Rule) : Policy :=
  ⟨p.grants ++ [⟨action, subject, rule⟩]⟩

/-- Allows an action on every record of a subject. -/
def can (p : Policy) (action subject : String) : Policy := p.declare action subject .allow

/-- Allows an action on the records of a subject that meet the conditions. -/
def canWhen (p : Policy) (action subject : String) (c : Conditions) : Policy :=
  p.declare action subject (.allowWhen c)

/-- Denies an action on every record of a subject. -/
def cannot (p : Policy) (action subject : String) : Policy :=
  p.declare action subject .deny

/-- Denies an action on the records of a subject that meet the conditions. -/
def cannotWhen (p : Policy) (action subject : String) (c : Conditions) : Policy :=
  p.declare action subject (.denyWhen c)

/-- The number of grants. -/
def size (p : Policy) : Nat := p.grants.length

/-- Whether there is no grant. -/
def isEmpty (p : Policy) : Bool := p.grants.isEmpty

/-- The rules that govern an action on a subject, the last declared first. -/
def rulesFor (p : Policy) (action subject : String) : RuleList :=
  ⟨(p.grants.reverse.filter (·.appliesTo action subject)).map (·.rule)⟩

/-- The policy as a source of rules. -/
def source (p : Policy) : RuleSource := ⟨p.rulesFor⟩

/-- A policy as shown to people: only its counts. -/
def display (p : Policy) : String :=
  "Ability(" ++ Rule.tally (p.grants.map (·.rule)) ++ ")"

end Policy

end RowAccess
