/-
RowAccess.Event — what is reported while access is decided.

Events are values: deciding returns them in the order in which they occur, and
where they are shown is left to the caller. Each has a level, a message that
is the same for all events of its kind, and named fields.

* `Event` — the occurrences reported.
* `Traced` — a result with the events that led to it.
-/
import RowAccess.Rule

namespace RowAccess

/-- How much detail an event belongs to. -/
inductive Level where
  | debug
  | trace
  deriving DecidableEq

/-- The name of a level. -/
def Level.name : Level → String
  | debug => "DEBUG"
  | trace => "TRACE"

/-- The kind of access that rules grant. -/
inductive Decision where
  | noAccess
  | unrestricted
  /-- Access through a predicate, with the number of conditions of which one
  has to hold. None means that no such demand is made. -/
  | filtered (alternatives : Nat)
  deriving DecidableEq

/-- The name of a kind of access. -/
def Decision.name : Decision → String
  | noAccess => "no_access"
  | unrestricted => "unrestricted"
  | filtered _ => "filtered"

/-- An occurrence while access is decided. -/
inductive Event where
  /-- The rules for an action on a subject were looked up. -/
  | rulesResolved (action subject : String) (rules : Nat)
  /-- A field of a condition names a related entity; nothing is joined. -/
  | relationField (field : String)
  /-- A conditioned deny rule was added to the predicate. -/
  | denyApplied (position : Nat) (conditions : Conditions)
  /-- A conditioned allow rule was put aside until the end. -/
  | allowDeferred (position : Nat) (conditions : Conditions)
  /-- A deny rule without conditions hid all older rules. -/
  | blanketDeny (position : Nat)
  /-- An allow rule without conditions made the allow rules put aside
  superfluous. -/
  | blanketAllow (position superseded : Nat)
  /-- Access was decided. -/
  | decided (decision : Decision) (rules : Nat)
  /-- A query was made to return nothing. -/
  | queryEmptied (subject action : String)
  /-- A table was not looked at. -/
  | scanSkipped (subject action : String)

namespace Event

/-- Single rules are reported in detail, all else at the coarser level. -/
def level : Event → Level
  | denyApplied .. | allowDeferred .. | blanketDeny .. | blanketAllow .. => .trace
  | _ => .debug

/-- The message of an event, the same for all of its kind. -/
def message : Event → String
  | rulesResolved .. => "resolved rules"
  | relationField .. => "relation field, join filtering not performed"
  | denyApplied .. => "deny applied"
  | allowDeferred .. => "allow deferred"
  | blanketDeny .. => "unconditioned deny, older rules discarded"
  | blanketAllow .. => "unconditioned allow"
  | decided .. => "compiled rules"
  | queryEmptied .. => "access denied, query emptied"
  | scanSkipped .. => "access denied, skipping scan"

/-- The fields of an event, in the order shown. -/
def fields : Event → List (String × String)
  | rulesResolved action subject rules =>
    [("action", action), ("subject", subject), ("rules", rules.repr)]
  | relationField field => [("field", field)]
  | denyApplied position c | allowDeferred position c =>
    [("position", position.repr), ("conditions", c.display)]
  | blanketDeny position => [("position", position.repr)]
  | blanketAllow position superseded =>
    [("position", position.repr), ("superseded", superseded.repr)]
  | decided decision rules =>
    let shared := [("outcome", decision.name), ("rules", rules.repr)]
    match decision with
    | .filtered alternatives => shared ++ [("alternatives", alternatives.repr)]
    | _ => shared
  | queryEmptied subject action | scanSkipped subject action =>
    [("subject", subject), ("action", action)]

end Event

/-- A result with the events that led to it, in their order. -/
structure Traced (α : Type) where
  value : α
  events : List Event

end RowAccess
