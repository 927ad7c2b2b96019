/-
RowAccess.Rule — rules that allow or deny, and lists of them.

A list holds the rules that govern one action on one kind of record, the most
recently declared first. Its order is its meaning: a later declaration takes
precedence over an earlier one.

* `Rule` — an effect, with conditions or on every record.
* `RuleList.ofDeclared` — the list of rules given in order of declaration.
-/
import RowAccess.Conditions

namespace RowAccess

/-- What a rule does with the records it covers. -/
inductive Effect where
  | allow
  | deny
  deriving DecidableEq

/-- The verb that declares an effect. -/
def Effect.verb : Effect → String
  | allow => "can"
  | deny => "cannot"

/-- A rule covers the records that meet its conditions, or every record if it
has none. -/
structure Rule where
  effect : Effect
  conditions : Option Conditions
  deriving BEq

namespace Rule

/-- Allows every record. -/
def allow : Rule := ⟨.allow, none⟩

/-- Denies every record. -/
def deny : Rule := ⟨.deny, none⟩

/-- Allows the records that meet the conditions. -/
def allowWhen (c : Conditions) : Rule := ⟨.allow, some c⟩

/-- Denies the records that meet the conditions. -/
def denyWhen (c : Conditions) : Rule := ⟨.deny, some c⟩

/-- Whether the rule has conditions. -/
def isConditioned (r : Rule) : Bool := r.conditions.isSome

/-- A rule as shown to people. -/
def display (r : Rule) : String :=
  match r.conditions with
  | some c => r.effect.verb ++ " when " ++ c.display
  | none => r.effect.verb

/-- How many of the rules are of each effect, as shown to people. -/
def tally (rules : List Rule) : String :=
  let denies := rules.countP (·.effect == .deny)
  rules.length.repr ++ " rules, " ++ (rules.length - denies).repr ++ " allow, " ++
    denies.repr ++ " deny"

end Rule

/-- Rules in order of precedence, the most recently declared first. -/
structure RuleList where
  toList : List Rule
  deriving BEq

namespace RuleList

/-- The list of rules given in order of declaration, oldest first. -/
def ofDeclared (rules : List Rule) : RuleList := ⟨rules.reverse⟩

/-- The number of rules. -/
def size (rules : RuleList) : Nat := rules.toList.length

/-- Whether there is no rule. -/
def isEmpty (rules : RuleList) : Bool := rules.toList.isEmpty

/-- A list as shown to people: only its counts. -/
def display (rules : RuleList) : String := "RuleSet(" ++ Rule.tally rules.toList ++ ")"

end RuleList

end RowAccess
