/-
RowAccess.Ruling — from rules to a predicate.

Rules are read once, the most recent first. A deny rule with conditions
restricts the predicate as soon as it is met. Allow rules with conditions are
put aside and added at the end as a single requirement, so that the exclusions
come first wherever they stood. The first rule without conditions ends the
reading: an allow rule grants every record that is not excluded yet, and a
deny rule hides the older rules.

* `Pass` — how far the reading has come.
* `Pass.read` — the reading, with the questions it asks of a relation hook.
* `RuleList.restrict`, `RuleSource.restrict` — the verdict on a predicate.
-/
import RowAccess.Event
import RowAccess.Filter
import RowAccess.RuleSource
import RowAccess.Verdict

namespace RowAccess

/-- Access as decided. The predicate is kept when access is denied, in the
state in which the reading left it. -/
structure Ruling (β : Type) where
  decision : Decision
  predicate : β
  events : List Event

namespace Ruling

variable {β : Type}

/-- The decision together with the predicate it stands for. -/
def verdict (ruling : Ruling β) : Verdict β :=
  match ruling.decision with
  | .noAccess => .noAccess
  | .unrestricted => .unrestricted ruling.predicate
  | .filtered _ => .filtered ruling.predicate

/-- The ruling with events that came before its own. -/
def after (ruling : Ruling β) (earlier : List Event) : Ruling β :=
  { ruling with events := earlier ++ ruling.events }

end Ruling

/-- How far the reading of a list of rules has come. All rules read so far had
conditions. -/
structure Pass (β : Type) where
  predicate : β
  /-- The conditions of the allow rules met, most recent rule first. -/
  pending : List Conditions := []
  /-- The number of rules read. -/
  position : Nat := 0

namespace Pass

variable {β σ : Type} [Restriction β]

/-- Takes note of a rule with conditions, and reports it. -/
def take (pass : Pass β) : Effect → Conditions → Pass β × Event
  | .deny, c =>
    ({ pass with
        predicate := Restriction.exclude pass.predicate c
        position := pass.position + 1 },
      .denyApplied pass.position c)
  | .allow, c =>
    ({ pass with
        pending := pass.pending ++ [c]
        position := pass.position + 1 },
      .allowDeferred pass.position c)

/-- Ends the reading where no rule allows every record. If no rule with
conditions was met, nothing is granted and the predicate was not touched. -/
def finish (pass : Pass β) (rules : Nat) : Ruling β :=
  let decision := if pass.position = 0 then .noAccess else .filtered pass.pending.length
  let predicate :=
    if pass.pending.isEmpty then pass.predicate
    else Restriction.requireAny pass.predicate pass.pending
  ⟨decision, predicate, [.decided decision rules]⟩

/-- Asks about the fields of a condition, one by one, and reports those that
name a related entity. -/
def askFields (ask : String → StateM σ Bool) : List String → StateM σ (List Event)
  | [] => pure []
  | field :: fields => do
    let related ← ask field
    let later ← askFields ask fields
    pure (if related then .relationField field :: later else later)

/-- Reads the remaining rules of a list that holds `rules` in all. -/
def read (ask : String → StateM σ Bool) (rules : Nat) (pass : Pass β) :
    List Rule → StateM σ (Ruling β)
  | [] => pure (pass.finish rules)
  | ⟨.deny, none⟩ :: _ => pure ((pass.finish rules).after [.blanketDeny pass.position])
  | ⟨.allow, none⟩ :: _ =>
    pure ⟨.unrestricted, pass.predicate,
      [.blanketAllow pass.position pass.pending.length, .decided .unrestricted rules]⟩
  | ⟨effect, some c⟩ :: older => do
    let asked ← askFields ask c.names
    let (next, event) := pass.take effect c
    let ruling ← read ask rules next older
    pure (ruling.after (asked ++ [event]))

end Pass

variable {β σ : Type} [Restriction β]

/-- Decides access by a list of rules, starting from a predicate. No field is
taken for a relation. -/
def RuleList.ruling (rules : RuleList) (predicate : β) : Ruling β :=
  let ask : String → StateM Unit Bool := fun _ => pure false
  ((Pass.read ask rules.size { predicate } rules.toList).run ()).1

/-- The verdict of a list of rules, starting from a predicate. -/
def RuleList.restrict (rules : RuleList) (predicate : β) : Verdict β :=
  (rules.ruling predicate).verdict

/-- Looks up the rules for an action on a subject and decides access by them,
asking the hook of the options about every field of every condition read. -/
def RuleSource.ruling (source : RuleSource) (options : Options σ)
    (action subject : String) (predicate : β) : StateM σ (Ruling β) := do
  let rules := source.rulesFor action subject
  let ask field := options.hook field subject source
  let ruling ← Pass.read ask rules.size { predicate } rules.toList
  pure (ruling.after [.rulesResolved action subject rules.size])

/-- The verdict of a rule source on an action on a subject. -/
def RuleSource.restrict (source : RuleSource) (options : Options σ)
    (action subject : String) (predicate : β) : StateM σ (Verdict β) :=
  Ruling.verdict <$> source.ruling options action subject predicate

end RowAccess
