/-
RowAccess.Proofs.Json.Grammar — the ways of writing conditions and rules in JSON.

The relations of this module say which tokens stand for which conditions and rules,
without mention of the readers of these:

    conditions  ::=  "{" (name ":" scalar ("," name ":" scalar)*)? "}"
    rule        ::=  "{" member ("," member)* "}"  |  "[" (conditions | null) "," bool "]"
    member      ::=  "conditions" ":" (conditions | null)  |  "inverted" ":" bool
                  |  name ":" value
    rules       ::=  "[" (rule ("," rule)*)? "]"

Of the two members that a rule has each may be written once, in any order; the second
has to be there. Members of other names say nothing.

Pairs are taken as written. That their names are neither empty nor repeated is not
part of the grammar, so a text that repeats a name is written well and stands for
pairs that are not well formed. What it says of a rule is a `Draft`.

* `WritesConditions`, `WritesRule`, `WritesRules` — tokens stand for pairs, a draft, or
  a list of drafts.
* `Draft.rule` — the rule of a draft, if its pairs are well formed.
-/
import RowAccess.Json.Reader

namespace RowAccess

namespace Json

/-! ## 1. Drafts -/

/-- What a text says of a rule: its effect and its pairs, or `none` if it has no
conditions. -/
structure Draft where
  effect : Effect
  pairs : Option (List (String × Value))

/-- The conditions of pairs, if there are any pairs. -/
def checkConditions :
    Option (List (String × Value)) → Except Conditions.Fault (Option Conditions)
  | none => .ok none
  | some pairs => (Conditions.ofPairs pairs).map some

/-- The rule of a draft. -/
def Draft.rule (d : Draft) : Except Conditions.Fault Rule :=
  (checkConditions d.pairs).map (⟨d.effect, ·⟩)

end Json

/-- What is to be said of a rule. -/
def Rule.draft (r : Rule) : Json.Draft := ⟨r.effect, r.conditions.map (·.pairs)⟩

namespace Json

theorem checkConditions_pairs (c : Option Conditions) :
    checkConditions (c.map (·.pairs)) = .ok c := by
  cases c with
  | none => rfl
  | some c =>
      have hc : Conditions.ofPairs c.pairs = .ok c := Conditions.ofPairs_eq_ok_iff.mpr rfl
      simp [checkConditions, hc, Except.map]

@[simp] theorem rule_draft (r : Rule) : r.draft.rule = .ok r := by
  simp [Draft.rule, Rule.draft, checkConditions_pairs, Except.map]

/-! ## 2. Conditions -/

/-- Pairs up to the brace that closes them. -/
inductive WritesPairs : List (String × Value) → List Token → Prop
  | last {name : String} {t : Token} {v : Value} : scalar? t = some v →
      WritesPairs [(name, v)] [.string (some name), .colon, t, .closeObject]
  | cons {name : String} {t : Token} {v : Value} {pairs : List (String × Value)}
      {w : List Token} : scalar? t = some v → WritesPairs pairs w →
      WritesPairs ((name, v) :: pairs) (.string (some name) :: .colon :: t :: .comma :: w)

/-- Pairs between braces. -/
inductive WritesConditions : List (String × Value) → List Token → Prop
  | none : WritesConditions [] [.openObject, .closeObject]
  | pairs {pairs : List (String × Value)} {w : List Token} : WritesPairs pairs w →
      WritesConditions pairs (.openObject :: w)

/-- The conditions of a rule, or `null`. -/
inductive WritesRuleConditions : Option (List (String × Value)) → List Token → Prop
  | null : WritesRuleConditions none [.null]
  | pairs {pairs : List (String × Value)} {w : List Token} : WritesConditions pairs w →
      WritesRuleConditions (some pairs) w

/-! ## 3. Rules -/

/-- The effect of a rule that is inverted or not. -/
def effectOf (inverted : Bool) : Effect := if inverted then .deny else .allow

/-- What members of a rule have said: its conditions, which may be none, and its
effect. -/
structure Said where
  conditions : Option (Option (List (String × Value))) := none
  effect : Option Effect := none

/-- `WritesMember m m' w`: where `m` has been said of a rule, `m'` has been said after
the member `w`. -/
inductive WritesMember : Said → Said → List Token → Prop
  | conditions {pairs : Option (List (String × Value))} {e : Option Effect}
      {w : List Token} :
      WritesRuleConditions pairs w →
      WritesMember ⟨none, e⟩ ⟨some pairs, e⟩ (.string (some "conditions") :: .colon :: w)
  | inverted {c : Option (Option (List (String × Value)))} {inverted : Bool} :
      WritesMember ⟨c, none⟩ ⟨c, some (effectOf inverted)⟩
        [.string (some "inverted"), .colon, .bool inverted]
  | other {m : Said} {name : String} {w : List Token} : name ≠ "conditions" →
      name ≠ "inverted" → passOver .extent .value [] w = some [] →
      WritesMember m m (.string (some name) :: .colon :: w)

/-- `WritesMembers m d w`: where `m` has been said of a rule, the members `w`, up to the
brace that closes them, complete it to the draft `d`. -/
inductive WritesMembers : Said → Draft → List Token → Prop
  | last {m : Said} {c : Option (Option (List (String × Value)))} {e : Effect}
      {w : List Token} :
      WritesMember m ⟨c, some e⟩ w →
      WritesMembers m ⟨e, c.getD none⟩ (w ++ [.closeObject])
  | cons {m m' : Said} {d : Draft} {w r : List Token} : WritesMember m m' w →
      WritesMembers m' d r → WritesMembers m d (w ++ .comma :: r)

/-- A rule: an object of its members, or an array of both. -/
inductive WritesRule : Draft → List Token → Prop
  | object {d : Draft} {w : List Token} :
      WritesMembers {} d w → WritesRule d (.openObject :: w)
  | array {pairs : Option (List (String × Value))} {inverted : Bool} {w : List Token} :
      WritesRuleConditions pairs w →
      WritesRule ⟨effectOf inverted, pairs⟩
        (.openArray :: (w ++ [.comma, .bool inverted, .closeArray]))

/-- Rules up to the bracket that closes them. -/
inductive WritesMoreRules : List Draft → List Token → Prop
  | last {d : Draft} {w : List Token} :
      WritesRule d w → WritesMoreRules [d] (w ++ [.closeArray])
  | cons {d : Draft} {ds : List Draft} {w r : List Token} : WritesRule d w →
      WritesMoreRules ds r → WritesMoreRules (d :: ds) (w ++ .comma :: r)

/-- Rules between brackets. -/
inductive WritesRules : List Draft → List Token → Prop
  | none : WritesRules [] [.openArray, .closeArray]
  | rules {ds : List Draft} {w : List Token} : WritesMoreRules ds w →
      WritesRules ds (.openArray :: w)

end Json

end RowAccess
