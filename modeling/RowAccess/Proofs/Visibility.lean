/-
RowAccess.Proofs.Visibility — which records a table shows, by a rule of its
own beside the filter.

The rule looks at one record and at the list of rules:

* `Conditions.Touches` — a field denied by the conditions is missing from the
  record, or holds a value that agrees with the denied one.
* `Rule.effectOn?` — the effect of the most recent rule that covers the record.
* `Rule.Shows` — no live deny rule touches the record, and the most recent rule
  that covers it allows; where every live rule denies and no blanket allow
  follows, the first of these is enough.

`accessible_eq_filter_shows` says that a table returns exactly the records
shown. The deny-only exception cannot be dropped: there the filter consists of
exclusions alone and admits records that no rule covers.

The proof needs conditions to have a field. A deny rule that covers a record
then also touches it (`touches_of_holds`), so a record that no live deny rule
touches is decided by the allow rules and the blanket effect alone
(`effectOn?_of_untouched`).
-/
import RowAccess.Proofs.Precedence
import RowAccess.Table

namespace RowAccess

/-! ## 1. Deny rules -/

/-- A field of the conditions is missing from the record, or holds a value
that agrees with the one named. -/
def Conditions.Touches (c : Conditions) (r : Record) : Prop :=
  ∃ p ∈ c.pairs, r.get? p.1 = none ∨ ∃ v, r.get? p.1 = some v ∧ v.agrees p.2 = true

/-- An exclusion admits the records that its conditions do not touch. -/
theorem Term.admits_noneOf (c : Conditions) (r : Record) :
    (Term.noneOf c).admits r = true ↔ ¬ c.Touches r := by
  simp only [Term.admits, Conditions.Touches, List.all_eq_true]
  constructor
  · rintro h ⟨p, hp, hmissing | ⟨v, hv, hagrees⟩⟩
    · simpa [hmissing] using h p hp
    · simpa [hv, hagrees] using h p hp
  · intro h p hp
    cases hv : r.get? p.1 with
    | none => exact absurd ⟨p, hp, Or.inl hv⟩ h
    | some v =>
        cases hagrees : v.agrees p.2 with
        | true => exact absurd ⟨p, hp, Or.inr ⟨v, hv, hagrees⟩⟩ h
        | false => simp [hagrees]

instance (c : Conditions) (r : Record) : Decidable (c.Touches r) :=
  decidable_of_iff ((Term.noneOf c).admits r = false) (by
    rw [← Bool.not_eq_true, Term.admits_noneOf]; exact Classical.not_not)

/-- Conditions that hold of a record touch it, since they name a field. -/
theorem Conditions.touches_of_holds {c : Conditions} {r : Record} (h : c.holds r = true) :
    c.Touches r := by
  obtain ⟨p, hp⟩ := List.exists_mem_of_ne_nil _ c.wellFormed.ne_nil
  have hheld := List.all_eq_true.mp h p hp
  obtain ⟨v, hv, hagrees⟩ := Option.any_eq_true .. |>.mp hheld
  exact ⟨p, hp, Or.inr ⟨v, hv, hagrees⟩⟩

/-! ## 2. The most recent rule that covers a record -/

namespace Rule

/-- A rule covers the records that meet its conditions, or every record if it
has none. -/
def covers (rule : Rule) (r : Record) : Bool := rule.conditions.all (·.holds r)

/-- The effect of the most recent rule that covers a record. -/
def effectOn? (rules : List Rule) (r : Record) : Option Effect :=
  (rules.find? (·.covers r)).map (·.effect)

/-- A record that no live deny rule touches is allowed by a live allow rule
that holds of it, and is left to the blanket effect otherwise. -/
theorem effectOn?_of_untouched (r : Record) : ∀ (rules : List Rule),
    (∀ c ∈ denied rules, ¬ c.Touches r) →
      effectOn? rules r =
        if (allowed rules).any (·.holds r) then some .allow else blanket? rules
  | [], _ => rfl
  | ⟨e, none⟩ :: _, _ => rfl
  | ⟨.deny, some c⟩ :: older, h => by
      have hc : c.holds r = false :=
        Bool.eq_false_iff.mpr fun hholds =>
          h c (by simp) (Conditions.touches_of_holds hholds)
      have ih := effectOn?_of_untouched r older fun c' hc' => h c' (by simp [hc'])
      simpa [effectOn?, covers, hc] using ih
  | ⟨.allow, some c⟩ :: older, h => by
      have ih := effectOn?_of_untouched r older h
      cases hc : c.holds r with
      | true => simp [effectOn?, covers, hc]
      | false => simpa [effectOn?, covers, hc] using ih

/-! ## 3. Visible records -/

/-- Rules of which the live ones all deny, without a blanket allow after
them. -/
def DenyOnly (rules : List Rule) : Prop :=
  live rules ≠ [] ∧ (∀ rule ∈ live rules, rule.effect = .deny) ∧
    blanket? rules ≠ some .allow

/-- Whether rules show a record: no live deny rule touches it, and the most
recent rule that covers it allows, which deny-only rules do not ask for. -/
def Shows (rules : List Rule) (r : Record) : Prop :=
  (∀ c ∈ denied rules, ¬ c.Touches r) ∧
    (effectOn? rules r = some .allow ∨ DenyOnly rules)

instance (rules : List Rule) : Decidable (DenyOnly rules) :=
  inferInstanceAs (Decidable (_ ∧ _ ∧ _))

instance (rules : List Rule) (r : Record) : Decidable (Shows rules r) :=
  inferInstanceAs (Decidable (_ ∧ _))

/-- Live rules all deny exactly when none of them allows. -/
theorem forall_deny_iff : ∀ (rules : List Rule),
    (∀ rule ∈ live rules, rule.effect = .deny) ↔ allowed rules = []
  | [] => by simp
  | ⟨_, none⟩ :: _ => by simp
  | ⟨.deny, some c⟩ :: older => by simpa using forall_deny_iff older
  | ⟨.allow, some c⟩ :: older => by simp

/-- A filter with the requirements of rules admits a record when no live deny
rule touches it and, where a demand is made at all, a live allow rule holds of
it. -/
theorem admits_requirements (rules : List Rule) (r : Record) :
    (Restriction.addAll Filter.empty (requirements [] rules)).admits r = true ↔
      (∀ c ∈ denied rules, ¬ c.Touches r) ∧
        (blanket? rules = some .allow ∨ allowed rules = [] ∨
          (allowed rules).any (·.holds r) = true) := by
  rw [Filter.addAll_eq, requirements]
  simp only [Filter.admits, Filter.empty, List.nil_append, List.all_append,
    Bool.and_eq_true]
  refine and_congr ?_ ?_
  · simp [List.all_eq_true, Term.admits_noneOf]
  · by_cases h : blanket? rules = some .allow ∨ allowed rules = []
    · rw [if_pos h]
      simp [← or_assoc, h]
    · rw [if_neg h, ← or_assoc]
      simp [h, Term.admits]

/-- Rules that grant nothing show nothing. -/
theorem not_shows_of_grantsNothing {rules : List Rule} (h : GrantsNothing rules)
    (r : Record) :
    ¬ Shows rules r := by
  obtain ⟨hblanket, hlive⟩ := h
  rintro ⟨huntouched, heffect | honly⟩
  · rw [effectOn?_of_untouched r rules huntouched] at heffect
    simp [allowed, conditionsOf, hlive, hblanket] at heffect
  · exact honly.1 hlive

/-- All other rules show what the filter with their requirements admits. -/
theorem admits_requirements_iff_shows {rules : List Rule} (h : ¬ GrantsNothing rules)
    (r : Record) :
    (Restriction.addAll Filter.empty (requirements [] rules)).admits r = true ↔
      Shows rules r := by
  rw [admits_requirements]
  refine and_congr_right fun huntouched => ?_
  rw [effectOn?_of_untouched r rules huntouched, DenyOnly, forall_deny_iff]
  by_cases hblanket : blanket? rules = some .allow
  · simp [hblanket]
  · have hlive : live rules ≠ [] := fun hlive => h ⟨hblanket, hlive⟩
    cases (allowed rules).any (·.holds r) <;> simp [hblanket, hlive]

end Rule

/-! ## 4. Tables -/

namespace Table

variable {σ : Type}

/-- The records shown by a verdict on the empty filter. -/
def shownBy (records : List Record) : Verdict Filter → List Record
  | .noAccess => []
  | .unrestricted f | .filtered f => records.filter f.admits

/-- The records returned are those shown by the verdict of the rules. -/
theorem accessible_value (t : Table σ) (source : RuleSource) (action : String) (s : σ) :
    ((t.accessible source action).run s).1.value =
      shownBy t.records
        (Rule.verdict (source.rulesFor action t.subject.name).toList Filter.empty) := by
  rw [← RuleSource.ruling_verdict source t.options action t.subject.name Filter.empty s]
  unfold accessible
  rw [StateT.run_bind]
  generalize (source.ruling t.options action t.subject.name Filter.empty).run s = ruled
  obtain ⟨⟨decision, f, events⟩, s'⟩ := ruled
  cases decision <;> rfl

/-- Unless they grant nothing, rules show what the filter with their
requirements admits. -/
theorem shownBy_verdict (records : List Record) {rules : List Rule}
    (h : ¬ Rule.GrantsNothing rules) :
    shownBy records (Rule.verdict rules Filter.empty) =
      records.filter
        (Restriction.addAll Filter.empty (Rule.requirements [] rules)).admits := by
  rcases Rule.verdict_of_not_grantsNothing h Filter.empty with hv | hv <;>
    rw [hv, shownBy]

/-- **A table returns exactly the records that the rules show**, in the order
of the table and as often as they occur there. -/
theorem accessible_eq_filter_shows (t : Table σ) (source : RuleSource) (action : String)
    (s : σ) :
    ((t.accessible source action).run s).1.value =
      t.records.filter fun r =>
        Rule.Shows (source.rulesFor action t.subject.name).toList r := by
  rw [accessible_value]
  generalize (source.rulesFor action t.subject.name).toList = rules
  by_cases h : Rule.GrantsNothing rules
  · rw [Rule.verdict_of_grantsNothing h, shownBy]
    simp [Rule.not_shows_of_grantsNothing h]
  · rw [shownBy_verdict t.records h]
    refine List.filter_congr fun r _ => ?_
    rw [Bool.eq_iff_iff, decide_eq_true_iff, Rule.admits_requirements_iff_shows h]

end Table

end RowAccess
