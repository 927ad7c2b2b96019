/-
RowAccess.Proofs.Monotonicity — what one more rule with conditions does to the
records granted.

One would expect a deny rule to take records away and an allow rule to add some. Each
fails in one case. Where nothing was granted at all, a live deny rule makes an exclusion,
which admits every record it does not touch. And where there were exclusions only, a live
allow rule makes a demand, which the records admitted so far need not meet.

A rule is read if all rules before it have conditions. For a rule that is read,
`grants_denyWhen` and `grants_allowWhen` say what is granted in terms of the rules
without it; a rule that is not read changes nothing (`grants_unread`).

* `RuleList.Grants` — a record is among those granted.
* `RuleList.ExcludesOnly` — the filter built of the rules makes no demand.
* `RuleList.grants_of_denyWhen`, `RuleList.grants_allowWhen_of_grants` — what holds
  outside the two cases, wherever the rule is added.
* `RuleList.exists_granted_by_denyWhen`, `RuleList.exists_lost_by_allowWhen` — what
  happens in them, if the rule is read.
* `RuleList.adding_condition` — adding a rule is monotone outside the two cases, and
  in neither of them.
-/
import RowAccess.Proofs.Visibility

namespace RowAccess

/-! ## 1. The records granted -/

/-- Access is not denied outright, and the filter built of the rules admits the
record. -/
def RuleList.Grants (rules : RuleList) (r : Record) : Prop :=
  ∃ f, (rules.restrict Filter.empty).predicate? = some f ∧ f.admits r = true

/-- The rules lead to a filter that makes no demand. -/
def RuleList.ExcludesOnly (rules : RuleList) : Prop :=
  ∃ f, rules.restrict Filter.empty = .filtered f ∧
    ∀ alternatives, .anyOf alternatives ∉ f.terms

namespace Rule

/-- A record is granted when the rules grant anything, no live deny rule touches it,
and a demand, where it is made, is met. -/
theorem grants_iff (rules : List Rule) (r : Record) :
    RuleList.Grants ⟨rules⟩ r ↔ ¬ GrantsNothing rules ∧
      (∀ d ∈ denied rules, ¬ d.Touches r) ∧
        (blanket? rules = some .allow ∨ allowed rules = [] ∨
          (allowed rules).any (·.holds r) = true) := by
  rw [RuleList.Grants, RuleList.restrict_eq]
  by_cases h : GrantsNothing rules
  · simp [verdict_of_grantsNothing h, Verdict.predicate?, h]
  · rw [← admits_requirements]
    rcases verdict_of_not_grantsNothing h Filter.empty with hv | hv <;>
      simp [hv, Verdict.predicate?, h]

theorem grantsNothing_iff_restrict (rules : List Rule) :
    GrantsNothing rules ↔ RuleList.restrict ⟨rules⟩ Filter.empty = .noAccess := by
  rw [RuleList.restrict_eq, verdict_eq_noAccess_iff]

/-- A filter makes no demand where there are live rules, none of them allows, and no
allow rule without conditions follows. -/
theorem excludesOnly_iff (rules : List Rule) :
    RuleList.ExcludesOnly ⟨rules⟩ ↔
      blanket? rules ≠ some .allow ∧ live rules ≠ [] ∧ allowed rules = [] := by
  rw [RuleList.ExcludesOnly, RuleList.restrict_eq, verdict,
      Filter.addAll_eq, requirements]
  by_cases hblanket : blanket? rules = some .allow
  · simp [hblanket]
  · by_cases hlive : live rules = []
    · simp [hblanket, hlive]
    · by_cases hallowed : allowed rules = [] <;>
        simp [Filter.empty, hblanket, hlive, hallowed]

/-! ## 2. Rules behind others -/

section Behind

variable {xs : List Rule} (ys : List Rule) (r : Record)

theorem live_append (hxs : ∀ rule ∈ xs, rule.isConditioned = true) :
    live (xs ++ ys) = xs ++ live ys :=
  List.takeWhile_append_of_pos hxs

theorem blanket?_append (hxs : ∀ rule ∈ xs, rule.isConditioned = true) :
    blanket? (xs ++ ys) = blanket? ys := by
  rw [blanket?, List.find?_append, List.find?_eq_none.mpr (by simpa using hxs),
      Option.none_or, ← blanket?]

theorem denied_append (hxs : ∀ rule ∈ xs, rule.isConditioned = true) :
    denied (xs ++ ys) = conditionsOf .deny xs ++ denied ys := by
  rw [denied, live_append ys hxs, conditionsOf, List.filterMap_append]
  rfl

theorem allowed_append (hxs : ∀ rule ∈ xs, rule.isConditioned = true) :
    allowed (xs ++ ys) = conditionsOf .allow xs ++ allowed ys := by
  rw [allowed, live_append ys hxs, conditionsOf, List.filterMap_append]
  rfl

/-- Rules behind one without conditions change nothing. -/
theorem grants_unread (hxs : ¬ ∀ rule ∈ xs, rule.isConditioned = true) (zs : List Rule) :
    RuleList.Grants ⟨xs ++ ys⟩ r ↔ RuleList.Grants ⟨xs ++ zs⟩ r := by
  cases hfind : xs.find? (!·.isConditioned) with
  | none => exact absurd (by simpa using hfind) hxs
  | some rule =>
      obtain ⟨hblanket, earlier, later, rfl, hearlier⟩ :=
        List.find?_eq_some_iff_append.mp hfind
      replace hearlier : ∀ rule ∈ earlier, rule.isConditioned = true := by
        simpa using hearlier
      obtain ⟨e, conditions⟩ := rule
      obtain rfl : conditions = none := by simpa [isConditioned] using hblanket
      simp only [grants_iff, GrantsNothing, List.append_assoc, List.cons_append,
        live_append _ hearlier, blanket?_append _ hearlier, denied_append _ hearlier,
        allowed_append _ hearlier, live_blanket, blanket?_blanket, denied_blanket,
        allowed_blanket]

end Behind

/-! ## 3. A rule that is read -/

section Read

variable {xs : List Rule} (ys : List Rule) (c : Conditions) (r : Record)

/-- Where there is a live rule, something is granted. -/
theorem not_grantsNothing_insert (hxs : ∀ rule ∈ xs, rule.isConditioned = true)
    (e : Effect) :
    ¬ GrantsNothing (xs ++ ⟨e, some c⟩ :: ys) := by
  rintro ⟨-, hlive⟩
  simp [live_append _ hxs] at hlive

/-- **A deny rule takes away the records that it touches.** The other ones stay
granted; and where nothing was granted, they become so. -/
theorem grants_denyWhen (hxs : ∀ rule ∈ xs, rule.isConditioned = true) :
    RuleList.Grants ⟨xs ++ denyWhen c :: ys⟩ r ↔
      ¬ c.Touches r ∧ (GrantsNothing (xs ++ ys) ∨ RuleList.Grants ⟨xs ++ ys⟩ r) := by
  have hdenied : (∀ d ∈ denied (xs ++ denyWhen c :: ys), ¬ d.Touches r) ↔
      ¬ c.Touches r ∧ ∀ d ∈ denied (xs ++ ys), ¬ d.Touches r := by
    rw [denied_append _ hxs, denied_append _ hxs, denyWhen, denied_deny,
        List.forall_mem_append, List.forall_mem_cons, List.forall_mem_append,
        and_left_comm]
  have hallowed : allowed (xs ++ denyWhen c :: ys) = allowed (xs ++ ys) := by
    rw [allowed_append _ hxs, allowed_append _ hxs, denyWhen, allowed_deny]
  have hblanket : blanket? (xs ++ denyWhen c :: ys) = blanket? (xs ++ ys) := by
    rw [blanket?_append _ hxs, blanket?_append _ hxs, denyWhen, blanket?_conditioned]
  rw [grants_iff, grants_iff, hdenied, hallowed, hblanket]
  by_cases h : GrantsNothing (xs ++ ys)
  · have hnone : denied (xs ++ ys) = [] ∧ allowed (xs ++ ys) = [] := by
      simp [denied, allowed, conditionsOf, h.2]
    simp [h, hnone, denyWhen, not_grantsNothing_insert ys c hxs]
  · simp [h, denyWhen, not_grantsNothing_insert ys c hxs, and_assoc]

/-- **An allow rule adds the records that meet its conditions**, except for those that
a live deny rule touches. Others are granted if they were, but not if there was no
demand before. -/
theorem grants_allowWhen (hxs : ∀ rule ∈ xs, rule.isConditioned = true) :
    RuleList.Grants ⟨xs ++ allowWhen c :: ys⟩ r ↔
      (∀ d ∈ denied (xs ++ ys), ¬ d.Touches r) ∧
        (c.holds r = true ∨
          RuleList.Grants ⟨xs ++ ys⟩ r ∧ ¬ RuleList.ExcludesOnly ⟨xs ++ ys⟩) := by
  have hdenied : denied (xs ++ allowWhen c :: ys) = denied (xs ++ ys) := by
    rw [denied_append _ hxs, denied_append _ hxs, allowWhen, denied_allow]
  have hallowed : (allowed (xs ++ allowWhen c :: ys)).any (·.holds r) =
      (c.holds r || (allowed (xs ++ ys)).any (·.holds r)) := by
    rw [allowed_append _ hxs, allowed_append _ hxs, allowWhen, allowed_allow]
    grind
  have hne : allowed (xs ++ allowWhen c :: ys) ≠ [] := by
    simp [allowed_append _ hxs, allowWhen]
  have hblanket : blanket? (xs ++ allowWhen c :: ys) = blanket? (xs ++ ys) := by
    rw [blanket?_append _ hxs, blanket?_append _ hxs, allowWhen, blanket?_conditioned]
  rw [grants_iff, grants_iff, excludesOnly_iff, hdenied, hallowed, hblanket]
  refine (and_iff_right (not_grantsNothing_insert ys c hxs .allow)).trans ?_
  refine and_congr_right fun huntouched => ?_
  rw [and_iff_right huntouched]
  by_cases hallows : blanket? (xs ++ ys) = some .allow
  · simp [hallows, GrantsNothing]
  · cases hold : allowed (xs ++ ys) with
    | nil =>
        by_cases hlive : live (xs ++ ys) = [] <;>
          simp [hallows, hne, hlive, GrantsNothing]
    | cons a as =>
        have hlive : live (xs ++ ys) ≠ [] := by
          intro hlive
          simp [allowed, conditionsOf, hlive] at hold
        simp [hallows, hne, hlive, GrantsNothing]

end Read

end Rule

/-! ## 4. A record beside all conditions -/

/-- Texts that are long enough agree with none of finitely many values. -/
theorem Value.exists_length_agrees : ∀ values : List Value,
    ∃ n, ∀ v ∈ values, ∀ t : String, n ≤ t.length → (Value.text t).agrees v = false
  | [] => ⟨0, by simp⟩
  | v :: values => by
      obtain ⟨n, hn⟩ := exists_length_agrees values
      have hv : ∃ m, ∀ t : String, m ≤ t.length → (Value.text t).agrees v = false := by
        cases v with
        | text s =>
            refine ⟨s.length + 1, fun t ht => ?_⟩
            simp only [agrees, beq_eq_false_iff_ne]
            rintro rfl
            omega
        | bool _ => exact ⟨0, fun _ _ => rfl⟩
        | int _ => exact ⟨0, fun _ _ => rfl⟩
        | float _ => exact ⟨0, fun _ _ => rfl⟩
      obtain ⟨m, hm⟩ := hv
      refine ⟨max m n, List.forall_mem_cons.mpr ⟨fun t ht => hm t (by omega), ?_⟩⟩
      exact fun w hw t ht => hn w hw t (by omega)

/-- There is a record with a given value in all of some fields. -/
theorem Record.exists_get? (v : Value) : ∀ names : List String,
    ∃ r : Record, ∀ name ∈ names, r.get? name = some v
  | [] => ⟨Record.empty, by simp⟩
  | name :: names => by
      obtain ⟨r, hr⟩ := exists_get? v names
      exact ⟨r.set name v, by grind⟩

/-- Some record is touched by none of finitely many conditions. -/
theorem Conditions.exists_untouched (cs : List Conditions) :
    ∃ r : Record, ∀ c ∈ cs, ¬ c.Touches r := by
  obtain ⟨n, hn⟩ := Value.exists_length_agrees (cs.flatMap fun c => c.pairs.map (·.2))
  let t := String.ofList (List.replicate n 'x')
  have ht : n ≤ t.length := by simp [t]
  obtain ⟨r, hr⟩ := Record.exists_get? (.text t) (cs.flatMap (·.names))
  refine ⟨r, fun c hc => ?_⟩
  rintro ⟨p, hp, htouched⟩
  have hfield : r.get? p.1 = some (.text t) :=
    hr p.1 (List.mem_flatMap.mpr ⟨c, hc, List.mem_map_of_mem hp⟩)
  have hagrees : (Value.text t).agrees p.2 = false :=
    hn p.2 (List.mem_flatMap.mpr ⟨c, hc, List.mem_map_of_mem hp⟩) t ht
  simp [hfield, hagrees] at htouched

/-! ## 5. One more rule -/

namespace RuleList

variable (xs ys : List Rule) (c : Conditions)

/-- A deny rule added anywhere grants no further record, if anything was granted. -/
theorem grants_of_denyWhen (haccess : restrict ⟨xs ++ ys⟩ Filter.empty ≠ .noAccess)
    {r : Record} (hr : Grants ⟨xs ++ .denyWhen c :: ys⟩ r) : Grants ⟨xs ++ ys⟩ r := by
  by_cases hxs : ∀ rule ∈ xs, rule.isConditioned = true
  · obtain ⟨-, hnothing | hgiven⟩ := (Rule.grants_denyWhen ys c r hxs).mp hr
    · exact absurd ((Rule.grantsNothing_iff_restrict _).mp hnothing) haccess
    · exact hgiven
  · exact (Rule.grants_unread _ r hxs _).mp hr

/-- An allow rule added anywhere takes no record away, if there was a demand. -/
theorem grants_allowWhen_of_grants (hdemand : ¬ ExcludesOnly ⟨xs ++ ys⟩) {r : Record}
    (hr : Grants ⟨xs ++ ys⟩ r) : Grants ⟨xs ++ .allowWhen c :: ys⟩ r := by
  by_cases hxs : ∀ rule ∈ xs, rule.isConditioned = true
  · have huntouched := ((Rule.grants_iff _ r).mp hr).2.1
    exact (Rule.grants_allowWhen ys c r hxs).mpr ⟨huntouched, .inr ⟨hr, hdemand⟩⟩
  · exact (Rule.grants_unread _ r hxs _).mp hr

variable {xs} (hxs : ∀ rule ∈ xs, rule.isConditioned = true)
include hxs

/-- Where nothing was granted, a deny rule that is read grants what it does not touch. -/
theorem exists_granted_by_denyWhen
    (hnone : restrict ⟨xs ++ ys⟩ Filter.empty = .noAccess) :
    ∃ r, Grants ⟨xs ++ .denyWhen c :: ys⟩ r ∧ ¬ Grants ⟨xs ++ ys⟩ r := by
  have hnothing := (Rule.grantsNothing_iff_restrict _).mpr hnone
  obtain ⟨r, hr⟩ := Conditions.exists_untouched [c]
  refine ⟨r, (Rule.grants_denyWhen ys c r hxs).mpr ⟨hr c (by simp), .inl hnothing⟩, ?_⟩
  intro hgiven
  exact ((Rule.grants_iff _ r).mp hgiven).1 hnothing

/-- Where there was no demand, an allow rule that is read takes away a record that no
conditions touch. -/
theorem exists_lost_by_allowWhen (honly : ExcludesOnly ⟨xs ++ ys⟩) :
    ∃ r, Grants ⟨xs ++ ys⟩ r ∧ ¬ Grants ⟨xs ++ .allowWhen c :: ys⟩ r := by
  obtain ⟨hallows, hlive, hallowed⟩ := (Rule.excludesOnly_iff _).mp honly
  obtain ⟨r, hr⟩ := Conditions.exists_untouched (c :: Rule.denied (xs ++ ys))
  obtain ⟨hc, huntouched⟩ := List.forall_mem_cons.mp hr
  refine ⟨r, (Rule.grants_iff _ r).mpr
    ⟨fun h => hlive h.2, huntouched, .inr (.inl hallowed)⟩, ?_⟩
  intro hnarrowed
  obtain ⟨-, hholds | ⟨-, hdemand⟩⟩ := (Rule.grants_allowWhen ys c r hxs).mp hnarrowed
  · exact hc (Conditions.touches_of_holds hholds)
  · exact hdemand honly

end RuleList

/-- **A rule with conditions is monotone outside two cases.** A deny rule added
anywhere among others grants no further record, unless access was denied outright; and
an allow rule takes none away, unless the filter made no demand before. In both cases
the opposite happens, at least if the rule is read: the deny rule does grant a record
that was not granted, and the allow rule takes one away. -/
theorem RuleList.adding_condition (xs ys : List Rule) (c : Conditions) :
    let given : RuleList := ⟨xs ++ ys⟩
    let denying : RuleList := ⟨xs ++ .denyWhen c :: ys⟩
    let allowing : RuleList := ⟨xs ++ .allowWhen c :: ys⟩
    (given.restrict Filter.empty ≠ .noAccess → ∀ r, denying.Grants r → given.Grants r) ∧
      (¬ given.ExcludesOnly → ∀ r, given.Grants r → allowing.Grants r) ∧
      ((∀ rule ∈ xs, rule.isConditioned = true) →
        (given.restrict Filter.empty = .noAccess →
          ∃ r, denying.Grants r ∧ ¬ given.Grants r) ∧
        (given.ExcludesOnly → ∃ r, given.Grants r ∧ ¬ allowing.Grants r)) := by
  intro given denying allowing
  refine ⟨?_, ?_, ?_⟩
  · intro haccess r hr
    exact grants_of_denyWhen xs ys c haccess hr
  · intro hdemand r hr
    exact grants_allowWhen_of_grants xs ys c hdemand hr
  · intro hxs
    exact ⟨exists_granted_by_denyWhen ys c hxs, exists_lost_by_allowWhen ys c hxs⟩

theorem RuleList.adding_condition_draft :
    let draft : Conditions := ⟨[("draft", .bool true)], by decide, by decide, by decide⟩
    let mine : Conditions := ⟨[("author", .int 7)], by decide, by decide, by decide⟩
    (restrict ⟨[.allow]⟩ Filter.empty ≠ .noAccess ∧
      ∀ r, Grants ⟨[.denyWhen draft, .allow]⟩ r → Grants ⟨[.allow]⟩ r) ∧
    (¬ ExcludesOnly ⟨[.allowWhen mine]⟩ ∧
      ∀ r, Grants ⟨[.allowWhen mine]⟩ r →
        Grants ⟨[.allowWhen mine, .allowWhen draft]⟩ r) ∧
    (restrict ⟨[.deny]⟩ Filter.empty = .noAccess ∧
      ∃ r, Grants ⟨[.denyWhen draft, .deny]⟩ r ∧ ¬ Grants ⟨[.deny]⟩ r) ∧
    (ExcludesOnly ⟨[.denyWhen draft]⟩ ∧
      ∃ r, Grants ⟨[.denyWhen draft]⟩ r ∧
        ¬ Grants ⟨[.denyWhen draft, .allowWhen mine]⟩ r) := by
  intro draft mine
  have haccess : restrict ⟨[.allow]⟩ Filter.empty ≠ .noAccess := nofun
  have hdemand : ¬ ExcludesOnly ⟨[.allowWhen mine]⟩ := by
    rw [Rule.excludesOnly_iff]
    simp [Rule.allowWhen]
  have hnone : restrict ⟨[.deny]⟩ Filter.empty = .noAccess := rfl
  have honly : ExcludesOnly ⟨[.denyWhen draft]⟩ := ⟨⟨[.noneOf draft]⟩, rfl, by simp⟩
  obtain ⟨hdeny, -⟩ := adding_condition [] [.allow] draft
  obtain ⟨-, hallow, -⟩ := adding_condition [.allowWhen mine] [] draft
  obtain ⟨-, -, hwidens⟩ := adding_condition [] [.deny] draft
  obtain ⟨-, -, hnarrows⟩ := adding_condition [.denyWhen draft] [] mine
  exact ⟨⟨haccess, hdeny haccess⟩, ⟨hdemand, hallow hdemand⟩,
    ⟨hnone, (hwidens (by simp)).1 hnone⟩, ⟨honly, (hnarrows (by decide)).2 honly⟩⟩

end RowAccess
