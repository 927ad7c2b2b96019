/-
RowAccess.Proofs.Rearrangement — rules with conditions may stand in any order.

The order of a list is its meaning, yet it shows only where a rule without conditions
stands. The live rules come down to exclusions, all of which have to hold, and to
alternatives, one of which has to hold. Neither depends on an order or on how often
something is said, although the terms of the filter do: a filter built of the same
rules in another order is another filter, which admits the same records.

* `Verdict.Alike` — verdicts of one kind that no record tells apart.
* `Rule.alike_of_mem_live_iff` — a verdict depends on which rules are live and on the
  blanket effect behind them.
* `RuleList.restrict_rearranged` — conditioned rules at the start of a list may be put
  in another order and repeated; two unconditioned ones may not change places.
-/
import RowAccess.Proofs.Monotonicity

namespace RowAccess

/-! ## 1. Verdicts alike -/

/-- Verdicts of the same kind, whose filters admit the same records. -/
inductive Verdict.Alike : Verdict Filter → Verdict Filter → Prop
  | noAccess : Alike .noAccess .noAccess
  | unrestricted {f g : Filter} (h : ∀ r, f.admits r = g.admits r) :
    Alike (.unrestricted f) (.unrestricted g)
  | filtered {f g : Filter} (h : ∀ r, f.admits r = g.admits r) :
    Alike (.filtered f) (.filtered g)

namespace Rule

variable {rules rules' : List Rule}

/-- Rules come to verdicts alike if the blanket effect is the same, both lists have live
rules or neither has, and their requirements admit the same records. -/
theorem alike_of_admits_iff (hblanket : blanket? rules = blanket? rules')
    (hlive : live rules = [] ↔ live rules' = [])
    (hadmits : ∀ r,
      (Restriction.addAll Filter.empty (requirements [] rules)).admits r = true ↔
        (Restriction.addAll Filter.empty (requirements [] rules')).admits r = true) :
    (verdict rules Filter.empty).Alike (verdict rules' Filter.empty) := by
  have hadmits' := fun r => Bool.eq_iff_iff.mpr (hadmits r)
  exact verdict_rel Verdict.Alike hblanket hlive .noAccess (.unrestricted hadmits')
    (.filtered hadmits')

/-! ## 2. The live rules as a set -/

theorem mem_conditionsOf {e : Effect} {c : Conditions} :
    c ∈ conditionsOf e rules ↔ ⟨e, some c⟩ ∈ rules := by
  rw [conditionsOf, List.mem_filterMap]
  constructor
  · rintro ⟨⟨effect, conditions⟩, hmem, hc⟩
    split at hc
    · next heffect => rwa [← heffect, ← hc]
    · simp at hc
  · intro hmem
    exact ⟨_, hmem, if_pos rfl⟩

/-- **Only the set of live rules and the blanket effect count.** Lists that agree in
these come to verdicts alike. -/
theorem alike_of_mem_live_iff (hblanket : blanket? rules = blanket? rules')
    (hlive : ∀ rule, rule ∈ live rules ↔ rule ∈ live rules') :
    (verdict rules Filter.empty).Alike (verdict rules' Filter.empty) := by
  have hconditions : ∀ e c, c ∈ conditionsOf e (live rules) ↔
      c ∈ conditionsOf e (live rules') := by
    intro e c
    rw [mem_conditionsOf, mem_conditionsOf, hlive]
  refine alike_of_admits_iff hblanket ?_ fun r => ?_
  · rw [List.eq_nil_iff_forall_not_mem, List.eq_nil_iff_forall_not_mem]
    exact forall_congr' fun rule => not_congr (hlive rule)
  · have hdenied : (∀ c ∈ denied rules, ¬ c.Touches r) ↔
        ∀ c ∈ denied rules', ¬ c.Touches r :=
      forall_congr' fun c => imp_congr_left (hconditions .deny c)
    have hallowed : allowed rules = [] ↔ allowed rules' = [] := by
      rw [List.eq_nil_iff_forall_not_mem, List.eq_nil_iff_forall_not_mem]
      exact forall_congr' fun c => not_congr (hconditions .allow c)
    have hany : (allowed rules).any (·.holds r) = true ↔
        (allowed rules').any (·.holds r) = true := by
      rw [List.any_eq_true, List.any_eq_true]
      exact exists_congr fun c => and_congr_left' (hconditions .allow c)
    rw [admits_requirements, admits_requirements, hblanket, hdenied, hallowed, hany]

end Rule

/-! ## 3. Rules in another order -/

namespace RuleList

/-- Conditioned rules at the start of a list may be exchanged for any list with the same
members. -/
theorem restrict_alike_of_mem_iff {xs xs' : List Rule}
    (hxs : ∀ rule ∈ xs, rule.isConditioned = true) (h : ∀ rule, rule ∈ xs' ↔ rule ∈ xs)
    (ys : List Rule) :
    (restrict ⟨xs ++ ys⟩ Filter.empty).Alike (restrict ⟨xs' ++ ys⟩ Filter.empty) := by
  have hxs' : ∀ rule ∈ xs', rule.isConditioned = true := fun rule hrule =>
    hxs rule ((h rule).mp hrule)
  rw [restrict_eq, restrict_eq]
  refine Rule.alike_of_mem_live_iff ?_ fun rule => ?_
  · rw [Rule.blanket?_append ys hxs, Rule.blanket?_append ys hxs']
  · rw [Rule.live_append ys hxs, Rule.live_append ys hxs', List.mem_append,
        List.mem_append, h]

/-- Behind conditioned rules, an unconditioned allow rule and an unconditioned deny rule
lead to verdicts of different kinds. -/
theorem not_alike_blankets {xs : List Rule} (hxs : ∀ rule ∈ xs, rule.isConditioned = true)
    (ys zs : List Rule) :
    ¬ (restrict ⟨xs ++ .allow :: ys⟩ Filter.empty).Alike
        (restrict ⟨xs ++ .deny :: zs⟩ Filter.empty) := by
  have hallow : Rule.blanket? (xs ++ .allow :: ys) = some .allow :=
    Rule.blanket?_append _ hxs
  have hdeny : Rule.blanket? (xs ++ .deny :: zs) = some .deny :=
    Rule.blanket?_append _ hxs
  rw [restrict_eq, restrict_eq, Rule.verdict, Rule.verdict, if_pos hallow,
      if_neg (by simp [hdeny])]
  split
  · intro h
    cases h
  · intro h
    cases h

/-- **Only unconditioned rules make order matter.** Conditioned rules at the start of a
list may be put in any other order, and any of them may be repeated any number of times
and anywhere among them: the verdict stays of the same kind, and its filter admits the
same records, whatever follows. Unconditioned rules are another matter: behind the same
conditioned rules, two of them of opposite effect cannot change places. -/
theorem restrict_rearranged (xs ys : List Rule)
    (hxs : ∀ rule ∈ xs, rule.isConditioned = true) :
    let verdict := restrict ⟨xs ++ ys⟩ Filter.empty
    (∀ xs', xs.Perm xs' → verdict.Alike (restrict ⟨xs' ++ ys⟩ Filter.empty)) ∧
      (∀ xs', xs.Sublist xs' → xs' ⊆ xs →
        verdict.Alike (restrict ⟨xs' ++ ys⟩ Filter.empty)) ∧
      ¬ (restrict ⟨xs ++ .allow :: .deny :: ys⟩ Filter.empty).Alike
          (restrict ⟨xs ++ .deny :: .allow :: ys⟩ Filter.empty) := by
  intro verdict
  refine ⟨?_, ?_, not_alike_blankets hxs _ _⟩
  · intro xs' hperm
    exact restrict_alike_of_mem_iff hxs (fun rule => hperm.mem_iff.symm) ys
  · intro xs' hsublist hsubset
    exact restrict_alike_of_mem_iff hxs (fun _ => ⟨(hsubset ·), (hsublist.subset ·)⟩) ys

/-- Two allow rules and a deny rule cross each other, and two of them are repeated, in
front of a deny rule that hides an allow rule. -/
theorem restrict_rearranged_crossing :
    let owned : Conditions := ⟨[("owner", .int 7)], by decide, by decide, by decide⟩
    let listed : Conditions := ⟨[("listed", .float 1)], by decide, by decide, by decide⟩
    let secret : Conditions :=
      ⟨[("secret", .bool true), ("owner", .int 7)], by decide, by decide, by decide⟩
    let xs : List Rule := [.allowWhen owned, .denyWhen secret, .allowWhen listed]
    let crossed : List Rule := [.denyWhen secret, .allowWhen listed, .allowWhen owned]
    let repeated : List Rule :=
      [.allowWhen owned, .denyWhen secret, .allowWhen owned, .allowWhen listed,
        .denyWhen secret]
    let verdict := restrict ⟨xs ++ [.deny, .allow]⟩ Filter.empty
    (∀ rule ∈ xs, rule.isConditioned = true) ∧
      (xs.Perm crossed ∧
        verdict.Alike (restrict ⟨crossed ++ [.deny, .allow]⟩ Filter.empty)) ∧
      (xs.Sublist repeated ∧ repeated ⊆ xs ∧
        verdict.Alike (restrict ⟨repeated ++ [.deny, .allow]⟩ Filter.empty)) := by
  intro owned listed secret xs crossed repeated verdict
  have hxs : ∀ rule ∈ xs, rule.isConditioned = true := by decide
  have hcrossed : xs.Perm crossed := (List.Perm.swap _ _ _).trans (.cons _ (.swap _ _ _))
  have hsublist : xs.Sublist repeated := by simp [xs, repeated]
  have hsubset : repeated ⊆ xs := by simp [xs, repeated]
  obtain ⟨hperm, hrepeat, -⟩ := restrict_rearranged xs [.deny, .allow] hxs
  exact ⟨hxs, ⟨hcrossed, hperm crossed hcrossed⟩,
    ⟨hsublist, hsubset, hrepeat repeated hsublist hsubset⟩⟩

end RuleList

end RowAccess
