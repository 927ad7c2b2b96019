/-
RowAccess.Proofs.Interchange — equal rules lead to equal filters, which admit the same
records.

Equal rules need not be the same: their conditions may name the fields in another order,
and one zero may stand for the other. Neither is seen by a record. A value agrees with
the values that it agrees with whatever float stands for a number, and a test of all
fields has no order. The requirements of equal lists are then equal one by one, each at
its place (`Rule.requirements_sideBySide`), and all else follows from them.

* `Value.agrees_congr`, `Conditions.holds_congr`, `Term.admits_congr` — equal demands are
  met by the same records.
* `RuleList.interchangeable` — equal lists have equal verdicts, alike to every record.
-/
import RowAccess.Proofs.Equality
import RowAccess.Proofs.Rearrangement

namespace RowAccess

/-! ## 1. Equal demands -/

/-- Equal values agree with the same stored values. -/
theorem Value.agrees_congr {v w : Value} (h : (v == w) = true) (stored : Value) :
    stored.agrees v = stored.agrees w := by
  rcases (beq_iff v w).mp h with ⟨rfl, -⟩ | ⟨x, y, rfl, rfl, hxy⟩
  · rfl
  · cases stored with
    | bool _ => rfl
    | text _ => rfl
    | int n => exact BEq.congr_right hxy
    | float z => exact BEq.congr_right hxy

namespace Conditions

variable {c c' : Conditions}

/-- A test of all fields that does not tell equal values apart does not tell equal
conditions apart. -/
theorem all_congr (h : (c == c') = true) {test : String × Value → Bool}
    (htest : ∀ name v w, (v == w) = true → test (name, v) = test (name, w)) :
    c.pairs.all test = c'.pairs.all test := by
  have hall : ∀ {a b : Conditions}, (a == b) = true → b.pairs.all test = true →
      a.pairs.all test = true := by
    intro a b hab hb
    refine List.all_eq_true.mpr fun p hp => ?_
    obtain ⟨v, hv, heq⟩ := ((beq_iff a b).mp hab).2 p hp
    exact (htest p.1 v p.2 heq).symm.trans (List.all_eq_true.mp hb _ hv)
  exact Bool.eq_iff_iff.mpr ⟨hall (BEq.symm h), hall h⟩

/-- Equal conditions hold of the same records. -/
theorem holds_congr (h : (c == c') = true) (r : Record) : c.holds r = c'.holds r := by
  refine all_congr h fun name v w heq => ?_
  simp only [Value.agrees_congr heq]

end Conditions

/-! ## 2. Lists side by side -/

/-- The elements of two lists are equal, each to the one at its place. -/
abbrev SideBySide {α : Type} [BEq α] : List α → List α → Prop :=
  List.Forall₂ fun a b => (a == b) = true

theorem beq_iff_sideBySide {α : Type} [BEq α] : ∀ {as bs : List α},
    (as == bs) = true ↔ SideBySide as bs
  | [], [] => by simp
  | [], _ :: _ => by simp
  | _ :: _, [] => by simp
  | a :: as, b :: bs => by
      simp only [SideBySide, List.cons_beq_cons, Bool.and_eq_true, List.forall₂_cons]
      rw [beq_iff_sideBySide]

/-- A function that does not tell equal elements apart has the same values on both
lists. -/
theorem SideBySide.map_eq {α γ : Type} [BEq α] {as bs : List α} {f : α → γ}
    (h : SideBySide as bs) (hf : ∀ a b, (a == b) = true → f a = f b) :
    as.map f = bs.map f := by
  induction h with
  | nil => rfl
  | cons hab _ ih => rw [List.map_cons, List.map_cons, hf _ _ hab, ih]

theorem SideBySide.eq_nil_iff {α : Type} [BEq α] {as bs : List α} (h : SideBySide as bs) :
    as = [] ↔ bs = [] := by
  rw [← List.length_eq_zero_iff, ← List.length_eq_zero_iff, h.length_eq]

/-! ## 3. Equal requirements -/

/-- Equal terms admit the same records. -/
theorem Term.admits_congr (r : Record) : ∀ {t t' : Term}, (t == t') = true →
    t.admits r = t'.admits r
  | .noneOf c, .noneOf c', h => by
      have hc : (c == c') = true := h
      refine Conditions.all_congr hc fun name v w heq => ?_
      simp only [Value.agrees_congr heq]
  | .anyOf cs, .anyOf cs', h => by
      have hcs : SideBySide cs cs' := beq_iff_sideBySide.mp h
      have hheld : cs.map (·.holds r) = cs'.map (·.holds r) :=
        hcs.map_eq fun c c' heq => Conditions.holds_congr heq r
      simpa [List.any_map, admits] using congrArg (List.any · id) hheld

/-- Equal filters admit the same records. -/
theorem Filter.admits_congr {f g : Filter} (h : (f == g) = true) (r : Record) :
    f.admits r = g.admits r := by
  have hterms : SideBySide f.terms g.terms := beq_iff_sideBySide.mp h
  have hadmitted : f.terms.map (·.admits r) = g.terms.map (·.admits r) :=
    hterms.map_eq fun t t' heq => Term.admits_congr r heq
  simpa [List.all_map, admits] using congrArg (List.all · id) hadmitted

namespace Rule

/-- Equal rules have the same effect, and neither has conditions or both have equal
ones. -/
theorem beq_cases {rule rule' : Rule} (h : (rule == rule') = true) :
    (∃ e, rule = ⟨e, none⟩ ∧ rule' = ⟨e, none⟩) ∨
      ∃ e c c', rule = ⟨e, some c⟩ ∧ rule' = ⟨e, some c'⟩ ∧ (c == c') = true := by
  obtain ⟨e, conditions⟩ := rule
  obtain ⟨e', conditions'⟩ := rule'
  have hparts : (e == e' && conditions == conditions') = true := h
  rw [Bool.and_eq_true, beq_iff_eq] at hparts
  obtain ⟨rfl, hconditions⟩ := hparts
  cases conditions with
  | none =>
      cases conditions' with
      | none => exact .inl ⟨e, rfl, rfl⟩
      | some _ => cases hconditions
  | some c =>
      cases conditions' with
      | none => cases hconditions
      | some c' => exact .inr ⟨e, c, c', rfl, rfl, hconditions⟩

theorem conditionsOf_blanket (effect e : Effect) (rules : List Rule) :
    conditionsOf effect (⟨e, none⟩ :: rules) = conditionsOf effect rules := by
  simp [conditionsOf]

theorem conditionsOf_conditioned (effect e : Effect) (c : Conditions)
    (rules : List Rule) :
    conditionsOf effect (⟨e, some c⟩ :: rules) =
      if e = effect then c :: conditionsOf effect rules
      else conditionsOf effect rules := by
  by_cases he : e = effect <;> simp [conditionsOf, he]

variable {rules rules' : List Rule} (h : SideBySide rules rules')
include h

/-- Equal lists have equal live rules and the same blanket effect. -/
theorem live_sideBySide :
    SideBySide (live rules) (live rules') ∧ blanket? rules = blanket? rules' := by
  induction h with
  | nil => exact ⟨.nil, rfl⟩
  | cons hrule _ ih =>
      rcases beq_cases hrule with ⟨e, rfl, rfl⟩ | ⟨e, c, c', rfl, rfl, hc⟩
      · exact ⟨.nil, rfl⟩
      · exact ⟨.cons hrule ih.1, ih.2⟩

/-- Equal lists have equal conditions of either effect. -/
theorem conditionsOf_sideBySide (effect : Effect) :
    SideBySide (conditionsOf effect rules) (conditionsOf effect rules') := by
  induction h with
  | nil => exact .nil
  | cons hrule _ ih =>
      rcases beq_cases hrule with ⟨e, rfl, rfl⟩ | ⟨e, c, c', rfl, rfl, hc⟩
      · rw [conditionsOf_blanket, conditionsOf_blanket]
        exact ih
      · rw [conditionsOf_conditioned, conditionsOf_conditioned]
        split
        · exact .cons hc ih
        · exact ih

/-- Equal lists have equal requirements. -/
theorem requirements_sideBySide :
    SideBySide (requirements [] rules) (requirements [] rules') := by
  obtain ⟨hlive, hblanket⟩ := live_sideBySide h
  have hdenied : SideBySide ((denied rules).map Term.noneOf)
      ((denied rules').map .noneOf) :=
    List.forall₂_map_left_iff.mpr (List.forall₂_map_right_iff.mpr
      (conditionsOf_sideBySide hlive .deny))
  have hallowed : SideBySide (allowed rules) (allowed rules') :=
    conditionsOf_sideBySide hlive .allow
  have hnone := hallowed.eq_nil_iff
  rw [requirements, requirements, List.nil_append, List.nil_append, hblanket]
  refine List.rel_append hdenied ?_
  by_cases hdemand : blanket? rules' = some .allow ∨ allowed rules' = []
  · rw [if_pos hdemand, if_pos (by rwa [hnone])]
    exact .nil
  · rw [if_neg hdemand, if_neg (by rwa [hnone])]
    exact .cons (beq_iff_sideBySide.mpr hallowed) .nil

end Rule

/-! ## 4. Equal verdicts -/

namespace RuleList

variable {rules rules' : RuleList}

/-- Equal lists have equal verdicts. -/
theorem restrict_beq (h : (rules == rules') = true) :
    (rules.restrict Filter.empty == rules'.restrict Filter.empty) = true := by
  have hrules : SideBySide rules.toList rules'.toList := beq_iff_sideBySide.mp h
  obtain ⟨hlive, hblanket⟩ := Rule.live_sideBySide hrules
  have hfilters : (Restriction.addAll Filter.empty (Rule.requirements [] rules.toList) ==
      Restriction.addAll Filter.empty (Rule.requirements [] rules'.toList)) = true := by
    rw [Filter.addAll_eq, Filter.addAll_eq]
    exact beq_iff_sideBySide.mpr (Rule.requirements_sideBySide hrules)
  rw [restrict_eq, restrict_eq]
  exact Rule.verdict_rel (fun v w => (v == w) = true) hblanket
    hlive.eq_nil_iff rfl hfilters
    hfilters

end RuleList

/-- Equal verdicts are of one kind, and their filters admit the same records. -/
theorem Verdict.alike_of_beq : ∀ {v w : Verdict Filter}, (v == w) = true → v.Alike w
  | .noAccess, .noAccess, _ => .noAccess
  | .unrestricted f, .unrestricted g, h =>
      .unrestricted (Filter.admits_congr (f := f) (g := g) h)
  | .filtered f, .filtered g, h => .filtered (Filter.admits_congr (f := f) (g := g) h)

/-- **Equal rules are interchangeable.** Equal lists of rules have equal verdicts, which
are of one kind and whose filters admit the same records; and equal conditions hold of the
same records. -/
theorem RuleList.interchangeable :
    (∀ rules rules' : RuleList, (rules == rules') = true →
      (rules.restrict Filter.empty == rules'.restrict Filter.empty) = true ∧
        (rules.restrict Filter.empty).Alike (rules'.restrict Filter.empty)) ∧
      ∀ c c' : Conditions, (c == c') = true → ∀ r, c.holds r = c'.holds r := by
  constructor
  · intro rules rules' h
    exact ⟨restrict_beq h, Verdict.alike_of_beq (restrict_beq h)⟩
  · intro c c' h r
    exact Conditions.holds_congr h r

/-- The fields of a deny rule change places, and zeros change their signs. -/
theorem RuleList.interchangeable_zeros :
    let unrated : Conditions :=
      ⟨[("rating", .float 0), ("votes", .int 0)], by decide, by decide, by decide⟩
    let unrated' : Conditions :=
      ⟨[("votes", .int 0), ("rating", .float (-0))], by decide, by decide, by decide⟩
    let rules : RuleList := ⟨[.denyWhen unrated, .allowWhen unrated, .deny]⟩
    let rules' : RuleList := ⟨[.denyWhen unrated', .allowWhen unrated', .deny]⟩
    ((rules == rules') = true ∧
        (rules.restrict Filter.empty == rules'.restrict Filter.empty) = true ∧
        (rules.restrict Filter.empty).Alike (rules'.restrict Filter.empty)) ∧
      (unrated == unrated') = true ∧ ∀ r, unrated.holds r = unrated'.holds r := by
  intro unrated unrated' rules rules'
  have hrules : (rules == rules') = true := by decide +kernel
  have hunrated : (unrated == unrated') = true := by decide +kernel
  obtain ⟨hverdicts, hconditions⟩ := interchangeable
  exact ⟨⟨hrules, hverdicts rules rules' hrules⟩,
    ⟨hunrated, hconditions unrated unrated' hunrated⟩⟩

end RowAccess
