/-
RowAccess.Proofs.Precedence — what the reading of a list of rules comes to,
said without reading it.

A list is cut at its first rule without conditions. The rules before it are
the `live` ones, its effect is the `blanket?` effect, and nothing behind it
matters. From these two the requirements follow in one step: the conditions of
the live deny rules, each excluded by itself and in order, and then at most one
demand that some conditions of the live allow rules hold.

* `Pass.read_spec` — a reading that is under way, whatever hook is asked.
* `RuleSource.ruling_predicate`, `RuleSource.ruling_verdict` — the same for
  the rules of a source.
* `ruling_requirements` — the sequence of requirements that any predicate is
  given.

`ruling_requirements` holds of every predicate, so of one that only records
what it is given: no requirement is added beside those stated. It speaks of
the predicate kept in the ruling too, which is what a caller who lends a
predicate finds afterwards, also where access is denied.
-/
import RowAccess.Filter
import RowAccess.Ruling

namespace RowAccess

/-! ## 1. A list of rules, cut at its first rule without conditions -/

namespace Rule

/-- The rules before the first one without conditions. -/
def live (rules : List Rule) : List Rule := rules.takeWhile (·.isConditioned)

/-- The effect of the first rule without conditions, if there is one. -/
def blanket? (rules : List Rule) : Option Effect :=
  (rules.find? (!·.isConditioned)).map (·.effect)

/-- The conditions of the rules of one effect, in the order of the rules. -/
def conditionsOf (effect : Effect) (rules : List Rule) : List Conditions :=
  rules.filterMap fun rule => if rule.effect = effect then rule.conditions else none

/-- The conditions of the live deny rules. -/
def denied (rules : List Rule) : List Conditions := conditionsOf .deny (live rules)

/-- The conditions of the live allow rules. -/
def allowed (rules : List Rule) : List Conditions := conditionsOf .allow (live rules)

/-- What rules require, behind conditions that are pending already: that no
denied conditions hold, and unless every record is allowed in the end, that
some pending or allowed ones do. -/
def requirements (pending : List Conditions) (rules : List Rule) : List Term :=
  let alternatives := pending ++ allowed rules
  (denied rules).map .noneOf ++
    if blanket? rules = some .allow ∨ alternatives = [] then [] else [.anyOf alternatives]

variable (e : Effect) (c : Conditions) (older : List Rule)

@[simp] theorem live_nil : live [] = [] := rfl
@[simp] theorem live_conditioned :
    live (⟨e, some c⟩ :: older) = ⟨e, some c⟩ :: live older := rfl
@[simp] theorem live_blanket : live (⟨e, none⟩ :: older) = [] := rfl

@[simp] theorem blanket?_nil : blanket? [] = none := rfl
@[simp] theorem blanket?_conditioned :
    blanket? (⟨e, some c⟩ :: older) = blanket? older := rfl
@[simp] theorem blanket?_blanket : blanket? (⟨e, none⟩ :: older) = some e := rfl

@[simp] theorem denied_nil : denied [] = [] := rfl
@[simp] theorem denied_deny : denied (⟨.deny, some c⟩ :: older) = c :: denied older := rfl
@[simp] theorem denied_allow : denied (⟨.allow, some c⟩ :: older) = denied older := rfl
@[simp] theorem denied_blanket : denied (⟨e, none⟩ :: older) = [] := rfl

@[simp] theorem allowed_nil : allowed [] = [] := rfl
@[simp] theorem allowed_deny : allowed (⟨.deny, some c⟩ :: older) = allowed older := rfl
@[simp] theorem allowed_allow :
    allowed (⟨.allow, some c⟩ :: older) = c :: allowed older := rfl
@[simp] theorem allowed_blanket : allowed (⟨e, none⟩ :: older) = [] := rfl

end Rule

/-! ## 2. Requirements as data -/

namespace Restriction

variable {β : Type} [Restriction β]

/-- Adds one requirement to a predicate. -/
def add (predicate : β) : Term → β
  | .noneOf c => exclude predicate c
  | .anyOf alternatives => requireAny predicate alternatives

/-- Adds requirements to a predicate, in their order. -/
def addAll (predicate : β) (terms : List Term) : β := terms.foldl add predicate

@[simp] theorem addAll_nil (predicate : β) : addAll predicate [] = predicate := rfl

@[simp] theorem addAll_noneOf_cons (predicate : β) (c : Conditions) (terms : List Term) :
    addAll predicate (.noneOf c :: terms) = addAll (exclude predicate c) terms := rfl

@[simp] theorem addAll_anyOf_cons (predicate : β) (cs : List Conditions)
    (terms : List Term) :
    addAll predicate (.anyOf cs :: terms) = addAll (requireAny predicate cs) terms := rfl

theorem addAll_append (predicate : β) (earlier later : List Term) :
    addAll predicate (earlier ++ later) = addAll (addAll predicate earlier) later :=
  List.foldl_append

theorem addAll_map_noneOf (sets : List Conditions) (predicate : β) :
    addAll predicate (sets.map .noneOf) = sets.foldl exclude predicate :=
  List.foldl_map

/-- A predicate that keeps the requirements it is given keeps all of them. -/
theorem addAll_kept (keep : List Term → β)
    (h : ∀ terms t, add (keep terms) t = keep (terms ++ [t])) :
    ∀ later earlier : List Term, addAll (keep earlier) later = keep (earlier ++ later)
  | [], earlier => by rw [addAll_nil, List.append_nil]
  | t :: later, earlier => by
      have ih := addAll_kept keep h later (earlier ++ [t])
      rw [List.append_assoc, List.singleton_append] at ih
      rw [addAll, List.foldl_cons, h]
      exact ih

end Restriction

/-- A demand is made only where there are alternatives for it. -/
theorem Rule.ne_nil_of_demand {pending alternatives : List Conditions} {rules : List Rule}
    (h : .anyOf alternatives ∈ requirements pending rules) : alternatives ≠ [] := by
  rw [requirements, List.mem_append] at h
  rcases h with h | h
  · simp at h
  · split at h
    · simp at h
    · next hne =>
        rw [not_or] at hne
        obtain rfl : alternatives = pending ++ allowed rules := by simpa using h
        exact hne.2

/-- A filter keeps the requirements it is given as its terms. -/
theorem Filter.addAll_eq (terms : List Term) (f : Filter) :
    Restriction.addAll f terms = ⟨f.terms ++ terms⟩ :=
  Restriction.addAll_kept Filter.mk (by rintro _ (_ | _) <;> rfl) terms f.terms

/-! ## 3. A reading under way -/

namespace Pass

variable {β σ : Type}

/-- The decision after the rules still to read. -/
def decision (pass : Pass β) (rules : List Rule) : Decision :=
  if Rule.blanket? rules = some .allow then .unrestricted
  else if pass.position + (Rule.live rules).length = 0 then .noAccess
  else .filtered (pass.pending ++ Rule.allowed rules).length

variable [Restriction β]

/-! One equation for each way in which a reading goes on or ends. The result
of a reading is a pair of a ruling and the state of the hook. -/

theorem read_nil (ask : String → StateM σ Bool) (n : Nat) (pass : Pass β) (s : σ) :
    (read ask n pass []).run s = (pass.finish n, s) := rfl

theorem read_blanketDeny (ask : String → StateM σ Bool) (n : Nat) (pass : Pass β)
    (older : List Rule) (s : σ) :
    (read ask n pass (⟨.deny, none⟩ :: older)).run s =
      ((pass.finish n).after [.blanketDeny pass.position], s) := rfl

theorem read_blanketAllow (ask : String → StateM σ Bool) (n : Nat) (pass : Pass β)
    (older : List Rule) (s : σ) :
    (read ask n pass (⟨.allow, none⟩ :: older)).run s =
      (⟨.unrestricted, pass.predicate,
        [.blanketAllow pass.position pass.pending.length,
          .decided .unrestricted n]⟩, s) := rfl

theorem read_conditioned (ask : String → StateM σ Bool) (n : Nat) (pass : Pass β)
    (effect : Effect) (c : Conditions) (older : List Rule) (s : σ) :
    (read ask n pass (⟨effect, some c⟩ :: older)).run s =
      let asked := (askFields ask c.names).run s
      let ruled := (read ask n (pass.take effect c).1 older).run asked.2
      (ruled.1.after (asked.1 ++ [(pass.take effect c).2]), ruled.2) := by
  cases effect <;> rfl

/-- What comes of a pass that is ended. -/
theorem finish_spec (pass : Pass β) (n : Nat) :
    (pass.finish n).decision = pass.decision [] ∧
    (pass.finish n).predicate =
      Restriction.addAll pass.predicate (Rule.requirements pass.pending []) := by
  cases hp : pass.pending <;> simp [finish, decision, Rule.requirements, hp]

/-- **A reading adds the requirements of the rules it has still to read, and
decides by them**, whatever the hook answers. -/
theorem read_spec (ask : String → StateM σ Bool) (n : Nat) :
    ∀ (rules : List Rule) (pass : Pass β) (s : σ),
      ((read ask n pass rules).run s).1.decision = pass.decision rules ∧
      ((read ask n pass rules).run s).1.predicate =
        Restriction.addAll pass.predicate (Rule.requirements pass.pending rules)
  | [], pass, s => by
      rw [read_nil]; exact finish_spec pass n
  | ⟨.deny, none⟩ :: _, pass, s => by
      rw [read_blanketDeny]
      simpa [Ruling.after, decision, Rule.requirements] using finish_spec pass n
  | ⟨.allow, none⟩ :: _, pass, s => by
      rw [read_blanketAllow]; simp [decision, Rule.requirements]
  | ⟨.deny, some c⟩ :: older, pass, s => by
      rw [read_conditioned]
      obtain ⟨hd, hp⟩ := read_spec ask n older (pass.take .deny c).1
        ((askFields ask c.names).run s).2
      constructor
      · simp only [Ruling.after, hd]
        simp [decision, take]
      · simp only [Ruling.after, hp]
        simp [Rule.requirements, take]
  | ⟨.allow, some c⟩ :: older, pass, s => by
      rw [read_conditioned]
      obtain ⟨hd, hp⟩ := read_spec ask n older (pass.take .allow c).1
        ((askFields ask c.names).run s).2
      constructor
      · simp only [Ruling.after, hd]
        simp [decision, take]
      · simp only [Ruling.after, hp]
        simp [Rule.requirements, take]

end Pass

/-! ## 4. The ruling of a list of rules -/

section Ruling

variable {β σ : Type} [Restriction β]

/-- The verdict of rules on a predicate, read off the live rules and the
blanket effect. -/
def Rule.verdict (rules : List Rule) (start : β) : Verdict β :=
  let predicate := Restriction.addAll start (requirements [] rules)
  if blanket? rules = some .allow then .unrestricted predicate
  else if live rules = [] then .noAccess
  else .filtered predicate

/-- Rules that grant nothing: there is no rule before the first one without
conditions, and that one does not allow. -/
def Rule.GrantsNothing (rules : List Rule) : Prop :=
  blanket? rules ≠ some .allow ∧ live rules = []

instance (rules : List Rule) : Decidable (Rule.GrantsNothing rules) :=
  inferInstanceAs (Decidable (_ ∧ _))

theorem Rule.verdict_of_grantsNothing {rules : List Rule} (h : GrantsNothing rules)
    (start : β) :
    verdict rules start = .noAccess := by
  rw [verdict, if_neg h.1, if_pos h.2]

/-- In all other cases the verdict holds the requirements of the rules. -/
theorem Rule.verdict_of_not_grantsNothing {rules : List Rule} (h : ¬ GrantsNothing rules)
    (start : β) :
    verdict rules start =
        .unrestricted (Restriction.addAll start (requirements [] rules)) ∨
      verdict rules start =
        .filtered (Restriction.addAll start (requirements [] rules)) := by
  rw [verdict]
  by_cases hblanket : blanket? rules = some .allow
  · exact Or.inl (if_pos hblanket)
  · rw [if_neg hblanket, if_neg fun hlive => h ⟨hblanket, hlive⟩]
    exact Or.inr rfl

/-- Lists with the same blanket effect, of which both have live rules or neither has, come
to verdicts of one kind. What relates these for each kind relates the verdicts. -/
theorem Rule.verdict_rel {γ : Type} [Restriction γ] {rules rules' : List Rule} {start : β}
    {start' : γ} (R : Verdict β → Verdict γ → Prop)
    (hblanket : blanket? rules = blanket? rules')
    (hlive : live rules = [] ↔ live rules' = []) (hnoAccess : R .noAccess .noAccess)
    (hunrestricted : R (.unrestricted (Restriction.addAll start (requirements [] rules)))
      (.unrestricted (Restriction.addAll start' (requirements [] rules'))))
    (hfiltered : R (.filtered (Restriction.addAll start (requirements [] rules)))
      (.filtered (Restriction.addAll start' (requirements [] rules')))) :
    R (verdict rules start) (verdict rules' start') := by
  rw [verdict, verdict, ← hblanket]
  by_cases hallows : blanket? rules = some .allow
  · rw [if_pos hallows, if_pos hallows]
    exact hunrestricted
  · rw [if_neg hallows, if_neg hallows]
    by_cases hnone : live rules = []
    · rw [if_pos hnone, if_pos (hlive.mp hnone)]
      exact hnoAccess
    · rw [if_neg hnone, if_neg fun hnone' => hnone (hlive.mpr hnone')]
      exact hfiltered

theorem Rule.verdict_eq_noAccess_iff (rules : List Rule) (start : β) :
    verdict rules start = .noAccess ↔ GrantsNothing rules := by
  by_cases h : GrantsNothing rules
  · simp [verdict_of_grantsNothing h, h]
  · rcases verdict_of_not_grantsNothing h start with hv | hv <;> simp [hv, h]

/-- A reading from the start gives the verdict of the rules, and leaves their
requirements in the predicate. -/
theorem Pass.read_start (ask : String → StateM σ Bool) (n : Nat) (rules : List Rule)
    (start : β) (s : σ) :
    ((Pass.read ask n { predicate := start } rules).run s).1.verdict =
      Rule.verdict rules start ∧
    ((Pass.read ask n { predicate := start } rules).run s).1.predicate =
      Restriction.addAll start (Rule.requirements [] rules) := by
  obtain ⟨hd, hp⟩ := Pass.read_spec ask n rules { predicate := start } s
  refine ⟨?_, hp⟩
  rw [Ruling.verdict, hd, hp]
  by_cases hb : Rule.blanket? rules = some .allow
  · simp [Pass.decision, Rule.verdict, hb]
  · by_cases hl : Rule.live rules = [] <;> simp [Pass.decision, Rule.verdict, hb, hl]

theorem RuleList.restrict_eq (rules : RuleList) (start : β) :
    rules.restrict start = Rule.verdict rules.toList start :=
  (Pass.read_start _ _ _ _ _).1

theorem RuleList.ruling_predicate (rules : RuleList) (start : β) :
    (rules.ruling start).predicate =
      Restriction.addAll start (Rule.requirements [] rules.toList) :=
  (Pass.read_start _ _ _ _ _).2

/-- The verdict for the rules of a source does not depend on the hook that is
asked, nor on the hook's state. -/
theorem RuleSource.ruling_verdict (source : RuleSource) (options : Options σ)
    (action subject : String) (start : β) (s : σ) :
    ((source.ruling options action subject start).run s).1.verdict =
      Rule.verdict (source.rulesFor action subject).toList start :=
  (Pass.read_start _ _ _ _ _).1

theorem RuleSource.ruling_predicate (source : RuleSource) (options : Options σ)
    (action subject : String) (start : β) (s : σ) :
    ((source.ruling options action subject start).run s).1.predicate =
      Restriction.addAll start
        (Rule.requirements [] (source.rulesFor action subject).toList) :=
  (Pass.read_start _ _ _ _ _).2

theorem RuleSource.restrict_eq (source : RuleSource) (options : Options σ)
    (action subject : String) (start : β) (s : σ) :
    ((source.restrict options action subject start).run s).1 =
      Rule.verdict (source.rulesFor action subject).toList start :=
  source.ruling_verdict options action subject start s

/-- Without live rules nothing is required. -/
theorem Rule.requirements_eq_nil {rules : List Rule} (h : Rule.live rules = []) :
    Rule.requirements [] rules = [] := by
  simp [requirements, denied, allowed, conditionsOf, h]

/-- The requirements of rules, spelled out as operations on the predicate. -/
theorem Rule.addAll_requirements (rules : List Rule) (start : β) :
    Restriction.addAll start (Rule.requirements [] rules) =
      let excluded := (denied rules).foldl Restriction.exclude start
      if blanket? rules = some .allow ∨ allowed rules = [] then excluded
      else Restriction.requireAny excluded (allowed rules) := by
  rw [requirements, Restriction.addAll_append, Restriction.addAll_map_noneOf]
  simp only [List.nil_append]
  split <;> simp

/-- **Every predicate is given one fixed sequence of requirements.** The
conditions of the live deny rules are excluded one by one, in the order of the
rules. If the first rule without conditions allows, that is all. Otherwise,
without live rules access is denied and the predicate is as it was; with live
rules, one further requirement with the conditions of the live allow rules
follows, unless there are none. A hook changes nothing of this. -/
theorem ruling_requirements (rules : RuleList) (start : β) :
    (let live := Rule.live rules.toList
     let denies := Rule.conditionsOf .deny live
     let allows := Rule.conditionsOf .allow live
     let excluded := denies.foldl Restriction.exclude start
     let complete :=
       if allows = [] then excluded else Restriction.requireAny excluded allows
     (rules.restrict start, (rules.ruling start).predicate) =
       if Rule.blanket? rules.toList = some .allow then (.unrestricted excluded, excluded)
       else if live = [] then (.noAccess, start)
       else (.filtered complete, complete)) ∧
    ∀ (σ : Type) (source : RuleSource) (options : Options σ)
      (action subject : String) (s : σ),
      let ruled := ((source.ruling options action subject start).run s).1
      let rules := source.rulesFor action subject
      (ruled.verdict, ruled.predicate) =
        (rules.restrict start, (rules.ruling start).predicate) := by
  constructor
  · intro live denies allows excluded complete
    have hall := Rule.addAll_requirements rules.toList start
    rw [RuleList.restrict_eq, RuleList.ruling_predicate, Rule.verdict]
    by_cases hb : Rule.blanket? rules.toList = some .allow
    · rw [if_pos hb, if_pos hb, hall, if_pos (Or.inl hb)]
      rfl
    · rw [if_neg hb, if_neg hb]
      by_cases hl : Rule.live rules.toList = []
      · rw [if_pos hl, if_pos hl, Rule.requirements_eq_nil hl, Restriction.addAll_nil]
      · have hcomplete : Restriction.addAll start (Rule.requirements [] rules.toList) =
            complete := by
          rw [hall]
          simp [hb, complete, allows, excluded, denies, live, Rule.allowed, Rule.denied]
        rw [if_neg hl, if_neg hl, hcomplete]
  · intro σ source options action subject s ruled rules
    rw [RuleSource.ruling_verdict, RuleSource.ruling_predicate, RuleList.restrict_eq,
        RuleList.ruling_predicate]

end Ruling

end RowAccess
