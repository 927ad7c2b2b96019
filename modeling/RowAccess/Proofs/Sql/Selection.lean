/-
RowAccess.Proofs.Sql.Selection — a query and a table select the same records.

A query is built by steps, in any order. Each step only adds clauses at the
end, and which ones depends on the step and on the settings alone, so the
clauses of a whole run are known without running it (`Select.build_value`). The
text of the query is then read as a database reads it: cut into tokens, parsed
with the precedence of the grammar, evaluated in three truth values. A record
meets it just when it has the values asked for and is returned, for each source
and action, by a table that holds it (`Select.selects_as_tables`).

A literal does not tell the value it was written for, as `1` may stand for a
whole number or a float. A reading therefore carries the fields and values
themselves: it has the shape of the parse, and its equalities are those that
were written, from left to right.

The sentinel stands for a column that no row has. On a record with a field of
that name the clause of a refused step could be true, so such records are left
out.
-/
import RowAccess.Proofs.Sql.Truth
import RowAccess.Proofs.Visibility
import RowAccess.Sql.Select

namespace RowAccess.Sql

variable {σ : Type}

/-! ## 1. Steps and what they add -/

/-- A step by which a query is built. -/
inductive Step where
  | whereEq (field : String) (value : Value)
  | accessible (source : RuleSource) (action : String)
  | accessibleByDefault (source : RuleSource)

/-- Applies a step to a query. -/
def Step.apply (q : Select σ) : Step → StateM σ (Select σ)
  | whereEq field value => pure (q.whereEq field value)
  | accessible source action => do return (← q.accessible source action).value
  | accessibleByDefault source => do return (← q.accessibleByDefault source).value

/-- Applies steps to a query, one after the other. -/
def Select.build (q : Select σ) (steps : List Step) : StateM σ (Select σ) :=
  steps.foldlM Step.apply q

/-- The clauses that rules add to a query. -/
def clausesOf (sentinel : String) (rules : List Rule) : List Clause :=
  if Rule.GrantsNothing rules then [.equals sentinel (.int 1)]
  else (Rule.requirements [] rules).map .term

/-- The clauses that a step adds to a query. -/
def Step.clauses (sentinel subject : String) : Step → List Clause
  | whereEq field value => [.equals field value]
  | accessible source action => clausesOf sentinel (source.rulesFor action subject).toList
  | accessibleByDefault source =>
    clausesOf sentinel (source.rulesFor RuleSource.defaultAction subject).toList

/-- Whether a step leaves a query without rows. -/
def Step.empties (subject : String) : Step → Bool
  | whereEq _ _ => false
  | accessible source action => Rule.GrantsNothing (source.rulesFor action subject).toList
  | accessibleByDefault source =>
    Rule.GrantsNothing (source.rulesFor RuleSource.defaultAction subject).toList

/-! ## 2. Runs -/

namespace Select

/-- A query with further clauses. It returns no rows if these make it so or it
returned none before. -/
def extended (q : Select σ) (clauses : List Clause) (empties : Bool) : Select σ :=
  { q.add clauses with resolvesEmpty := empties || q.resolvesEmpty }

@[simp] theorem settings_extended (q : Select σ) (clauses : List Clause)
    (empties : Bool) :
    (q.extended clauses empties).settings = q.settings := rfl

@[simp] theorem subject_extended (q : Select σ) (clauses : List Clause) (empties : Bool) :
    (q.extended clauses empties).subject = q.subject := rfl

theorem extended_nil (q : Select σ) : q.extended [] false = q := by
  simp [extended, add]

theorem extended_extended (q : Select σ) (clauses later : List Clause)
    (empties empties' : Bool) :
    (q.extended clauses empties).extended later empties' =
      q.extended (clauses ++ later) (empties || empties') := by
  simp [extended, add, Bool.or_left_comm, Bool.or_assoc]

/-- The query that comes of a verdict on its predicate. -/
def granted (q : Select σ) : Verdict Where → Select σ
  | .noAccess => q.extended [.equals q.settings.sentinel (.int 1)] true
  | .unrestricted w | .filtered w => q.extended (w.terms.map .term) false

theorem granted_verdict (q : Select σ) (rules : List Rule) :
    q.granted (Rule.verdict rules { dialect := q.settings.dialect }) =
      q.extended (clausesOf q.settings.sentinel rules) (Rule.GrantsNothing rules) := by
  by_cases h : Rule.GrantsNothing rules
  · rw [Rule.verdict_of_grantsNothing h, clausesOf, if_pos h, decide_eq_true h, granted]
  · rw [clausesOf, if_neg h, decide_eq_false h]
    rcases Rule.verdict_of_not_grantsNothing h
      ({ dialect := q.settings.dialect } : Where) with
      hv | hv
    · rw [hv, granted, Where.addAll_eq]
      rfl
    · rw [hv, granted, Where.addAll_eq]
      rfl

/-- What a request for accessible rows adds to a query. -/
theorem accessible_value (q : Select σ) (source : RuleSource) (action : String) (s : σ) :
    ((q.accessible source action).run s).1.value =
      q.extended
        (clausesOf q.settings.sentinel (source.rulesFor action q.subject.name).toList)
        (Rule.GrantsNothing (source.rulesFor action q.subject.name).toList) := by
  rw [← granted_verdict,
      ← RuleSource.ruling_verdict source q.settings.access action q.subject.name _ s]
  unfold accessible
  rw [StateT.run_bind]
  generalize (source.ruling q.settings.access action q.subject.name
    ({ dialect := q.settings.dialect } : Where)).run s = ruled
  obtain ⟨⟨decision, w, events⟩, s'⟩ := ruled
  cases decision <;> rfl

/-- What one step does to a query, whatever the hook answers. -/
theorem apply_value (q : Select σ) (s : σ) : ∀ step : Step,
    ((step.apply q).run s).1 =
      q.extended (step.clauses q.settings.sentinel q.subject.name)
        (step.empties q.subject.name)
  | .whereEq _ _ => rfl
  | .accessible source action => accessible_value q source action s
  | .accessibleByDefault source => accessible_value q source RuleSource.defaultAction s

theorem build_cons (q : Select σ) (step : Step) (steps : List Step) (s : σ) :
    (q.build (step :: steps)).run s =
      (((step.apply q).run s).1.build steps).run ((step.apply q).run s).2 := by
  rw [build, List.foldlM_cons, StateT.run_bind]
  rfl

/-- **What a run does to a query.** It adds the clauses of its steps in order,
and empties the query if one of them does. -/
theorem build_value : ∀ (steps : List Step) (q : Select σ) (s : σ),
    ((q.build steps).run s).1 =
      q.extended (steps.flatMap (Step.clauses q.settings.sentinel q.subject.name))
        (steps.any (Step.empties q.subject.name))
  | [], q, _ => (extended_nil q).symm
  | step :: steps, q, s => by
      rw [build_cons, build_value steps, apply_value, settings_extended, subject_extended,
          extended_extended, List.flatMap_cons, List.any_cons]

/-! ## 3. The reading of a query -/

/-- The text behind `where`, if the query has one. -/
def whereText? (q : Select σ) : Option String :=
  if q.clauses.isEmpty then none else some (" and ".intercalate (q.clauses.map (·.text)))

theorem text_eq (q : Select σ) :
    let name := String.ofList (q.settings.dialect.identifier q.table)
    q.text = "select " ++ name ++ ".* from " ++ name ++
      q.whereText?.elim "" (" where " ++ ·) := by
  cases hq : q.clauses <;> simp [text, whereText?, hq]

end Select

/-- The fields and values of the equalities that a clause is written with, from
left to right. -/
def Clause.pairs : Clause → List (String × Value)
  | equals field value => [(field, value)]
  | term (.noneOf c) => c.pairs
  | term (.anyOf alternatives) => alternatives.flatMap (·.pairs)

/-- A formula is a reading of a query when it has the shape of a parse of the
text behind `where`, and the equalities that were written there. -/
def Select.Reading (q : Select σ) (f : Formula (String × Value)) : Prop :=
  ∃ text ts, q.whereText? = some text ∧ lex q.settings.dialect text.toList = some ts ∧
    (f.map q.settings.dialect.decoded).Parses ts ∧
      f.atoms = q.clauses.flatMap (·.clause.pairs)

theorem Clause.atoms_factors : ∀ c : Clause, c.factors.flatMap Factor.atoms = c.pairs
  | equals field value => rfl
  | term (.noneOf c) => by simp [factors, pairs, List.flatMap_map]
  | term (.anyOf alternatives) => by
      simp [factors, pairs, Formula.atoms, alternativesOf, List.flatMap_map]

theorem Clause.atoms_formula (clauses : List Clause) :
    (formula clauses).atoms = clauses.flatMap pairs := by
  rw [Formula.atoms, formula, List.flatMap_singleton, List.flatMap_assoc]
  exact congrArg (clauses.flatMap ·) (funext atoms_factors)

namespace Select

/-- A query of clauses in one dialect has one reading, the conjunction of the
clauses. -/
theorem reading_iff {q : Select σ} {clauses : List Clause}
    (hq : q.clauses = clauses.map (⟨q.settings.dialect, ·⟩))
    (hdemands : ∀ alternatives, .term (.anyOf alternatives) ∈ clauses → alternatives ≠ [])
    (hne : clauses ≠ []) (f : Formula (String × Value)) :
    q.Reading f ↔ f = Clause.formula clauses := by
  obtain ⟨ts, hlex, hparses⟩ := Clause.formula_reads q.settings.dialect clauses hdemands
  rw [← toList_intercalate_text] at hlex
  have htext : q.whereText? =
      some (" and ".intercalate (clauses.map (Clause.text q.settings.dialect))) := by
    rw [whereText?, if_neg (by simpa [hq] using hne), hq, List.map_map]
    rfl
  have hatoms : (Clause.formula clauses).atoms = q.clauses.flatMap (·.clause.pairs) := by
    rw [Clause.atoms_formula, hq, List.flatMap_map]
  constructor
  · rintro ⟨text, ts', htext', hlex', hparses', hatoms'⟩
    obtain rfl := Option.some.inj (htext.symm.trans htext')
    obtain rfl := Option.some.inj (hlex.symm.trans hlex')
    exact Formula.eq_of_map_eq _ (Formula.parses_unique hparses' hparses)
      (hatoms'.trans hatoms.symm)
  · rintro rfl
    exact ⟨_, ts, htext, hlex, hparses, hatoms⟩

theorem whereText?_eq_none_iff {q : Select σ} {clauses : List Clause}
    (hq : q.clauses = clauses.map (⟨q.settings.dialect, ·⟩)) :
    q.whereText? = none ↔ clauses = [] := by
  simp [whereText?, hq]

/-- Where there is a clause at all, it is true of the records that all clauses
admit. -/
theorem meets_iff {q : Select σ} {clauses : List Clause}
    (hq : q.clauses = clauses.map (⟨q.settings.dialect, ·⟩))
    (hdemands : ∀ alternatives, .term (.anyOf alternatives) ∈ clauses → alternatives ≠ [])
    (r : Record) :
    (q.whereText? = none ∨ ∃ f, q.Reading f ∧ f.truth (truthOf r) = some true) ↔
      ∀ c ∈ clauses, c.admits r = true := by
  rw [whereText?_eq_none_iff hq]
  by_cases hne : clauses = []
  · simp [hne]
  · simp only [hne, false_or, reading_iff hq hdemands hne, exists_eq_left,
      Clause.truth_formula]

end Select

/-! ## 4. Steps on one record -/

/-- No step adds a demand without alternatives. -/
theorem Step.ne_nil_of_demand {sentinel subject : String}
    {alternatives : List Conditions} :
    ∀ {step : Step}, .term (.anyOf alternatives) ∈ step.clauses sentinel subject →
      alternatives ≠ [] := by
  have hrules : ∀ rules : List Rule,
      .term (.anyOf alternatives) ∈ clausesOf sentinel rules → alternatives ≠ [] := by
    intro rules h
    rw [clausesOf] at h
    split at h
    · simp at h
    · exact Rule.ne_nil_of_demand (by simpa using h)
  intro step h
  cases step with
  | whereEq field value => simp [clauses] at h
  | accessible source action => exact hrules _ h
  | accessibleByDefault source => exact hrules _ h

/-- Whether a step selects a record, where access is decided by a table with
that record. -/
def Step.Selects {τ : Type} (t : Table τ) (s : τ) (r : Record) : Step → Prop
  | whereEq field value => ∃ v, r.get? field = some v ∧ v.agrees value = true
  | accessible source action => r ∈ ((t.accessible source action).run s).1.value
  | accessibleByDefault source => r ∈ ((t.accessibleByDefault source).run s).1.value

/-- Whether access is denied when a step decides it. -/
def Step.Refused (settings : Settings σ) (subject : Subject) (s : σ) : Step → Prop
  | whereEq _ _ => False
  | accessible source action =>
    ((source.restrict settings.access action subject.name
      ({ dialect := settings.dialect } : Where)).run s).1 = .noAccess
  | accessibleByDefault source =>
    ((source.restrict settings.access RuleSource.defaultAction subject.name
      ({ dialect := settings.dialect } : Where)).run s).1 = .noAccess

/-- The clauses of rules admit a record when a table with that record returns
it. -/
theorem admits_clausesOf {τ : Type} (t : Table τ) (s : τ) {r : Record} {sentinel : String}
    (hr : r ∈ t.records) (hsentinel : r.get? sentinel = none) (source : RuleSource)
    (action : String) :
    (∀ c ∈ clausesOf sentinel (source.rulesFor action t.subject.name).toList,
        c.admits r = true) ↔
      r ∈ ((t.accessible source action).run s).1.value := by
  rw [Table.accessible_value]
  generalize (source.rulesFor action t.subject.name).toList = rules
  by_cases h : Rule.GrantsNothing rules
  · rw [clausesOf, if_pos h, Rule.verdict_of_grantsNothing h, Table.shownBy,
        List.forall_mem_singleton, Clause.admits, hsentinel]
    simp
  · rw [clausesOf, if_neg h, Table.shownBy_verdict t.records h, List.mem_filter,
        List.forall_mem_map, Filter.addAll_eq, Filter.admits, List.all_eq_true]
    simp [Clause.admits, Filter.empty, hr]

theorem Step.admits_clauses {τ : Type} (t : Table τ) (s : τ) {r : Record}
    {sentinel : String} (hr : r ∈ t.records) (hsentinel : r.get? sentinel = none) :
    ∀ step : Step,
      (∀ c ∈ step.clauses sentinel t.subject.name, c.admits r = true) ↔
        step.Selects t s r
  | whereEq field value => by
      rw [clauses, List.forall_mem_singleton, Clause.admits, Option.any_eq_true]
      rfl
  | accessible source action => admits_clausesOf t s hr hsentinel source action
  | accessibleByDefault source =>
      admits_clausesOf t s hr hsentinel source RuleSource.defaultAction

theorem Step.empties_iff_refused (settings : Settings σ) (subject : Subject) (s : σ) :
    ∀ step : Step, step.empties subject.name = true ↔ step.Refused settings subject s
  | whereEq _ _ => by simp [empties, Refused]
  | accessible source action => by
      rw [Refused, RuleSource.restrict_eq, Rule.verdict_eq_noAccess_iff, empties,
          decide_eq_true_iff]
  | accessibleByDefault source => by
      rw [Refused, RuleSource.restrict_eq, Rule.verdict_eq_noAccess_iff, empties,
          decide_eq_true_iff]

/-! ## 5. Queries and tables -/

/-- **A query selects the records that tables return.** Whatever the steps, in
whatever order, a query has at most one reading, and one if it has a where
clause. A record without a field of the sentinel's name meets it exactly when it
has the values that were asked for and a table with that record returns it for
every source and action. The query is known to be empty exactly when access was
denied in one of the steps, and stays so in all later ones. -/
theorem Select.selects_as_tables (subject : Subject) (table : String)
    (settings : Settings σ) (steps : List Step) (s : σ) :
    let start := ({ subject, table } : Select σ).withSettings settings
    let q := ((start.build steps).run s).1
    let name := String.ofList (settings.dialect.identifier table)
    q.text = "select " ++ name ++ ".* from " ++ name ++
      q.whereText?.elim "" (" where " ++ ·) ∧
    (q.whereText? ≠ none → ∃ f, ∀ f', q.Reading f' ↔ f' = f) ∧
    (∀ (τ : Type) (t : Table τ) (state : τ) (r : Record),
      t.subject = subject → r ∈ t.records → r.get? settings.sentinel = none →
        ((q.whereText? = none ∨ ∃ f, q.Reading f ∧ f.truth (truthOf r) = some true) ↔
          ∀ step ∈ steps, step.Selects t state r)) ∧
    (∀ state : σ, q.resolvesEmpty = true ↔
      ∃ step ∈ steps, step.Refused settings subject state) ∧
    ∀ earlier later, steps = earlier ++ later →
      ((start.build earlier).run s).1.resolvesEmpty = true → q.resolvesEmpty = true := by
  intro start q name
  have hq : q = start.extended
      (steps.flatMap (Step.clauses settings.sentinel subject.name))
      (steps.any (Step.empties subject.name)) := build_value steps start s
  have hclauses : q.clauses =
      (steps.flatMap (Step.clauses settings.sentinel subject.name)).map
      (⟨q.settings.dialect, ·⟩) := by
    rw [hq]
    rfl
  have hdemands : ∀ alternatives, .term (.anyOf alternatives) ∈
      steps.flatMap (Step.clauses settings.sentinel subject.name) →
        alternatives ≠ [] := by
    intro alternatives h
    obtain ⟨step, -, hmem⟩ := List.mem_flatMap.mp h
    exact Step.ne_nil_of_demand hmem
  have hempty : ∀ steps : List Step, ((start.build steps).run s).1.resolvesEmpty =
      steps.any (Step.empties subject.name) := by
    intro steps
    rw [build_value steps start s]
    exact Bool.or_false _
  refine ⟨?_, ?_, ?_, ?_, ?_⟩
  · have htext := text_eq q
    rw [hq] at htext ⊢
    exact htext
  · intro hwhere
    exact ⟨_, reading_iff hclauses hdemands fun h =>
      hwhere ((whereText?_eq_none_iff hclauses).mpr h)⟩
  · intro τ t state r hsubject hr hsentinel
    subst hsubject
    rw [meets_iff hclauses hdemands, List.forall_mem_flatMap]
    exact forall₂_congr fun step _ => step.admits_clauses t state hr hsentinel
  · intro state
    rw [hempty steps, List.any_eq_true]
    exact exists_congr fun step =>
      and_congr_right fun _ => step.empties_iff_refused settings subject state
  · rintro earlier later rfl h
    rw [hempty] at h ⊢
    rw [List.any_append, h, Bool.true_or]

/-- Owners see their posts that are not archived. -/
def ownPosts : RuleSource where
  rulesFor _ _ := .ofDeclared
    [.allowWhen ⟨[("owner", .text "o'k")], by decide, by decide, by decide⟩,
      .denyWhen ⟨[("archived", .bool true)], by decide, by decide, by decide⟩]

/-- A post that is not archived. -/
def ownPost : Record :=
  Record.empty
    |>.set "owner" (.text "o'k")
    |>.set "archived" (.bool false)
    |>.set "pages" (.int 3)

/-- A query for one's own posts of three pages finds the post, while the hook
counts the fields it is asked about. -/
theorem Select.selects_as_tables_ownPost :
    let subject : Subject := ⟨"Post", by decide⟩
    let settings : Settings Nat :=
      { dialect := .mysql,
        access := { relationHook := some fun _ _ _ n => (false, n + 1) } }
    let steps := [Step.whereEq "pages" (.int 3), .accessible ownPosts "edit",
      .accessibleByDefault ownPosts]
    let start := ({ subject, table := "posts" } : Select Nat).withSettings settings
    let q := ((start.build steps).run 0).1
    ownPost.get? settings.sentinel = none ∧
      (q.whereText? = none ∨ ∃ f, q.Reading f ∧
        f.truth (truthOf ownPost) = some true) := by
  intro subject settings steps start q
  have hsentinel : ownPost.get? settings.sentinel = none := by
    simp [ownPost, settings, defaultSentinel]
  let t : Table Nat := { subject, records := [ownPost] }
  obtain ⟨-, -, hselects, -, -⟩ := selects_as_tables subject "posts" settings steps 0
  have hshown : ∀ action, ownPost ∈ ((t.accessible ownPosts action).run 0).1.value := by
    intro action
    have hgranted : ¬ Rule.GrantsNothing (ownPosts.rulesFor "" "").toList := by decide
    have hadmits : ownPost ∈ Table.shownBy [ownPost]
        (Rule.verdict (ownPosts.rulesFor "" "").toList Filter.empty) := by
      rw [Table.shownBy_verdict _ hgranted, List.mem_filter]
      exact ⟨by simp, by decide⟩
    rw [Table.accessible_value]
    exact hadmits
  refine ⟨hsentinel, (hselects Nat t 0 ownPost rfl (by simp [t]) hsentinel).mpr ?_⟩
  simp only [steps, List.forall_mem_cons]
  exact ⟨⟨.int 3, by simp [ownPost], by decide⟩, hshown _, hshown _, by simp⟩

end RowAccess.Sql
