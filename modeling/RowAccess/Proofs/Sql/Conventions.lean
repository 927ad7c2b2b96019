/-
RowAccess.Proofs.Sql.Conventions — the dialect a query is written in.

The table is written in the dialect that is set last, but every clause keeps the
dialect that was set when it was added. A query whose settings are replaced
between its steps may therefore mix the conventions of two databases. What it
contains is known without running it (`Select.edited_value`), and its text is
compared with the text that it has in a single dialect: the two are the same
exactly when no equality of a clause shows the difference
(`Select.text_in_one_dialect`).

That texts differ as soon as one part of them does is no matter of course, as a
longer part could make up for a shorter one. `SameIf P s t` says that this is
not so for `s` and `t`, whatever follows them: it holds of names and literals,
and goes on to whatever is put together from parts.
-/
import RowAccess.Proofs.Sql.Selection

namespace RowAccess.Sql

/-! ## 1. Runs with changes of the settings -/

/-- A step of a query, or a change of its settings. -/
inductive Edit (σ : Type) where
  | configure (settings : Settings σ)
  | extend (step : Step)

variable {σ : Type}

/-- Applies a step or a change of settings to a query. -/
def Edit.apply (q : Select σ) : Edit σ → StateM σ (Select σ)
  | configure settings => pure (q.withSettings settings)
  | extend step => step.apply q

/-- The settings in force behind edits. -/
def settingsAfter (settings : Settings σ) : List (Edit σ) → Settings σ
  | [] => settings
  | .configure changed :: edits => settingsAfter changed edits
  | .extend _ :: edits => settingsAfter settings edits

/-- The clauses that edits add, each with the dialect in force at its step. -/
def placedClauses (settings : Settings σ) (subject : String) : List (Edit σ) → List Placed
  | [] => []
  | .configure changed :: edits => placedClauses changed subject edits
  | .extend step :: edits =>
    (step.clauses settings.sentinel subject).map (⟨settings.dialect, ·⟩) ++
      placedClauses settings subject edits

/-- Whether an edit leaves a query without rows. -/
def Edit.empties (subject : String) : Edit σ → Bool
  | configure _ => false
  | extend step => step.empties subject

namespace Select

/-- Applies edits to a query, one after the other. -/
def edited (q : Select σ) (edits : List (Edit σ)) : StateM σ (Select σ) :=
  edits.foldlM Edit.apply q

theorem edited_cons (q : Select σ) (edit : Edit σ) (edits : List (Edit σ)) (s : σ) :
    (q.edited (edit :: edits)).run s =
      (((edit.apply q).run s).1.edited edits).run ((edit.apply q).run s).2 := by
  rw [edited, List.foldlM_cons, StateT.run_bind]
  rfl

/-- **What a run with changes of the settings does to a query.** Each step adds
its clauses under the settings in force, and later changes leave them alone. -/
theorem edited_value : ∀ (edits : List (Edit σ)) (q : Select σ) (s : σ),
    ((q.edited edits).run s).1 =
      { q with
        settings := settingsAfter q.settings edits
        clauses := q.clauses ++ placedClauses q.settings q.subject.name edits
        resolvesEmpty := edits.any (Edit.empties q.subject.name) || q.resolvesEmpty }
  | [], q, _ => by
      have hnil : ∀ s : σ, ((q.edited []).run s).1 = q := fun _ => rfl
      simp [hnil, settingsAfter, placedClauses]
  | .configure settings :: edits, q, s => by
      rw [edited_cons]
      exact edited_value edits (q.withSettings settings) s
  | .extend step :: edits, q, s => by
      have happly : (((Edit.extend step).apply q).run s).1 =
          q.extended (step.clauses q.settings.sentinel q.subject.name)
            (step.empties q.subject.name) := apply_value q s step
      rw [edited_cons, edited_value edits, happly]
      simp [extended, add, settingsAfter, placedClauses, Edit.empties, Bool.or_left_comm,
        Bool.or_assoc]

end Select

theorem settingsAfter_steps (settings : Settings σ) : ∀ steps : List Step,
    settingsAfter settings (steps.map .extend) = settings
  | [] => rfl
  | _ :: steps => settingsAfter_steps settings steps

theorem settingsAfter_append (settings : Settings σ) : ∀ edits later : List (Edit σ),
    settingsAfter settings (edits ++ later) =
      settingsAfter (settingsAfter settings edits) later
  | [], _ => rfl
  | .configure changed :: edits, later => settingsAfter_append changed edits later
  | .extend _ :: edits, later => settingsAfter_append settings edits later

theorem placedClauses_steps (settings : Settings σ) (subject : String) :
    ∀ steps : List Step, placedClauses settings subject (steps.map .extend) =
      (steps.flatMap (Step.clauses settings.sentinel subject)).map (⟨settings.dialect, ·⟩)
  | [] => rfl
  | step :: steps => by
      rw [List.map_cons, placedClauses, placedClauses_steps settings subject steps,
          List.flatMap_cons, List.map_append]

theorem placedClauses_append (settings : Settings σ) (subject : String) :
    ∀ edits later : List (Edit σ),
      placedClauses settings subject (edits ++ later) =
        placedClauses settings subject edits ++
          placedClauses (settingsAfter settings edits) subject later
  | [], _ => rfl
  | .configure changed :: edits, later => placedClauses_append changed subject edits later
  | .extend step :: edits, later => by
      rw [List.cons_append, placedClauses, placedClauses,
          placedClauses_append settings subject edits later, List.append_assoc,
          settingsAfter]

/-! ## 2. Texts that differ show it at once -/

/-- `s` and `t` are the same if `P` holds, and otherwise not even the beginnings
of one text. -/
def SameIf (P : Prop) (s t : List Char) : Prop := ∀ u v, s ++ u = t ++ v ↔ P ∧ u = v

namespace SameIf

variable {P Q : Prop} {s t s' t' : List Char}

theorem eq_iff (h : SameIf P s t) : s = t ↔ P := by simpa using h [] []

theorem congr (h : SameIf P s t) (hPQ : P ↔ Q) :
    SameIf Q s t := fun u v => by rw [h u v, hPQ]

theorem refl (s : List Char) : SameIf True s s := fun u v => by simp

/-- Texts that begin with different characters. -/
theorem of_head_ne {c c' : Char} (h : c ≠ c') : SameIf False (c :: s) (c' :: t) :=
  fun u v => by simp [h]

theorem append (h : SameIf P s t) (h' : SameIf Q s' t') :
    SameIf (P ∧ Q) (s ++ s') (t ++ t') :=
  fun u v => by rw [List.append_assoc, List.append_assoc, h, h', and_assoc]

/-- Texts between the same words. -/
theorem between (h : SameIf P s t) (before after : List Char) :
    SameIf P (before ++ s ++ after) (before ++ t ++ after) :=
  (((refl before).append h).append (refl after)).congr (by simp)

/-- Joined texts are the same if all of their parts are. -/
theorem intercalate {ι : Type} {R : ι → Prop} {f g : ι → List Char} (sep : List Char) :
    ∀ {xs : List ι}, (∀ x ∈ xs, SameIf (R x) (f x) (g x)) →
      SameIf (∀ x ∈ xs, R x) (sep.intercalate (xs.map f)) (sep.intercalate (xs.map g))
  | [], _ => (refl []).congr (by simp)
  | [x], h => by simpa using h x (by simp)
  | x :: y :: xs, h => by
      have hrest : SameIf (∀ z ∈ y :: xs, R z) (sep.intercalate ((y :: xs).map f))
          (sep.intercalate ((y :: xs).map g)) :=
        intercalate sep fun z hz => h z (List.mem_cons_of_mem _ hz)
      rw [List.map_cons, List.map_cons, List.map_cons, List.map_cons,
          List.intercalate_cons_cons, List.intercalate_cons_cons]
      exact (((h x (by simp)).append (refl sep)).append hrest).congr (by simp)

end SameIf

/-! ## 3. Where dialects differ -/

namespace Dialect

/-- Two dialects put the same marks around names and write a value in the same
way. -/
def WritesAlike (d d' : Dialect) (v : Value) : Prop :=
  d.identifierMark = d'.identifierMark ∧ d.literal v = d'.literal v

theorem writesAlike_refl (d : Dialect) (v : Value) : d.WritesAlike d v := ⟨rfl, rfl⟩

/-- The first dialect stands alone, as no other has its mark. -/
theorem writesAlike_postgres (d : Dialect) (v : Value) :
    Dialect.postgres.WritesAlike d v ↔ d = .postgres := by
  cases d <;> simp [WritesAlike, identifierMark]

theorem sameIf_identifier (d d' : Dialect) (name : String) :
    SameIf (d.identifierMark = d'.identifierMark) (d.identifier name)
      (d'.identifier name) := by
  by_cases h : d.identifierMark = d'.identifierMark
  · rw [identifier, identifier, ← h]
    exact (SameIf.refl _).congr (by simp)
  · exact (SameIf.of_head_ne h).congr (by simp [h])

theorem sameIf_boolean (d d' : Dialect) (b : Bool) :
    SameIf (d.boolean b = d'.boolean b) (d.boolean b) (d'.boolean b) := by
  by_cases h : d.boolean b = d'.boolean b
  · rw [← h]
    exact (SameIf.refl _).congr (by simp)
  · refine SameIf.congr ?_ (iff_of_false id h)
    -- A digit stands against a letter.
    cases d <;> cases d' <;> cases b <;>
      first
        | exact absurd rfl h
        | exact SameIf.of_head_ne (by decide)

theorem sameIf_literal (d d' : Dialect) : ∀ v : Value,
    SameIf (d.literal v = d'.literal v) (d.literal v) (d'.literal v)
  | .bool b => sameIf_boolean d d' b
  | .int _ | .float _ | .text _ => (SameIf.refl _).congr (by simp [literal])

theorem sameIf_equality (d d' : Dialect) (name : String) (v : Value) :
    SameIf (d.WritesAlike d' v) (d.equality name v) (d'.equality name v) :=
  (((d.sameIf_identifier d' name).append (.refl " = ".toList)).append
    (d.sameIf_literal d' v)).congr (by simp [WritesAlike])

end Dialect

theorem sameIf_equalities (d d' : Dialect) (lead : List Char) (c : Conditions) :
    SameIf (∀ p ∈ c.pairs, d.WritesAlike d' p.2) (equalities d lead c)
      (equalities d' lead c) :=
  SameIf.intercalate _ fun p _ =>
    ((SameIf.refl lead).append (d.sameIf_equality d' p.1 p.2)).congr (by simp)

theorem Clause.sameIf_written (d d' : Dialect) : ∀ c : Clause,
    SameIf (∀ p ∈ c.pairs, d.WritesAlike d' p.2) (c.written d) (c.written d')
  | equals field value => (d.sameIf_equality d' field value).congr (by simp [pairs])
  | term (.noneOf c) => sameIf_equalities d d' _ c
  | term (.anyOf alternatives) => by
      have hgroups := SameIf.intercalate " or ".toList fun c (_ : c ∈ alternatives) =>
        (sameIf_equalities d d' [] c).between ['('] [')']
      exact (hgroups.between ['('] [')']).congr List.forall_mem_flatMap.symm

theorem Clause.pairs_ne_nil : ∀ {c : Clause},
    (∀ alternatives, c = .term (.anyOf alternatives) → alternatives ≠ []) → c.pairs ≠ []
  | equals _ _, _ => by simp [pairs]
  | term (.noneOf c), _ => c.wellFormed.ne_nil
  | term (.anyOf alternatives), h => by
      obtain ⟨c, rest, rfl⟩ := List.exists_cons_of_ne_nil (h alternatives rfl)
      simp [pairs, c.wellFormed.ne_nil]

/-! ## 4. Queries -/

namespace Select

/-- The query with the conventions of one dialect throughout. -/
def inDialect (q : Select σ) (d : Dialect) : Select σ :=
  { q with
    settings := { q.settings with dialect := d }
    clauses := q.clauses.map (⟨d, ·.clause⟩) }

/-- Queries for the same table that both have clauses, or both have none, differ
in these alone. -/
theorem text_inj_iff {q q' : Select σ} (htable : q.table = q'.table)
    (hdialect : q.settings.dialect = q'.settings.dialect)
    (hclauses : q.clauses = [] ↔ q'.clauses = []) :
    q.text = q'.text ↔
      " and ".toList.intercalate (q.clauses.map fun p => p.clause.written p.dialect) =
        " and ".toList.intercalate
          (q'.clauses.map fun p => p.clause.written p.dialect) := by
  have hjoined : ∀ placed : List Placed,
      " and ".toList.intercalate (placed.map fun p => p.clause.written p.dialect) =
        (" and ".intercalate (placed.map (·.text))).toList := by
    intro placed
    rw [String.toList_intercalate, List.map_map]
    simp [Function.comp_def, Placed.text, Clause.text]
  rw [hjoined, hjoined, String.toList_inj, text, text, htable, hdialect]
  by_cases h : q.clauses = []
  · simp [h, hclauses.mp h]
  · simp [h, mt hclauses.mpr h, String.append_right_inj]

/-- **A query is written in one dialect unless one of its equalities shows
another.** -/
theorem text_eq_inDialect_iff (q : Select σ) :
    q.text = (q.inDialect q.settings.dialect).text ↔
      ∀ p ∈ q.clauses, ∀ pair ∈ p.clause.pairs,
        p.dialect.WritesAlike q.settings.dialect pair.2 := by
  have hwhere := SameIf.intercalate " and ".toList fun p (_ : p ∈ q.clauses) =>
    p.clause.sameIf_written p.dialect q.settings.dialect
  have htext : q.text = (q.inDialect q.settings.dialect).text ↔ _ :=
    text_inj_iff rfl rfl (by simp [inDialect])
  rw [← hwhere.eq_iff, htext, inDialect, List.map_map]
  rfl

end Select

/-- Of what steps add, another dialect writes nothing like the first one. -/
theorem Step.writesAlike_postgres_iff (sentinel subject : String) (d : Dialect)
    (steps : List Step) :
    (∀ c ∈ steps.flatMap (Step.clauses sentinel subject), ∀ p ∈ c.pairs,
        Dialect.postgres.WritesAlike d p.2) ↔
      d = .postgres ∨ ∀ step ∈ steps, step.clauses sentinel subject = [] := by
  simp only [Dialect.writesAlike_postgres]
  constructor
  · intro h
    by_cases hd : d = .postgres
    · exact Or.inl hd
    refine Or.inr fun step hstep => List.eq_nil_iff_forall_not_mem.mpr fun c hc => hd ?_
    have hne : c.pairs ≠ [] := Clause.pairs_ne_nil fun alternatives hdemand =>
      Step.ne_nil_of_demand (hdemand ▸ hc)
    obtain ⟨p, ps, hpairs⟩ := List.exists_cons_of_ne_nil hne
    exact h c (List.mem_flatMap_of_mem hstep hc) p (by simp [hpairs])
  · rintro (hd | hnone) c hc p hp
    · exact hd
    · obtain ⟨step, hstep, hmem⟩ := List.mem_flatMap.mp hc
      simp [hnone step hstep] at hmem

namespace Select

/-- The query of steps among which the dialect is set once, the settings being
otherwise those of a new query. -/
theorem edited_between (q : Select σ) (hsettings : q.settings = {})
    (hclauses : q.clauses = []) (d : Dialect) (before after : List Step) (s : σ) :
    let clauses := List.flatMap (Step.clauses defaultSentinel q.subject.name)
    ((q.edited (before.map .extend ++
        .configure { dialect := d } :: after.map .extend)).run s).1 =
      { q with
        settings := { dialect := d }
        clauses := (clauses before).map (⟨.postgres, ·⟩) ++ (clauses after).map (⟨d, ·⟩)
        resolvesEmpty :=
          (before ++ after).any (Step.empties q.subject.name) || q.resolvesEmpty } := by
  rw [edited_value, hsettings, hclauses, settingsAfter_append, placedClauses_append,
      placedClauses_steps, settingsAfter, settingsAfter_steps, placedClauses,
      placedClauses_steps]
  simp [Edit.empties, Function.comp_def]

/-- **Settings have to come first.** After any run of steps and changes of
settings, the table is written in the dialect now in force and every clause in
the dialect that was in force at its step; the query is in one dialect exactly
when each of these writes the equalities of its clause like the present one. So
a change of the dialect can be moved in front of the steps before it, without
effect on the text, only if it changes nothing or these steps have no clause. -/
theorem text_in_one_dialect (subject : Subject) (table : String) :
    let start : Select σ := { subject, table }
    (∀ (edits : List (Edit σ)) (s : σ),
      let q := ((start.edited edits).run s).1
      q.settings = settingsAfter {} edits ∧
      q.clauses = placedClauses {} subject.name edits ∧
      (q.text = (q.inDialect q.settings.dialect).text ↔
        ∀ p ∈ q.clauses, ∀ pair ∈ p.clause.pairs,
          p.dialect.WritesAlike q.settings.dialect pair.2)) ∧
    ∀ (d : Dialect) (before after : List Step) (s : σ),
      let change : Edit σ := .configure { dialect := d }
      ((start.edited (before.map .extend ++ change :: after.map .extend)).run s).1.text =
          ((start.edited (change :: (before ++ after).map .extend)).run s).1.text ↔
        d = .postgres ∨
          ∀ step ∈ before, step.clauses defaultSentinel subject.name = [] := by
  intro start
  refine ⟨fun edits s => ?_, fun d before after s => ?_⟩
  · rw [edited_value]
    exact ⟨rfl, rfl, text_eq_inDialect_iff _⟩
  · intro change
    have hlate := edited_between start rfl rfl d before after s
    have hearly := edited_between start rfl rfl d [] (before ++ after) s
    generalize
      ((start.edited (before.map .extend ++ change :: after.map .extend)).run s).1 = late
      at hlate ⊢
    have hmoved : ((start.edited (change :: (before ++ after).map .extend)).run s).1 =
        late.inDialect d := by
      rw [hlate]
      refine hearly.trans ?_
      simp [inDialect, Function.comp_def]
    have hdialect : late.settings.dialect = d := by rw [hlate]
    have hclauses := congrArg Select.clauses hlate
    have htext := text_eq_inDialect_iff late
    rw [hdialect, ← hmoved] at htext
    rw [htext, ← Step.writesAlike_postgres_iff, hclauses, List.forall_mem_append,
        List.forall_mem_map, List.forall_mem_map]
    exact and_iff_left fun c _ p _ => Dialect.writesAlike_refl d p.2

/-- A dialect set behind a requirement leaves a text in two dialects, which is
neither that of one dialect nor that of the same steps in the other order. -/
theorem text_mixes_dialects :
    let start : Select Unit := { subject := ⟨"Post", by decide⟩, table := "posts" }
    let requirement : Edit Unit := .extend (.whereEq "a" (.int 1))
    let change : Edit Unit := .configure { dialect := .mysql }
    let q := ((start.edited [requirement, change]).run ()).1
    let moved := ((start.edited [change, requirement]).run ()).1
    q.text = "select \x60posts\x60.* from \x60posts\x60 where \"a\" = 1" ∧
    moved.text = "select \x60posts\x60.* from \x60posts\x60 where \x60a\x60 = 1" ∧
    q.text ≠ (q.inDialect q.settings.dialect).text ∧ q.text ≠ moved.text := by
  decide

end Select

end RowAccess.Sql
