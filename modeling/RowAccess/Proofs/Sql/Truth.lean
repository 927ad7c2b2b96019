/-
RowAccess.Proofs.Sql.Truth — what a where clause says about a row.

A database evaluates in three truth values. A comparison with a column that has
no value is neither true nor false, and so is its negation; a row is returned
only where the whole clause is true. Records in memory are evaluated in two
truth values, with a rule of its own for missing fields. The two agree on which
rows are returned, though not on why the others are not.

* `Formula.truth` — evaluation of a formula, given the truth of its atoms.
* `Record.truthOf` — the truth of an equality on a row.
* `Clause.truth_formula` — a conjunction of clauses is true of the rows that
  every clause admits.
-/
import RowAccess.Proofs.Sql.Structure

namespace RowAccess.Sql

/-! ## 1. Three truth values -/

/-- True, false or, as `none`, unknown. -/
abbrev Truth := Option Bool

namespace Truth

def not : Truth → Truth
  | some b => some (!b)
  | none => none

def and : Truth → Truth → Truth
  | some false, _ => some false
  | _, some false => some false
  | some true, some true => some true
  | _, _ => none

def or : Truth → Truth → Truth
  | some true, _ => some true
  | _, some true => some true
  | some false, some false => some false
  | _, _ => none

/-- The conjunction of a list. -/
def all (ts : List Truth) : Truth := ts.foldr and (some true)

/-- The disjunction of a list. -/
def any (ts : List Truth) : Truth := ts.foldr or (some false)

theorem not_eq_true : ∀ t : Truth, not t = some true ↔ t = some false
  | none | some true | some false => by decide

theorem and_eq_true (t u : Truth) :
    and t u = some true ↔ t = some true ∧ u = some true := by
  rcases t with _ | _ | _ <;> rcases u with _ | _ | _ <;> decide

theorem or_eq_true (t u : Truth) :
    or t u = some true ↔ t = some true ∨ u = some true := by
  rcases t with _ | _ | _ <;> rcases u with _ | _ | _ <;> decide

theorem all_eq_true (ts : List Truth) : all ts = some true ↔ ∀ t ∈ ts, t = some true := by
  induction ts with
  | nil => simp [all]
  | cons t ts ih =>
      rw [all] at ih
      rw [all, List.foldr_cons, and_eq_true, ih, List.forall_mem_cons]

theorem any_eq_true (ts : List Truth) : any ts = some true ↔ some true ∈ ts := by
  induction ts with
  | nil => simp [any]
  | cons t ts ih =>
      rw [any] at ih
      rw [any, List.foldr_cons, or_eq_true, ih, List.mem_cons, eq_comm]

end Truth

/-! ## 2. The truth of formulas -/

section

variable {α : Type} (atom : α → Truth)

/-- The truth of a factor, given the truth of its atoms. -/
def Factor.truth : Factor α → Truth :=
  fold atom Truth.not fun ds => Truth.any (ds.map Truth.all)

/-- The truth of a formula, given the truth of its atoms. -/
def Formula.truth (f : Formula α) : Truth :=
  Truth.any (List.map (fun c => Truth.all (c.map (Factor.truth atom))) f)

@[simp] theorem Factor.truth_equality (a : α) :
    (Factor.equality a).truth atom = atom a := rfl

@[simp] theorem Factor.truth_negated (f : Factor α) :
    f.negated.truth atom = Truth.not (f.truth atom) := rfl

@[simp] theorem Factor.truth_group (ds : Formula α) :
    (Factor.group ds).truth atom = ds.truth atom := by
  rw [truth, fold_group, List.map_map]
  rfl

/-- A formula is true when all factors of one of its conjunctions are. -/
theorem Formula.truth_eq_true (f : Formula α) :
    f.truth atom = some true ↔ ∃ c ∈ f, ∀ x ∈ c, x.truth atom = some true := by
  rw [truth, Truth.any_eq_true, List.mem_map]
  simp only [Truth.all_eq_true, List.forall_mem_map]

theorem Formula.truth_singleton_eq_true (c : List (Factor α)) :
    Formula.truth atom [c] = some true ↔ ∀ x ∈ c, x.truth atom = some true := by
  rw [truth_eq_true]
  simp

end

/-! ## 3. Clauses on a row -/

/-- The truth of an equality on a row: unknown, unless the row has the field. -/
def truthOf (r : Record) (p : String × Value) : Truth := (r.get? p.1).map (·.agrees p.2)

/-- Whether a row meets a clause, with missing fields as in memory. -/
def Clause.admits : Clause → Record → Bool
  | equals field value, r => (r.get? field).any (·.agrees value)
  | term requirement, r => requirement.admits r

theorem truthOf_eq_true (r : Record) (p : String × Value) :
    truthOf r p = some true ↔ (r.get? p.1).any (·.agrees p.2) = true := by
  cases h : r.get? p.1 <;> simp [truthOf, h]

theorem truthOf_eq_false (r : Record) (p : String × Value) :
    truthOf r p = some false ↔ (r.get? p.1).any (!·.agrees p.2) = true := by
  cases h : r.get? p.1 <;> simp [truthOf, h]

/-- An alternative is true of the rows on which its conditions hold. -/
theorem truth_alternativesOf (r : Record) (cs : List Conditions) :
    (alternativesOf cs).truth (truthOf r) = some true ↔ ∃ c ∈ cs, c.holds r = true := by
  have hgroup : ∀ c : Conditions,
      (Factor.group [c.pairs.map .equality]).truth (truthOf r) = some true ↔
        c.holds r = true := by
    intro c
    rw [Factor.truth_group, Formula.truth_singleton_eq_true, List.forall_mem_map,
        Conditions.holds, List.all_eq_true]
    simp only [Factor.truth_equality, truthOf_eq_true]
  rw [Formula.truth_eq_true]
  constructor
  · rintro ⟨_, hmem, htrue⟩
    obtain ⟨c, hc, rfl⟩ := List.mem_map.mp hmem
    exact ⟨c, hc, (hgroup c).mp (htrue _ (by simp))⟩
  · rintro ⟨c, hc, hholds⟩
    refine ⟨_, List.mem_map_of_mem hc, ?_⟩
    rw [List.forall_mem_singleton, hgroup]
    exact hholds

/-- The factors of a clause are true of the rows that the clause admits. -/
theorem Clause.truth_factors (r : Record) : ∀ c : Clause,
    (∀ x ∈ c.factors, x.truth (truthOf r) = some true) ↔ c.admits r = true
  | equals field value => by
      rw [factors, List.forall_mem_singleton, Factor.truth_equality,
          truthOf_eq_true, admits]
  | term (.noneOf c) => by
      rw [factors, List.forall_mem_map, admits, Term.admits, List.all_eq_true]
      simp only [Factor.truth_negated, Factor.truth_equality, Truth.not_eq_true,
        truthOf_eq_false]
  | term (.anyOf alternatives) => by
      rw [factors, List.forall_mem_singleton, Factor.truth_group, truth_alternativesOf,
          admits, Term.admits, List.any_eq_true]

/-- **A conjunction of clauses is true of the rows that all of them admit.** -/
theorem Clause.truth_formula (r : Record) (clauses : List Clause) :
    (formula clauses).truth (truthOf r) = some true ↔
      ∀ c ∈ clauses, c.admits r = true := by
  rw [formula, Formula.truth_singleton_eq_true, List.forall_mem_flatMap]
  exact forall₂_congr fun c _ => truth_factors r c

end RowAccess.Sql
