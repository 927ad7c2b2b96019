/-
RowAccess.Proofs.Sql.Structure — no name and no value changes the structure of
a where clause.

The text that is rendered for requirements is read back: it is cut into tokens,
the tokens are parsed by the grammar of formulas, and the one parse there is
turns out to be the conjunction that was asked for. This holds for names and
strings of any characters, such as quotes, parentheses or a whole condition of
their own.

* `Clause.factors` — the factors that a clause stands for. An exclusion is one
  negated equality for each field, and these are joined without parentheses to
  the clauses beside it. A demand is one group, in which each alternative is a
  group of its own.
* `Clause.formula_reads` — a list of clauses of any origin comes back.
* `Where.fragments_read` — the same for the requirements of a predicate.

A demand without alternatives would be written `()`, which is no formula. No
list of rules leads to it.
-/
import RowAccess.Proofs.Precedence
import RowAccess.Proofs.Sql.Lexing
import RowAccess.Sql.Clause

namespace RowAccess.Sql

/-! ## 1. Clauses as formulas -/

/-- The alternatives of a demand, each of them a group. -/
def alternativesOf (cs : List Conditions) : Formula (String × Value) :=
  cs.map fun c => [.group [c.pairs.map .equality]]

/-- What a clause adds to a conjunction. -/
def Clause.factors : Clause → List (Factor (String × Value))
  | equals field value => [.equality (field, value)]
  | term (.noneOf c) => c.pairs.map fun p => .negated (.equality p)
  | term (.anyOf alternatives) => [.group (alternativesOf alternatives)]

/-- The conjunction of clauses. -/
def Clause.formula (clauses : List Clause) : Formula (String × Value) :=
  [clauses.flatMap Clause.factors]

/-! ## 2. The text of clauses is the text of their formula -/

theorem intercalate_append_of_ne_nil {γ : Type} (sep : List γ) :
    ∀ {xs ys : List (List γ)}, xs ≠ [] → ys ≠ [] →
      sep.intercalate (xs ++ ys) = sep.intercalate xs ++ (sep ++ sep.intercalate ys)
  | [], _, hxs, _ => absurd rfl hxs
  | [x], ys, _, hys => by
      rw [List.singleton_append, List.intercalate_cons_of_ne_nil hys,
          List.intercalate_singleton, List.append_assoc]
  | x :: x' :: xs, ys, _, hys => by
      have ih := intercalate_append_of_ne_nil sep (List.cons_ne_nil x' xs) hys
      rw [List.cons_append] at ih
      rw [List.cons_append, List.cons_append, List.intercalate_cons_cons, ih,
          List.intercalate_cons_cons]
      simp only [List.append_assoc]

/-- Joining lists that are joined already is joining them all at once. -/
theorem intercalate_flatten {γ : Type} (sep : List γ) : ∀ xss : List (List (List γ)),
    (∀ xs ∈ xss, xs ≠ []) →
      sep.intercalate xss.flatten = sep.intercalate (xss.map sep.intercalate)
  | [], _ => rfl
  | [xs], _ => by simp
  | xs :: ys :: xss, h => by
      have ih := intercalate_flatten sep (ys :: xss) fun zs hzs =>
        h zs (List.mem_cons_of_mem _ hzs)
      have hys : ys ≠ [] := h ys (by simp)
      rw [List.map_cons, List.intercalate_cons_of_ne_nil (by simp), ← ih,
          List.flatten_cons,
          intercalate_append_of_ne_nil sep (h xs (by simp)) (by simp [hys]),
          List.append_assoc]

theorem equalities_eq (d : Dialect) (lead : List Char) (c : Conditions) :
    equalities d lead c =
      textMarks.conj.intercalate (c.pairs.map fun p => lead ++ d.equality p.1 p.2) := rfl

/-- The text of an alternative is that of a group. -/
theorem text_group (d : Dialect) (c : Conditions) :
    (Factor.group [c.pairs.map .equality]).text d =
      '(' :: equalities d [] c ++ [')'] := by
  rw [Factor.text, Factor.written_group, equalities_eq]
  simp [Formula.written, writtenConjunction, textMarks, Function.comp_def]

theorem text_alternativesOf (d : Dialect) (cs : List Conditions) :
    (alternativesOf cs).text d =
      textMarks.disj.intercalate (cs.map fun c => '(' :: equalities d [] c ++ [')']) := by
  simp only [Formula.text, Formula.written, alternativesOf, List.map_map,
    Function.comp_def, ← text_group]
  simp [writtenConjunction, Factor.text]

/-- The text of a clause is that of its factors. -/
theorem Clause.written_eq (d : Dialect) : ∀ c : Clause,
    c.written d = textMarks.conj.intercalate (c.factors.map (Factor.text d))
  | equals field value => by simp [written, factors, Factor.text]
  | term (.noneOf c) => by
      rw [written, equalities_eq, factors, List.map_map]
      rfl
  | term (.anyOf alternatives) => by
      have hgroup : (Factor.group (alternativesOf alternatives)).text d =
          '(' :: ((alternativesOf alternatives).text d ++ [')']) :=
        Factor.written_group ..
      rw [written, factors, List.map_singleton, List.intercalate_singleton, hgroup,
          text_alternativesOf]
      rfl

theorem Clause.factors_ne_nil : ∀ c : Clause, c.factors ≠ []
  | equals _ _ => by simp [factors]
  | term (.noneOf c) => by simp [factors, c.wellFormed.ne_nil]
  | term (.anyOf _) => by simp [factors]

/-- Clauses joined by `and` are written like the conjunction of all their
factors. -/
theorem Clause.text_formula (d : Dialect) (clauses : List Clause) :
    (formula clauses).text d = textMarks.conj.intercalate (clauses.map (written d)) := by
  have hflatten := intercalate_flatten textMarks.conj
    (clauses.map fun c => c.factors.map (Factor.text d)) (by simp [factors_ne_nil])
  rw [List.map_map, ← List.flatMap_def, ← List.map_flatMap] at hflatten
  rw [funext (written_eq d)]
  refine Eq.trans ?_ hflatten
  simp [formula, Formula.text, Formula.written, writtenConjunction]
  rfl

/-! ## 3. The formula of clauses is the parse of its text -/

theorem Factor.proper_map {α β : Type} (g : α → β) (f : Factor α) :
    (f.map g).Proper ↔ f.Proper := by
  induction f using Factor.induct with
  | equality a => simp
  | negated f ih => simpa using ih
  | group ds ih =>
      simp only [map_group, proper_group, Formula.Proper, Formula.map,
        List.forall_mem_map, ne_eq, List.map_eq_nil_iff]
      refine and_congr_right fun _ => forall₂_congr fun c hc =>
        and_congr_right fun _ => ?_
      exact forall₂_congr fun x hx => ih c hc x hx

theorem proper_alternativesOf {cs : List Conditions} (h : cs ≠ []) :
    (alternativesOf cs).Proper := by
  have hgroup : ∀ c : Conditions,
      (Factor.group [c.pairs.map Factor.equality]).Proper := by
    intro c
    rw [Factor.proper_group]
    refine ⟨by simp, ?_⟩
    rw [List.forall_mem_singleton]
    refine ⟨by simp [c.wellFormed.ne_nil], ?_⟩
    rw [List.forall_mem_map]
    exact fun p _ => Factor.proper_equality p
  refine ⟨by simp [alternativesOf, h], ?_⟩
  simp only [alternativesOf, List.forall_mem_map]
  exact fun c _ => ⟨by simp, by simp [hgroup]⟩

theorem Clause.proper_of_mem_factors : ∀ {c : Clause} {f : Factor (String × Value)},
    (∀ alternatives, c = .term (.anyOf alternatives) → alternatives ≠ []) →
      f ∈ c.factors → f.Proper
  | equals field value, f, _, hf => by
      obtain rfl := List.mem_singleton.mp hf
      exact Factor.proper_equality _
  | term (.noneOf c), f, _, hf => by
      obtain ⟨p, -, rfl⟩ := List.mem_map.mp hf
      exact Factor.proper_equality p
  | term (.anyOf alternatives), f, h, hf => by
      obtain rfl := List.mem_singleton.mp hf
      rw [Factor.proper_group]
      exact proper_alternativesOf (h alternatives rfl)

/-- **Clauses come back.** Their text can be cut into tokens, and these have a
parse, namely the conjunction of all factors of the clauses. -/
theorem Clause.formula_reads (d : Dialect) (clauses : List Clause)
    (h : ∀ alternatives, .term (.anyOf alternatives) ∈ clauses → alternatives ≠ []) :
    ∃ ts, lex d (" and ".toList.intercalate (clauses.map (written d))) = some ts ∧
      ((formula clauses).map d.decoded).Parses ts := by
  have hlex := Formula.lexesTo d (formula clauses) [] (by simp [Boundary])
  rw [List.append_nil, text_formula, lex_nil] at hlex
  refine ⟨_, by simpa [textMarks] using hlex, rfl, ?_⟩
  cases clauses with
  | nil => exact Or.inr rfl
  | cons c clauses =>
      refine Or.inl ⟨by simp [Formula.map, formula], ?_⟩
      simp only [formula, Formula.map, List.map_singleton, List.forall_mem_singleton,
        List.forall_mem_map, Factor.proper_map]
      refine ⟨by simp [factors_ne_nil], fun f hf => ?_⟩
      obtain ⟨c', hc', hf⟩ := List.mem_flatMap.mp hf
      exact proper_of_mem_factors (fun alternatives heq => h alternatives (heq ▸ hc')) hf

/-! ## 4. The requirements of a predicate -/

/-- A predicate of clauses keeps the requirements it is given as its terms. -/
theorem Where.addAll_eq (terms : List Term) (w : Where) :
    Restriction.addAll w terms = { w with terms := w.terms ++ terms } :=
  Restriction.addAll_kept (Where.mk w.dialect) (by rintro _ (_ | _) <;> rfl) terms w.terms

/-- The joined texts of clauses, character by character. -/
theorem toList_intercalate_text (d : Dialect) (clauses : List Clause) :
    (" and ".intercalate (clauses.map (Clause.text d))).toList =
      " and ".toList.intercalate (clauses.map (Clause.written d)) := by
  rw [String.toList_intercalate, List.map_map]
  simp [Function.comp_def, Clause.text]

/-- **No name and no value changes the structure of a where clause.** In each
dialect, the joined fragments of any sequence of requirements can be cut into
tokens, and these have exactly one parse: the conjunction of the requirements in
the order in which they were added. An exclusion appears as one negated equality
for each field, a demand as one group of its alternatives. Every name comes back
as it was, and every value as the literal it is written as, where a string comes
back as its content. -/
theorem Where.fragments_read (d : Dialect) (calls : List Term)
    (hcalls : ∀ alternatives, .anyOf alternatives ∈ calls → alternatives ≠ []) :
    (∀ v, (d.literalOf v).written = d.literal v) ∧
    (∀ s, d.literalOf (.text s) = .quoted s) ∧
    ∃ ts, lex d (" and ".intercalate
        (Restriction.addAll ({ dialect := d } : Where) calls).fragments).toList =
        some ts ∧
      ∀ f : Formula (String × Literal), f.Parses ts ↔
        f = (Clause.formula (calls.map .term)).map fun p => (p.1, d.literalOf p.2) := by
  obtain ⟨ts, hts, hparses⟩ :=
    Clause.formula_reads d (calls.map .term) (by simpa using hcalls)
  have htext : (" and ".intercalate
      (Restriction.addAll ({ dialect := d } : Where) calls).fragments).toList =
        " and ".toList.intercalate ((calls.map .term).map (Clause.written d)) := by
    rw [← toList_intercalate_text, Where.addAll_eq, Where.fragments, List.map_map]
    rfl
  refine ⟨d.written_literalOf, fun _ => rfl, ts, htext ▸ hts, fun f => ?_⟩
  exact ⟨fun hf => Formula.parses_unique hf hparses, fun hf => hf ▸ hparses⟩

/-- Requirements whose names and strings are made of marks and keywords. -/
def Where.hostileCalls : List Term :=
  [.noneOf ⟨[("a\" or (\x60", .text "' or 1 = 1 --"), ("not b", .text " and ''")],
    by decide, by decide, by decide⟩,
   .anyOf [⟨[("))", .float 1.5), ("'", .bool true)], by decide, by decide, by decide⟩,
     ⟨[("=", .int (-1))], by decide, by decide, by decide⟩]]

theorem Where.fragments_read_hostile :
    (∀ alternatives, .anyOf alternatives ∈ hostileCalls → alternatives ≠ []) ∧
    ∃ ts, lex .sqlite (" and ".intercalate
        (Restriction.addAll ({ dialect := .sqlite } : Where)
          hostileCalls).fragments).toList = some ts ∧
      ∀ f : Formula (String × Literal), f.Parses ts ↔
        f = [[.negated (.equality ("a\" or (\x60", .quoted "' or 1 = 1 --")),
          .negated (.equality ("not b", .quoted " and ''")),
          .group [[.group [[.equality ("))", Dialect.sqlite.literalOf (.float 1.5)),
              .equality ("'", .word "1")]]],
            [.group [[.equality ("=", .word "-1")]]]]]] := by
  have hcalls : ∀ alternatives, .anyOf alternatives ∈ hostileCalls →
      alternatives ≠ [] := by
    intro alternatives h
    simp [hostileCalls] at h
    simp [h]
  obtain ⟨-, -, hread⟩ := fragments_read .sqlite hostileCalls hcalls
  exact ⟨hcalls, hread⟩

end RowAccess.Sql
