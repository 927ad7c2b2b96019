/-
RowAccess.Proofs.Provenance — where conditions come from, and what is made of them.

Conditions are built from pairs, from the text of a policy, or from JSON. On each of
these routes a grammar says which pairs the input is written with, without regard to
whether these are well formed. `TakenAsWritten` is the property that all routes share:
pairs are taken in the order written and nothing is merged, and pairs without a field,
with an empty name or with a name that occurs twice are refused.

All routes have it for one reason. What was built can be read back as what was written
(`content`), and a check in front of it succeeds just there: this is
`TakenAsWritten.of_check`.

So no part of a requirement is empty, and neither is a fragment of a where clause.

* `TakenAsWritten` — well-formed pairs are accepted as they are written, others refused.
* `Compiled` — the predicates that rules lead to.
* `taken_as_written_everywhere` — the routes, and the predicates behind them.
-/
import RowAccess.Proofs.Json.Reading
import RowAccess.Proofs.PolicyText.Loading
import RowAccess.Proofs.Sql.Structure

namespace RowAccess

/-! ## 1. Conditions are taken as written -/

/-- The reader `read` takes conditions as they are written. `writes d i` says that the
input `i` is a way of writing `d`, and `pairsOf` lists the pairs in it, one list for each
set of conditions. What is built says again what was written (`content`). -/
structure TakenAsWritten {ι δ α ε : Type} (read : ι → Except ε α) (writes : δ → ι → Prop)
    (pairsOf : δ → List (List (String × Value))) (content : α → δ)
    (illFormed : Conditions.Fault → ε) : Prop where
  /-- What is accepted was written with well-formed pairs, and is just that. -/
  accepted (i : ι) (a : α) : read i = .ok a →
    ∃ d, writes d i ∧ (∀ pairs ∈ pairsOf d, Conditions.WellFormed pairs) ∧ content a = d
  /-- What is written with well-formed pairs is accepted. -/
  complete (i : ι) (d : δ) : writes d i →
    (∀ pairs ∈ pairsOf d, Conditions.WellFormed pairs) →
    ∃ a, read i = .ok a ∧ content a = d
  /-- What is written with other pairs is refused on their account. -/
  refused (i : ι) (d : δ) : writes d i →
    (∃ pairs ∈ pairsOf d, ¬Conditions.WellFormed pairs) →
    ∃ fault, read i = .error (illFormed fault)

/-- It is enough that the reader accepts only what is written, and that it decides by a
check that succeeds just where something well formed says what was written. -/
theorem TakenAsWritten.of_check {ι δ α ε : Type} {read : ι → Except ε α}
    {writes : δ → ι → Prop} {pairsOf : δ → List (List (String × Value))} {content : α → δ}
    {illFormed : Conditions.Fault → ε} {check : δ → Except Conditions.Fault α}
    (hwritten : ∀ i a, read i = .ok a → writes (content a) i)
    (hcheck : ∀ i d, writes d i → read i = (check d).mapError illFormed)
    (hcontent : ∀ d a, check d = .ok a ↔ d = content a)
    (hpairs : ∀ d, (∀ pairs ∈ pairsOf d, Conditions.WellFormed pairs) ↔
      ∃ a, content a = d) :
    TakenAsWritten read writes pairsOf content illFormed where
  accepted i a h := ⟨content a, hwritten i a h, (hpairs _).mpr ⟨a, rfl⟩, rfl⟩
  complete i d hd h := by
    obtain ⟨a, rfl⟩ := (hpairs d).mp h
    rw [hcheck i _ hd, (hcontent _ a).mpr rfl]
    exact ⟨a, rfl, rfl⟩
  refused i d hd h := by
    obtain ⟨pairs, hmem, hill⟩ := h
    rw [hcheck i d hd]
    cases hresult : check d with
    | error fault => exact ⟨fault, rfl⟩
    | ok a =>
        have hwell := (hpairs d).mpr ⟨a, ((hcontent d a).mp hresult).symm⟩
        exact absurd (hwell pairs hmem) hill

/-! ## 2. Pairs are well formed just if conditions are built from them -/

theorem Conditions.wellFormed_iff {pairs : List (String × Value)} :
    WellFormed pairs ↔ ∃ c : Conditions, c.pairs = pairs :=
  ⟨fun h => ⟨⟨pairs, h⟩, rfl⟩, fun ⟨c, hc⟩ => hc ▸ c.wellFormed⟩

/-- The same for the pairs of a rule, which may have none. -/
theorem Conditions.wellFormed_option_iff {written : Option (List (String × Value))} :
    (∀ pairs ∈ written, WellFormed pairs) ↔
      ∃ c : Option Conditions, c.map (·.pairs) = written := by
  cases written with
  | none => exact ⟨fun _ => ⟨none, rfl⟩, fun _ => nofun⟩
  | some pairs =>
      simp only [Option.mem_def, Option.some.injEq, forall_eq', Option.map_eq_some_iff]
      rw [wellFormed_iff]
      constructor
      · rintro ⟨c, hc⟩
        exact ⟨some c, c, rfl, hc⟩
      · rintro ⟨-, c, -, hc⟩
        exact ⟨c, hc⟩

theorem Rule.wellFormed_draft_iff {d : Json.Draft} :
    (∀ pairs ∈ d.pairs, Conditions.WellFormed pairs) ↔ ∃ r : Rule, r.draft = d := by
  rw [Conditions.wellFormed_option_iff]
  constructor
  · rintro ⟨c, hc⟩
    exact ⟨⟨d.effect, c⟩, by rw [draft, hc]⟩
  · rintro ⟨r, rfl⟩
    exact ⟨r.conditions, rfl⟩

theorem Grant.wellFormed_statement_iff {st : PolicyText.Statement} :
    (∀ pairs ∈ st.pairs, Conditions.WellFormed pairs) ↔
      ∃ g : Grant, g.statement = st := by
  rw [Conditions.wellFormed_option_iff]
  constructor
  · rintro ⟨c, hc⟩
    exact ⟨⟨st.action, st.subject, ⟨st.effect, c⟩⟩, by rw [statement, hc]⟩
  · rintro ⟨g, rfl⟩
    exact ⟨g.rule.conditions, rfl⟩

/-- The same for lists of what is written. -/
theorem Conditions.wellFormed_list_iff {δ α : Type}
    {pairs : δ → Option (List (String × Value))} {content : α → δ}
    (h : ∀ d, (∀ written ∈ pairs d, WellFormed written) ↔ ∃ a, content a = d)
    (ds : List δ) :
    (∀ written ∈ ds.filterMap pairs, WellFormed written) ↔
      ∃ as : List α, as.map content = ds := by
  have hrange := Set.ext_iff.mp (Set.range_list_map content) ds
  simp only [Set.mem_range, Set.mem_ofPred_eq, ← h] at hrange
  rw [hrange]
  simp only [List.mem_filterMap, Option.mem_def]
  exact ⟨fun hall d hd w hw => hall w ⟨d, hd, hw⟩,
    fun hall w ⟨d, hd, hw⟩ => hall d hd w hw⟩

/-! ## 3. The routes -/

section Routes

open Json (decode readConditions readRule readRules tokens)

theorem wellFormed_singleton_iff {pairs : List (String × Value)} :
    (∀ written ∈ [pairs], Conditions.WellFormed written) ↔
      ∃ c : Conditions, c.pairs = pairs := by
  rw [List.forall_mem_singleton, Conditions.wellFormed_iff]

theorem ofPairs_takenAsWritten :
    TakenAsWritten Conditions.ofPairs
      (fun pairs given => given = pairs) ([·]) Conditions.pairs id :=
  .of_check (fun _ _ h => (Conditions.ofPairs_eq_ok_iff.mp h).symm)
    (fun pairs _ h => by rw [← h]; cases Conditions.ofPairs pairs <;> rfl)
    (fun _ _ => Conditions.ofPairs_eq_ok_iff.trans eq_comm)
    fun _ => wellFormed_singleton_iff

theorem single_takenAsWritten :
    TakenAsWritten (fun pair : String × Value => Conditions.single pair.1 pair.2)
      (fun pairs pair => [pair] = pairs) ([·]) Conditions.pairs id :=
  .of_check (fun _ _ h => (Conditions.ofPairs_eq_ok_iff.mp h).symm)
    (fun pair _ h => by
      rw [← h, Conditions.single]
      cases Conditions.ofPairs [pair] <;> rfl)
    (fun _ _ => Conditions.ofPairs_eq_ok_iff.trans eq_comm)
    fun _ => wellFormed_singleton_iff

theorem ofText_takenAsWritten :
    TakenAsWritten Policy.ofText PolicyText.WritesPolicy (List.filterMap (·.pairs))
      (fun p => p.grants.map Grant.statement) .illFormed :=
  .of_check
    (fun text p h => by
      obtain ⟨s, hread, hend⟩ :=
        PolicyText.parse_eq_ok_iff.mp (Policy.ofText_eq_ok_iff.mp h)
      exact PolicyText.writes_of_readStatements hread hend false (by simp))
    (fun text statements h => by
      have hparse :=
        PolicyText.parse_eq_ok_iff.mpr (PolicyText.readStatements_of_writes h)
      rw [Policy.ofText, hparse])
    (fun _ _ => Policy.ofStatements_eq_ok_iff)
    fun statements => by
      rw [Conditions.wellFormed_list_iff fun _ => Grant.wellFormed_statement_iff]
      exact ⟨fun ⟨grants, h⟩ => ⟨⟨grants⟩, h⟩, fun ⟨p, h⟩ => ⟨p.grants, h⟩⟩

theorem decode_conditions_takenAsWritten :
    TakenAsWritten (decode readConditions)
      (fun pairs text => Json.WritesConditions pairs (tokens text.toList)) ([·])
      Conditions.pairs .illFormed :=
  .of_check (fun _ _ => Json.decode_conditions_eq_ok_iff.mp)
    (fun _ _ => Json.decode_of_writesConditions)
    (fun _ _ => Conditions.ofPairs_eq_ok_iff.trans eq_comm)
    fun _ => wellFormed_singleton_iff

theorem decode_rule_takenAsWritten :
    TakenAsWritten (decode readRule)
      (fun d text => Json.WritesRule d (tokens text.toList))
      (·.pairs.toList) Rule.draft .illFormed :=
  .of_check (fun _ _ => Json.decode_rule_eq_ok_iff.mp)
    (fun _ _ => Json.decode_of_writesRule)
    (fun _ _ => Json.Draft.rule_eq_ok_iff)
    fun d => by simpa using Rule.wellFormed_draft_iff (d := d)

theorem decode_rules_takenAsWritten :
    TakenAsWritten (decode readRules)
      (fun ds text => Json.WritesRules ds (tokens text.toList))
      (List.filterMap (·.pairs)) (·.toList.map Rule.draft) .illFormed :=
  .of_check (fun _ _ => Json.decode_rules_eq_ok_iff.mp)
    (fun _ _ => Json.decode_of_writesRules)
    (fun _ _ => Json.checkRules_eq_ok_iff)
    fun ds => by
      rw [Conditions.wellFormed_list_iff fun _ => Rule.wellFormed_draft_iff]
      exact ⟨fun ⟨rules, h⟩ => ⟨⟨rules⟩, h⟩, fun ⟨rules, h⟩ => ⟨rules.toList, h⟩⟩

end Routes

/-! ## 4. The predicates of rules -/

/-- `Compiled start predicate`: rules lead from the predicate `start` to `predicate`. They
are given as a list, or looked up in a source, with a hook or without. -/
inductive Compiled {β : Type} [Restriction β] (start : β) : β → Prop
  | rules (rules : RuleList) : Compiled start (rules.ruling start).predicate
  | source {σ : Type} (source : RuleSource) (options : Options σ)
      (action subject : String) (s : σ) :
      Compiled start ((source.ruling options action subject start).run s).1.predicate

/-- No part of a requirement is empty. -/
def Term.NonEmpty : Term → Prop
  | .noneOf c => c.pairs ≠ []
  | .anyOf alternatives => alternatives ≠ [] ∧ ∀ c ∈ alternatives, c.pairs ≠ []

theorem Rule.nonEmpty_of_mem_requirements {rules : List Rule} : ∀ {t : Term},
    t ∈ requirements [] rules → t.NonEmpty
  | .noneOf c, _ => c.wellFormed.ne_nil
  | .anyOf _, h => ⟨ne_nil_of_demand h, fun c _ => c.wellFormed.ne_nil⟩

/-- What rules add to a predicate is a sequence of requirements with no empty part. -/
theorem Compiled.exists_terms {β : Type} [Restriction β] {start predicate : β}
    (h : Compiled start predicate) :
    ∃ terms, predicate = Restriction.addAll start terms ∧ ∀ t ∈ terms, t.NonEmpty := by
  cases h with
  | rules rules =>
      exact ⟨_, rules.ruling_predicate start, fun _ => Rule.nonEmpty_of_mem_requirements⟩
  | source source options action subject s =>
      exact ⟨_, source.ruling_predicate options action subject start s,
        fun _ => Rule.nonEmpty_of_mem_requirements⟩

namespace Sql

/-- A text that can be cut into tokens and parsed as a formula with no empty part. -/
def IsClause (d : Dialect) (text : String) : Prop :=
  text ≠ "" ∧ ∃ ts, lex d text.toList = some ts ∧
    ∃ f : Formula (String × Literal), f.Parses ts ∧ f.Proper

/-- **A requirement with no empty part is written as a clause.** -/
theorem Clause.isClause_text (d : Dialect) {t : Term} (h : t.NonEmpty) :
    IsClause d ((Clause.term t).text d) := by
  obtain ⟨ts, hlex, hparses⟩ := formula_reads d [.term t] (by
    rintro alternatives hmem
    obtain rfl : Term.anyOf alternatives = t := by simpa using hmem
    exact h.1)
  have htext : ((Clause.term t).text d).toList =
      " and ".toList.intercalate ([Clause.term t].map (written d)) := by
    simp [Clause.text]
  have hproper : ((formula [.term t]).map d.decoded).Proper := by
    -- The other parse would be that of a clause without factors.
    refine hparses.2.resolve_right ?_
    simp [formula, Formula.map, factors_ne_nil]
  rw [← htext] at hlex
  refine ⟨fun hempty => ?_, ts, hlex, _, hparses, hproper⟩
  rw [hempty, String.toList_empty, lex_nil, ← hparses.1, Option.some.injEq] at hlex
  exact Formula.tokens_ne_nil hproper hlex.symm

end Sql

/-- **Conditions are well formed, wherever they come from.** Built from pairs or from a
single one, read in the text of a policy, or decoded from JSON as conditions, as a rule or
as a list of rules: they are the pairs that were written, in their order, and these are
well formed; where they are not, the input is refused. So whatever rules are compiled,
every requirement in the filter has its fields and its alternatives, and every fragment of
the where clause is a clause. -/
theorem taken_as_written_everywhere :
    TakenAsWritten Conditions.ofPairs (fun pairs given => given = pairs) ([·])
      Conditions.pairs id ∧
    TakenAsWritten (fun pair : String × Value => Conditions.single pair.1 pair.2)
      (fun pairs pair => [pair] = pairs) ([·]) Conditions.pairs id ∧
    TakenAsWritten Policy.ofText PolicyText.WritesPolicy (List.filterMap (·.pairs))
      (fun p => p.grants.map Grant.statement) .illFormed ∧
    TakenAsWritten (Json.decode Json.readConditions)
      (fun pairs text => Json.WritesConditions pairs (Json.tokens text.toList)) ([·])
      Conditions.pairs .illFormed ∧
    TakenAsWritten (Json.decode Json.readRule)
      (fun d text => Json.WritesRule d (Json.tokens text.toList)) (·.pairs.toList)
      Rule.draft .illFormed ∧
    TakenAsWritten (Json.decode Json.readRules)
      (fun ds text => Json.WritesRules ds (Json.tokens text.toList))
      (List.filterMap (·.pairs)) (·.toList.map Rule.draft) .illFormed ∧
    (∀ start f : Filter, Compiled start f →
      ∃ terms, f.terms = start.terms ++ terms ∧ ∀ t ∈ terms, t.NonEmpty) ∧
    ∀ start w : Sql.Where, Compiled start w →
      ∃ fragments, w.fragments = start.fragments ++ fragments ∧
        ∀ text ∈ fragments, Sql.IsClause start.dialect text := by
  refine ⟨ofPairs_takenAsWritten, single_takenAsWritten, ofText_takenAsWritten,
    decode_conditions_takenAsWritten, decode_rule_takenAsWritten,
    decode_rules_takenAsWritten, fun start f h => ?_, fun start w h => ?_⟩
  · obtain ⟨terms, rfl, hterms⟩ := h.exists_terms
    exact ⟨terms, by rw [Filter.addAll_eq], hterms⟩
  · obtain ⟨terms, rfl, hterms⟩ := h.exists_terms
    rw [Sql.Where.addAll_eq]
    refine ⟨_, List.map_append, ?_⟩
    rw [List.forall_mem_map]
    exact fun t ht => Sql.Clause.isClause_text start.dialect (hterms t ht)

/-- The second name is the first one in another spelling, so the text is refused. A rule
on a single field is compiled to one term and to one fragment. -/
theorem taken_as_written_everywhere_repeated :
    let text := "\x7b\"a\":1,\"\\u0061\":2\x7d"
    let pairs : List (String × Value) := [("a", .int 1), ("a", .int 2)]
    let rules : RuleList :=
      ⟨[.denyWhen ⟨[("a", .int 1)], by decide, by decide, by decide⟩]⟩
    let start : Sql.Where := { dialect := .mysql }
    Json.WritesConditions pairs (Json.tokens text.toList) ∧ ¬Conditions.WellFormed pairs ∧
      (∃ fault, Json.decode Json.readConditions text = .error (.illFormed fault)) ∧
      Compiled Filter.empty (rules.ruling Filter.empty).predicate ∧
      (∃ terms,
        (rules.ruling Filter.empty).predicate.terms = Filter.empty.terms ++ terms ∧
        ∀ t ∈ terms, t.NonEmpty) ∧
      Compiled start (rules.ruling start).predicate ∧
      ∃ fragments,
        (rules.ruling start).predicate.fragments = start.fragments ++ fragments ∧
        ∀ text ∈ fragments, Sql.IsClause .mysql text := by
  intro text pairs rules start
  have htokens : Json.tokens text.toList =
      [.openObject, .string (some "a"), .colon, .number (some (.whole 1)), .comma,
        .string (some "a"), .colon, .number (some (.whole 2)), .closeObject] := by
    cbv
  have hwrites : Json.WritesConditions pairs (Json.tokens text.toList) := by
    rw [htokens]
    exact .pairs (.cons rfl (.last rfl))
  have hill : ¬Conditions.WellFormed pairs := fun h => absurd h.nodup (by decide)
  obtain ⟨-, -, -, hconditions, -, -, hfilter, hwhere⟩ := taken_as_written_everywhere
  exact ⟨hwrites, hill, hconditions.refused text pairs hwrites ⟨pairs, by simp, hill⟩,
    .rules rules, hfilter _ _ (.rules rules), .rules rules, hwhere start _ (.rules rules)⟩

end RowAccess
