/-
RowAccess.Proofs.Sql.Order — the order of the clauses of a query.

Clauses stand in the order of the steps that add them, so requirements of the caller and
of access rules are mixed as their steps were. Steps can also be sorted, with those of the
caller in front, and the query of the sorted steps has the same clauses in another order.
Whether the two queries read the same is a question about pairs of steps: a requirement of
the caller is moved in front of an access step, and this shows unless that step has no
clause or the two are written alike (`Select.text_eq_callersFirst_iff`).

An access step can be written like a requirement of the caller only where it was refused.
Its clause is then the requirement that a sentinel is one, and a caller may ask for that,
too. All else that rules add has a `not` or parentheses. The texts are therefore compared
as lists of factors, in which the sentinel's factor is the only equality that access steps
have (`pairwise_of_flatMap_eq`).
-/
import RowAccess.Proofs.Sql.Conventions

namespace RowAccess.Sql

/-! ## 1. Sorting items by kind -/

section Words

variable {ι α : Type} {p : ι → Bool} {w : ι → List α}

/-- A list that can change places with each word can change places with all of them. -/
theorem append_flatMap_comm {u : List α} :
    ∀ {ys : List ι}, (∀ y ∈ ys, u ++ w y = w y ++ u) →
    u ++ ys.flatMap w = ys.flatMap w ++ u
  | [], _ => by simp
  | y :: ys, h => by
      have ih : u ++ ys.flatMap w = ys.flatMap w ++ u :=
        append_flatMap_comm fun z hz => h z (List.mem_cons_of_mem _ hz)
      rw [List.flatMap_cons, ← List.append_assoc, h y (by simp), List.append_assoc, ih,
          List.append_assoc]

/-- Items can be sorted by kind if the words that pass each other can change places. -/
theorem flatMap_eq_sorted : ∀ {xs : List ι},
    xs.Pairwise (fun x y => p x = false → p y = true → w x ++ w y = w y ++ w x) →
      xs.flatMap w = (xs.filter p).flatMap w ++ (xs.filter (!p ·)).flatMap w
  | [], _ => rfl
  | x :: xs, h => by
      obtain ⟨hx, hxs⟩ := List.pairwise_cons.mp h
      have ih := flatMap_eq_sorted hxs
      cases hp : p x with
      | true => simp [hp, ih]
      | false =>
          have hcomm : w x ++ (xs.filter p).flatMap w =
              (xs.filter p).flatMap w ++ w x := by
            refine append_flatMap_comm fun y hy => ?_
            obtain ⟨hmem, hpy⟩ := List.mem_filter.mp hy
            exact hx y hmem hp hpy
          rw [List.flatMap_cons, ih, ← List.append_assoc, hcomm, List.append_assoc,
              List.filter_cons_of_neg (by simp [hp]),
              List.filter_cons_of_pos (by simp [hp]), List.flatMap_cons]

/-- A letter passed by the letters `a` is one itself, if there are any. -/
theorem replicate_cancel {k : Nat} {a c : α} {r s : List α}
    (h : List.replicate k a ++ c :: r = c :: s) :
    (0 < k → c = a) ∧ List.replicate k a ++ r = s := by
  cases k with
  | zero => exact ⟨by simp, (List.cons.inj h).2⟩
  | succ k =>
      obtain ⟨rfl, hrest⟩ := List.cons.inj h
      refine ⟨fun _ => rfl, ?_⟩
      rw [← hrest, List.replicate_succ', List.append_assoc]
      rfl

/-- No item of special letters passes a letter that is not special. -/
theorem forall_second_of_eq {special : α → Bool} {c : α} {xs : List ι} {s r r' : List α}
    (hfirst : ∀ x, p x = true → ∃ c, w x = [c] ∧ special c = true)
    (hs : ∀ d ∈ s, special d = true) (hc : special c = false)
    (h : s ++ c :: r = (xs.filter p).flatMap w ++ (s ++ c :: r')) :
    ∀ y ∈ xs, p y = false := by
  have hpassing : ∀ d ∈ (xs.filter p).flatMap w, special d = true := by
    intro d hd
    obtain ⟨y, hy, hd⟩ := List.mem_flatMap.mp hd
    obtain ⟨e, he, hspecial⟩ := hfirst y (List.mem_filter.mp hy).2
    rw [he, List.mem_singleton] at hd
    rw [hd, hspecial]
  have hstop : ∀ t, List.takeWhile special (s ++ c :: t) = s := by
    intro t
    rw [List.takeWhile_append_of_pos hs, List.takeWhile_cons_of_neg (by simp [hc]),
        List.append_nil]
  have htake := congrArg (List.takeWhile special) h
  rw [List.takeWhile_append_of_pos hpassing, hstop, hstop, List.self_eq_append_left,
      List.flatMap_eq_nil_iff] at htake
  intro y hy
  cases hpy : p y with
  | false => rfl
  | true =>
      obtain ⟨e, he, -⟩ := hfirst y hpy
      have hnil := htake y (List.mem_filter.mpr ⟨hy, hpy⟩)
      simp [he] at hnil

/-- Let the items of the first kind have one letter each, of a special sort, and those of
the other kind no such letter but for words `[a]`. If sorting does not show, then whatever
is passed is nothing, or is `[a]` and passed by `[a]`. The `k` letters in front are
those of items that have been passed already. -/
theorem pairwise_of_flatMap_eq {special : α → Bool} {a : α} (ha : special a = true)
    (hfirst : ∀ x, p x = true → ∃ c, w x = [c] ∧ special c = true)
    (hsecond : ∀ x, p x = false → w x = [a] ∨ ∀ c ∈ w x, special c = false) :
    ∀ {xs : List ι} {k : Nat},
      List.replicate k a ++ xs.flatMap w =
        (xs.filter p).flatMap w ++ (List.replicate k a ++ (xs.filter (!p ·)).flatMap w) →
      xs.Pairwise (fun x y => p x = false → p y = true →
        w x = [] ∨ w x = [a] ∧ w y = [a]) ∧ (0 < k → ∀ y ∈ xs, p y = true → w y = [a])
  | [], _, _ => by simp
  | x :: xs, k, h => by
      cases hp : p x with
      | true =>
          obtain ⟨c, hc, -⟩ := hfirst x hp
          rw [List.filter_cons_of_pos hp, List.filter_cons_of_neg (by simp [hp]),
              List.flatMap_cons, List.flatMap_cons, hc] at h
          obtain ⟨hletter, hrest⟩ := replicate_cancel h
          obtain ⟨hpairs, hall⟩ := pairwise_of_flatMap_eq ha hfirst hsecond hrest
          refine ⟨List.pairwise_cons.mpr ⟨fun _ _ hx => by simp [hp] at hx, hpairs⟩,
            fun hk => ?_⟩
          exact List.forall_mem_cons.mpr ⟨fun _ => by rw [hc, hletter hk], hall hk⟩
      | false =>
          have hskip : (∀ y ∈ xs, p y = true → w y = [a]) →
              ∀ y ∈ x :: xs, p y = true → w y = [a] :=
            fun hall => List.forall_mem_cons.mpr ⟨fun hx => by simp [hp] at hx, hall⟩
          rw [List.filter_cons_of_neg (by simp [hp]),
              List.filter_cons_of_pos (by simp [hp]), List.flatMap_cons,
              List.flatMap_cons] at h
          rcases hsecond x hp with hx | hx
          · -- One more letter has been passed.
            rw [hx, ← List.append_assoc, ← List.append_assoc (List.replicate k a),
                ← List.replicate_succ'] at h
            obtain ⟨hpairs, hall⟩ := pairwise_of_flatMap_eq ha hfirst hsecond h
            have hall : ∀ y ∈ xs, p y = true → w y = [a] := hall (Nat.succ_pos k)
            refine ⟨List.pairwise_cons.mpr ⟨fun y hy _ hpy => ?_, hpairs⟩,
              fun _ => hskip hall⟩
            exact Or.inr ⟨hx, hall y hy hpy⟩
          · cases hword : w x with
            | nil =>
                rw [hword] at h
                obtain ⟨hpairs, hall⟩ := pairwise_of_flatMap_eq ha hfirst hsecond h
                refine ⟨List.pairwise_cons.mpr ⟨fun _ _ _ _ => Or.inl hword, hpairs⟩, ?_⟩
                exact fun hk => hskip (hall hk)
            | cons c cs =>
                rw [hword] at h hx
                have hnone : ∀ y ∈ xs, p y = false :=
                  forall_second_of_eq hfirst (by simp [ha]) (hx c (by simp)) h
                have hvacuous : ∀ y ∈ xs, p y ≠ true := fun y hy => by simp [hnone y hy]
                refine ⟨List.pairwise_cons.mpr
                  ⟨fun y hy _ hpy => absurd hpy (hvacuous y hy), ?_⟩,
                  fun _ => hskip fun y hy hpy => absurd hpy (hvacuous y hy)⟩
                exact List.pairwise_of_forall_mem_list fun _ _ y hy _ hpy =>
                  absurd hpy (hvacuous y hy)

end Words

/-! ## 2. Steps and what is read of their clauses -/

variable {σ : Type}

/-- Whether a step is a requirement of the caller. -/
def Step.isCaller : Step → Bool
  | whereEq _ _ => true
  | accessible _ _ | accessibleByDefault _ => false

/-- The steps with those of the caller in front, and otherwise in the same order. -/
def callersFirst (steps : List Step) : List Step :=
  steps.filter Step.isCaller ++ steps.filter (!·.isCaller)

/-- Whether a later requirement of the caller can be moved in front of a step of the other
kind and leave the text as it is: either nothing is passed, or it is the clause of a
refused step and the caller requires the same. -/
def Step.LetsPass (settings : Settings σ) (subject : String)
    (earlier later : Step) : Prop :=
  earlier.isCaller = false → later.isCaller = true →
    earlier.clauses settings.sentinel subject = [] ∨
      earlier.empties subject = true ∧ ∃ value,
        later = .whereEq settings.sentinel value ∧
          settings.dialect.literal value = settings.dialect.literal (.int 1)

/-- Whether a factor is an equality by itself. -/
def Factor.isEquality {α : Type} : Factor α → Bool
  | equality _ => true
  | negated _ | group _ => false

/-- The factors of a clause, as they come back from its text. -/
def Clause.readFactors (d : Dialect) (c : Clause) : List (Factor (String × Literal)) :=
  c.factors.map (Factor.map d.decoded)

/-- The factors of a step, as they come back from the text of its clauses. -/
def Step.readFactors (settings : Settings σ) (subject : String) (step : Step) :
    List (Factor (String × Literal)) :=
  (step.clauses settings.sentinel subject).flatMap (Clause.readFactors settings.dialect)

/-- The factor of a refused step. -/
def sentinelFactor (settings : Settings σ) : Factor (String × Literal) :=
  .equality (settings.dialect.decoded (settings.sentinel, .int 1))

/-- Clauses that are written alike have the same factors. -/
theorem Clause.readFactors_eq_of_written_eq (d : Dialect) {clauses clauses' : List Clause}
    (h : ∀ alternatives, .term (.anyOf alternatives) ∈ clauses → alternatives ≠ [])
    (h' : ∀ alternatives, .term (.anyOf alternatives) ∈ clauses' → alternatives ≠ [])
    (hwritten : " and ".toList.intercalate (clauses.map (written d)) =
      " and ".toList.intercalate (clauses'.map (written d))) :
    clauses.flatMap (readFactors d) = clauses'.flatMap (readFactors d) := by
  obtain ⟨ts, hlex, hparses⟩ := formula_reads d clauses h
  obtain ⟨ts', hlex', hparses'⟩ := formula_reads d clauses' h'
  rw [← hwritten, hlex] at hlex'
  obtain rfl := Option.some.inj hlex'
  have hformula := Formula.parses_unique hparses hparses'
  rw [formula, formula, Formula.map, Formula.map, List.map_singleton, List.map_singleton,
      List.map_flatMap, List.map_flatMap] at hformula
  exact (List.cons.inj hformula).1

theorem Clause.readFactors_ne_nil (d : Dialect) (c : Clause) : c.readFactors d ≠ [] := by
  simp [readFactors, c.factors_ne_nil]

/-- Of a term, no factor is an equality by itself. -/
theorem Clause.isEquality_of_mem_term {d : Dialect} {t : Term}
    {f : Factor (String × Literal)} (h : f ∈ (Clause.term t).readFactors d) :
    f.isEquality = false := by
  obtain ⟨g, hg, rfl⟩ := List.mem_map.mp h
  cases t with
  | noneOf c =>
      obtain ⟨p, -, rfl⟩ := List.mem_map.mp hg
      rfl
  | anyOf alternatives =>
      obtain rfl := List.mem_singleton.mp hg
      rw [Factor.map_group]
      rfl

/-- What is read of the clauses of rules: the sentinel's factor, or factors of terms. -/
theorem readFactors_clausesOf (settings : Settings σ) (rules : List Rule) :
    let factors :=
      (clausesOf settings.sentinel rules).flatMap (Clause.readFactors settings.dialect)
    (Rule.GrantsNothing rules ∧ factors = [sentinelFactor settings]) ∨
      ∀ f ∈ factors, f.isEquality = false := by
  intro factors
  by_cases h : Rule.GrantsNothing rules
  · exact Or.inl ⟨h, by simp [factors, clausesOf, h, Clause.readFactors, Clause.factors,
      sentinelFactor]⟩
  · refine Or.inr fun f hf => ?_
    simp only [factors, clausesOf, if_neg h, List.flatMap_map] at hf
    obtain ⟨t, -, hf⟩ := List.mem_flatMap.mp hf
    exact Clause.isEquality_of_mem_term hf

namespace Step

theorem readFactors_of_isCaller (settings : Settings σ) (subject : String) :
    ∀ step : Step, step.isCaller = true →
      ∃ f, step.readFactors settings subject = [f] ∧ f.isEquality = true
  | whereEq field value, _ =>
      ⟨.equality (settings.dialect.decoded (field, value)), rfl, rfl⟩

theorem readFactors_of_not_isCaller (settings : Settings σ) (subject : String) :
    ∀ step : Step, step.isCaller = false →
      (step.empties subject = true ∧
        step.readFactors settings subject = [sentinelFactor settings]) ∨
      ∀ f ∈ step.readFactors settings subject, f.isEquality = false
  | accessible source action, _ => by
      rw [empties, decide_eq_true_iff]
      exact readFactors_clausesOf settings _
  | accessibleByDefault source, _ => by
      rw [empties, decide_eq_true_iff]
      exact readFactors_clausesOf settings _

theorem readFactors_eq_nil_iff {settings : Settings σ} {subject : String} {step : Step} :
    step.readFactors settings subject = [] ↔
      step.clauses settings.sentinel subject = [] := by
  rw [readFactors, List.flatMap_eq_nil_iff, List.eq_nil_iff_forall_not_mem]
  exact forall₂_congr fun c _ => iff_of_false (c.readFactors_ne_nil _) id

/-- If factors show no difference, neither does the text. -/
theorem letsPass_of_readFactors {settings : Settings σ} {subject : String}
    {earlier later : Step} (h : earlier.isCaller = false → later.isCaller = true →
      earlier.readFactors settings subject = [] ∨
        earlier.readFactors settings subject = [sentinelFactor settings] ∧
          later.readFactors settings subject = [sentinelFactor settings]) :
    LetsPass settings subject earlier later := by
  intro hearlier hlater
  rcases h hearlier hlater with hnil | ⟨hpassed, hpassing⟩
  · exact Or.inl (readFactors_eq_nil_iff.mp hnil)
  · refine Or.inr ?_
    obtain ⟨hempties, -⟩ | hother :=
      readFactors_of_not_isCaller settings subject earlier hearlier
    · refine ⟨hempties, ?_⟩
      cases later with
      | whereEq field value =>
          have hfactor : Dialect.decoded settings.dialect (field, value) =
              settings.dialect.decoded (settings.sentinel, .int 1) :=
            Factor.equality.inj (List.cons.inj hpassing).1
          obtain ⟨rfl, hliteral⟩ := Prod.ext_iff.mp hfactor
          refine ⟨value, rfl, ?_⟩
          rw [← Dialect.written_literalOf, ← Dialect.written_literalOf]
          exact congrArg Literal.written hliteral
      | accessible _ _ | accessibleByDefault _ => simp [isCaller] at hlater
    · simp [hpassed, sentinelFactor, Factor.isEquality] at hother

/-- The texts of the clauses of a step. -/
def texts (settings : Settings σ) (subject : String) (step : Step) : List (List Char) :=
  (step.clauses settings.sentinel subject).map (Clause.written settings.dialect)

theorem flatMap_texts (settings : Settings σ) (subject : String) (steps : List Step) :
    steps.flatMap (texts settings subject) =
      (steps.flatMap (clauses settings.sentinel subject)).map
        (Clause.written settings.dialect) := by
  rw [List.map_flatMap]
  rfl

theorem flatMap_readFactors (settings : Settings σ) (subject : String)
    (steps : List Step) :
    steps.flatMap (readFactors settings subject) =
      (steps.flatMap (clauses settings.sentinel subject)).flatMap
        (Clause.readFactors settings.dialect) := by
  rw [List.flatMap_assoc]
  rfl

/-- The clauses of a refused step are the sentinel's. -/
theorem clauses_of_empties {sentinel subject : String} : ∀ {step : Step},
    step.empties subject = true →
      step.clauses sentinel subject = [.equals sentinel (.int 1)]
  | accessible source action, h => by
      rw [clauses, clausesOf, if_pos (of_decide_eq_true h)]
  | accessibleByDefault source, h => by
      rw [clauses, clausesOf, if_pos (of_decide_eq_true h)]

/-- Texts that let each other pass can change places. -/
theorem texts_comm_of_letsPass {settings : Settings σ} {subject : String}
    {earlier later : Step} (h : LetsPass settings subject earlier later)
    (hearlier : earlier.isCaller = false) (hlater : later.isCaller = true) :
    earlier.texts settings subject ++ later.texts settings subject =
      later.texts settings subject ++ earlier.texts settings subject := by
  rcases h hearlier hlater with hnil | ⟨hempties, value, rfl, hliteral⟩
  · simp [texts, hnil]
  · rw [texts, texts, clauses_of_empties hempties]
    simp [clauses, Clause.written, Dialect.equality, hliteral]

end Step

/-! ## 3. Queries -/

theorem callersFirst_perm (steps : List Step) : (callersFirst steps).Perm steps :=
  List.filter_append_perm Step.isCaller steps

namespace Select

/-- The clauses of a run that starts without any. -/
theorem clauses_build (q : Select σ) (hclauses : q.clauses = []) (steps : List Step)
    (s : σ) :
    ((q.build steps).run s).1.clauses =
      (steps.flatMap (Step.clauses q.settings.sentinel q.subject.name)).map
        (⟨q.settings.dialect, ·⟩) := by
  rw [build_value, extended, add, hclauses]
  rfl

/-- Runs of the same steps read the same if their clauses, joined, are written alike. -/
theorem text_build_eq_iff (q : Select σ) (hclauses : q.clauses = [])
    {steps steps' : List Step} (hperm : steps.Perm steps') (s : σ) :
    ((q.build steps).run s).1.text = ((q.build steps').run s).1.text ↔
      " and ".toList.intercalate (steps.flatMap (Step.texts q.settings q.subject.name)) =
        " and ".toList.intercalate
          (steps'.flatMap (Step.texts q.settings q.subject.name)) := by
  have hjoined : ∀ steps : List Step,
      (((q.build steps).run s).1.clauses.map fun p => p.clause.written p.dialect) =
        steps.flatMap (Step.texts q.settings q.subject.name) := by
    intro steps
    rw [clauses_build q hclauses, List.map_map, Step.flatMap_texts]
    rfl
  have hnil : ((q.build steps).run s).1.clauses = [] ↔
      ((q.build steps').run s).1.clauses = [] := by
    rw [clauses_build q hclauses, clauses_build q hclauses, List.map_eq_nil_iff,
        List.map_eq_nil_iff]
    have hclausesPerm :=
      hperm.flatMap_right (Step.clauses q.settings.sentinel q.subject.name)
    exact ⟨fun h => (h ▸ hclausesPerm).nil_eq.symm, fun h => (h ▸ hclausesPerm).eq_nil⟩
  rw [← hjoined, ← hjoined]
  refine text_inj_iff ?_ ?_ hnil
  · rw [build_value, build_value]
    rfl
  · rw [build_value, build_value]
    rfl

/-- **When the order of the steps does not show.** -/
theorem text_eq_callersFirst_iff (q : Select σ) (hclauses : q.clauses = [])
    (steps : List Step) (s : σ) :
    ((q.build steps).run s).1.text = ((q.build (callersFirst steps)).run s).1.text ↔
      steps.Pairwise (Step.LetsPass q.settings q.subject.name) := by
  rw [text_build_eq_iff q hclauses (callersFirst_perm steps).symm]
  constructor
  · intro h
    have hdemands : ∀ (steps : List Step) (alternatives : List Conditions),
        .term (.anyOf alternatives) ∈
          steps.flatMap (Step.clauses q.settings.sentinel q.subject.name) →
            alternatives ≠ [] := by
      intro steps alternatives hmem
      obtain ⟨step, -, hmem⟩ := List.mem_flatMap.mp hmem
      exact Step.ne_nil_of_demand hmem
    rw [Step.flatMap_texts, Step.flatMap_texts] at h
    have hfactors :=
      Clause.readFactors_eq_of_written_eq q.settings.dialect (hdemands steps)
      (hdemands (callersFirst steps)) h
    rw [← Step.flatMap_readFactors, ← Step.flatMap_readFactors, callersFirst,
        List.flatMap_append] at hfactors
    have hpairs := (pairwise_of_flatMap_eq (k := 0) rfl
      (Step.readFactors_of_isCaller q.settings q.subject.name)
      (fun step hstep => (Step.readFactors_of_not_isCaller q.settings q.subject.name step
        hstep).imp_left And.right) hfactors).1
    exact hpairs.imp Step.letsPass_of_readFactors
  · intro h
    rw [callersFirst, List.flatMap_append]
    refine congrArg _ (flatMap_eq_sorted (h.imp ?_))
    exact fun hpass => Step.texts_comm_of_letsPass hpass

/-- **Clauses stand in the order of the steps.** A query has the clauses that its steps
add, each of them once and in the order of the steps. The sorted steps, with those of
the caller in front, lead to the same clauses in another order: first what the caller
requires, then what access rules add. Both queries read the same exactly when no
requirement of the caller stands behind a step that adds clauses for access rules, other
than one that was refused while the caller requires the same of the sentinel. -/
theorem clauses_in_step_order (subject : Subject) (table : String) (settings : Settings σ)
    (steps : List Step) (s : σ) :
    let start := ({ subject, table } : Select σ).withSettings settings
    let added := List.flatMap (Step.clauses settings.sentinel subject.name)
    let q := ((start.build steps).run s).1
    let sorted := ((start.build (callersFirst steps)).run s).1
    q.clauses = (added steps).map (⟨settings.dialect, ·⟩) ∧
    sorted.clauses =
      (added (steps.filter Step.isCaller) ++ added (steps.filter (!·.isCaller))).map
        (⟨settings.dialect, ·⟩) ∧
    q.clauses.Perm sorted.clauses ∧
    (q.text = sorted.text ↔ steps.Pairwise (Step.LetsPass settings subject.name)) := by
  intro start added q sorted
  have hq : q.clauses = (added steps).map (⟨settings.dialect, ·⟩) :=
    clauses_build start rfl steps s
  have hsorted : sorted.clauses =
      (added (callersFirst steps)).map (⟨settings.dialect, ·⟩) :=
    clauses_build start rfl (callersFirst steps) s
  refine ⟨hq, ?_, ?_, text_eq_callersFirst_iff start rfl steps s⟩
  · rw [hsorted, callersFirst]
    exact congrArg _ List.flatMap_append
  · rw [hq, hsorted]
    exact ((callersFirst_perm steps).flatMap_right _).symm.map _

/-- A requirement of the caller behind an access step stays behind its clause. -/
theorem access_before_caller :
    let drafts : RuleSource :=
      ⟨fun _ _ => .ofDeclared
        [.allowWhen ⟨[("state", .text "draft")], by decide, by decide, by decide⟩]⟩
    let start : Select Unit := { subject := ⟨"Post", by decide⟩, table := "posts" }
    let steps := [Step.accessible drafts "read", .whereEq "prop" (.bool true)]
    let q := ((start.build steps).run ()).1
    let sorted := ((start.build (callersFirst steps)).run ()).1
    q.text =
      "select \"posts\".* from \"posts\" where ((\"state\" = 'draft')) and \"prop\" = true" ∧
    sorted.text =
      "select \"posts\".* from \"posts\" where \"prop\" = true and ((\"state\" = 'draft'))" ∧
    q.text ≠ sorted.text := by
  decide

end Select

end RowAccess.Sql
