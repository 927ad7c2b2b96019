/-
RowAccess.Proofs.Relevance — which grants of a policy a decision depends on.

A grant matters to an action on a subject only if it speaks of them and no later
grant that speaks of them covers every record. The grants that are left decide:
read from the last one declared, those that apply, back to the first without
conditions, which is the last one to be read.

* `Policy.decisive` — these grants.
* `Policy.decisive_irrelevant`, `Policy.decisive_superseded` — other grants may be
  added, removed or changed without changing them.
* `Policy.same_access` — policies whose decisive grants carry the same rules are
  told apart by no predicate, no query and no table.

What is reported is another matter: the number of rules looked up counts all
grants that apply.
-/
import RowAccess.Policy
import RowAccess.Proofs.Sql.Selection

namespace RowAccess

/-! ## 1. Lists up to their first element of a kind -/

section ThroughFirst

variable {α γ : Type}

/-- A list up to its first element with `p`, that one included, or all of it. -/
def throughFirst (p : α → Bool) : List α → List α
  | [] => []
  | a :: rest => if p a then [a] else a :: throughFirst p rest

theorem throughFirst_map (p : γ → Bool) (f : α → γ) : ∀ as : List α,
    throughFirst p (as.map f) = (throughFirst (fun a => p (f a)) as).map f
  | [] => rfl
  | a :: rest => by
      have ih := throughFirst_map p f rest
      cases h : p (f a) <;> simp [throughFirst, h, ih]

/-- Behind an element with `p` nothing is taken. -/
theorem throughFirst_append (p : α → Bool) (a : α) (ha : p a = true)
    (later later' : List α) :
    ∀ as : List α, throughFirst p (as ++ a :: later) = throughFirst p (as ++ a :: later')
  | [] => by simp [throughFirst, ha]
  | b :: rest => by
      have ih := throughFirst_append p a ha later later' rest
      simp only [List.cons_append, throughFirst, ih]

end ThroughFirst

/-! ## 2. Rules -/

namespace Rule

/-- The rules that decide: those up to the first one without conditions. -/
def decisive (rules : List Rule) : List Rule := throughFirst (!·.isConditioned) rules

theorem live_decisive : ∀ rules : List Rule, live (decisive rules) = live rules
  | [] => rfl
  | ⟨_, none⟩ :: _ => rfl
  | ⟨e, some c⟩ :: older => by
      have ih := live_decisive older
      rw [live_conditioned, ← ih]
      rfl

theorem blanket?_decisive :
    ∀ rules : List Rule, blanket? (decisive rules) = blanket? rules
  | [] => rfl
  | ⟨_, none⟩ :: _ => rfl
  | ⟨_, some _⟩ :: older => blanket?_decisive older

theorem requirements_decisive (pending : List Conditions) (rules : List Rule) :
    requirements pending (decisive rules) = requirements pending rules := by
  rw [requirements, requirements, denied, denied, allowed, allowed, live_decisive,
      blanket?_decisive]

/-- Lists with the same decisive rules have the same requirements. -/
theorem requirements_congr {rules rules' : List Rule}
    (h : decisive rules = decisive rules') (pending : List Conditions) :
    requirements pending rules = requirements pending rules' := by
  rw [← requirements_decisive, h, requirements_decisive]

/-- Lists with the same decisive rules have the same verdict on every predicate. -/
theorem verdict_congr {β : Type} [Restriction β] {rules rules' : List Rule}
    (h : decisive rules = decisive rules') (start : β) :
    verdict rules start = verdict rules' start := by
  rw [verdict, verdict, requirements_congr h, ← live_decisive rules,
      ← blanket?_decisive rules, h, live_decisive, blanket?_decisive]

end Rule

/-! ## 3. Grants -/

namespace Policy

variable (action subject : String)

/-- The grants that decide an action on a subject, the last declared first: those
that apply, up to the first one without conditions. -/
def decisive (p : Policy) : List Grant :=
  throughFirst (!·.rule.isConditioned)
    (p.grants.reverse.filter (·.appliesTo action subject))

theorem decisive_rules (p : Policy) :
    (p.decisive action subject).map (·.rule) =
      Rule.decisive (p.rulesFor action subject).toList := by
  rw [decisive, Rule.decisive, rulesFor, throughFirst_map]

/-- A grant of another action or subject does not decide, wherever it stands. -/
theorem decisive_irrelevant {g : Grant} (hg : g.appliesTo action subject = false)
    (older newer : List Grant) :
    decisive action subject ⟨older ++ g :: newer⟩ =
      decisive action subject ⟨older ++ newer⟩ := by
  simp [decisive, hg]

/-- What was declared before a grant without conditions does not decide. -/
theorem decisive_superseded {g : Grant} (hg : g.appliesTo action subject = true)
    (hblanket : g.rule.isConditioned = false) (older older' newer : List Grant) :
    decisive action subject ⟨older ++ g :: newer⟩ =
      decisive action subject ⟨older' ++ g :: newer⟩ := by
  simp only [decisive, List.reverse_append, List.reverse_cons, List.filter_append,
    List.filter_cons, hg, List.append_assoc, if_true, List.singleton_append]
  exact throughFirst_append _ g (by simp [hblanket]) _ _ _

/-! ## 4. Decisions -/

/-- **Only the decisive grants can be observed.** Two policies whose decisive
grants carry the same rules in the same order lead to the same verdict and the same
predicate, whatever the predicate was before and whatever hook is asked; a query
that asks for access by one of them is the query that asks by the other; and a table
returns the same records for both. How many other grants either policy has, and
where, makes no difference. -/
theorem same_access (p p' : Policy)
    (h : (p.decisive action subject).map (·.rule) =
      (p'.decisive action subject).map (·.rule)) :
    (∀ (β σ : Type) [Restriction β] (options : Options σ) (start : β) (s s' : σ),
      ((p.source.restrict options action subject start).run s).1 =
          ((p'.source.restrict options action subject start).run s').1 ∧
        ((p.source.ruling options action subject start).run s).1.predicate =
          ((p'.source.ruling options action subject start).run s').1.predicate) ∧
    (∀ (σ : Type) (q : Sql.Select σ) (s s' : σ), q.subject.name = subject →
      ((q.accessible p.source action).run s).1.value =
        ((q.accessible p'.source action).run s').1.value) ∧
    ∀ (σ : Type) (t : Table σ) (s s' : σ), t.subject.name = subject →
      ((t.accessible p.source action).run s).1.value =
        ((t.accessible p'.source action).run s').1.value := by
  have hrules : Rule.decisive (p.source.rulesFor action subject).toList =
      Rule.decisive (p'.source.rulesFor action subject).toList := by
    rw [source, source, ← decisive_rules, ← decisive_rules, h]
  refine ⟨?_, ?_, ?_⟩
  · intro β σ _ options start s s'
    rw [RuleSource.restrict_eq, RuleSource.restrict_eq, RuleSource.ruling_predicate,
        RuleSource.ruling_predicate, Rule.verdict_congr hrules,
        Rule.requirements_congr hrules]
    exact ⟨rfl, rfl⟩
  · intro σ q s s' hq
    rw [Sql.Select.accessible_value, Sql.Select.accessible_value,
        ← Sql.Select.granted_verdict, ← Sql.Select.granted_verdict, hq,
        Rule.verdict_congr hrules]
  · intro σ t s s' ht
    rw [Table.accessible_value, Table.accessible_value, ht, Rule.verdict_congr hrules]

/-- Records that are drafts. -/
def drafts : Conditions := ⟨[("draft", .bool true)], by decide, by decide, by decide⟩

/-- Everything may be done, except for reading drafts of posts. A denial before that
is lifted. -/
def liberal : Policy :=
  ((empty.cannot "read" "Post").can "manage" "all").cannotWhen "read" "Post" drafts

/-- A policy with more grants, of which another one is lifted and two are about
something else. -/
def crowded : Policy :=
  empty
    |>.canWhen "read" "Post" drafts
    |>.can "manage" "all"
    |>.cannot "edit" "Post"
    |>.cannotWhen "manage" "Post" drafts
    |>.cannot "read" "User"

/-- The two policies lead to the same query and the same records, also where the
answers of the hook that is asked depend on how often it was asked before. -/
theorem same_access_crowded :
    let subject : Subject := ⟨"Post", by decide⟩
    let options : Options Nat :=
      { relationHook := some fun _ _ _ n => (n % 2 == 0, n + 1) }
    let q : Sql.Select Nat :=
      { subject, table := "posts", settings := { access := options } }
    let t : Table Nat :=
      { subject, options,
        records := [Record.empty, Record.empty.set "draft" (.bool false)] }
    (liberal.decisive "read" "Post").map (·.rule) =
        (crowded.decisive "read" "Post").map (·.rule) ∧
      ((liberal.source.restrict options "read" "Post" Filter.empty).run 0).1 =
        ((crowded.source.restrict options "read" "Post" Filter.empty).run 1).1 ∧
      ((q.accessible liberal.source "read").run 0).1.value =
        ((q.accessible crowded.source "read").run 1).1.value ∧
      ((t.accessible liberal.source "read").run 0).1.value =
        ((t.accessible crowded.source "read").run 1).1.value := by
  intro subject options q t
  have hforeign : crowded.decisive "read" "Post" =
      decisive "read" "Post"
        ⟨[⟨"read", "Post", .allowWhen drafts⟩, ⟨"manage", "all", .allow⟩,
          ⟨"manage", "Post", .denyWhen drafts⟩]⟩ := by
    have hedit :=
      decisive_irrelevant "read" "Post" (g := ⟨"edit", "Post", .deny⟩) (by decide)
      [⟨"read", "Post", .allowWhen drafts⟩, ⟨"manage", "all", .allow⟩]
    have huser :=
      decisive_irrelevant "read" "Post" (g := ⟨"read", "User", .deny⟩) (by decide)
    exact (huser _ []).trans (hedit _)
  have hlifted :=
    decisive_superseded "read" "Post" (g := ⟨"manage", "all", .allow⟩) (by decide) rfl
    [⟨"read", "Post", .allowWhen drafts⟩] [⟨"read", "Post", .deny⟩]
    [⟨"manage", "Post", .denyWhen drafts⟩]
  have h : (liberal.decisive "read" "Post").map (·.rule) =
      (crowded.decisive "read" "Post").map (·.rule) := by
    rw [hforeign]
    exact (congrArg (List.map (·.rule)) hlifted).symm
  obtain ⟨hrestrict, hquery, htable⟩ := same_access "read" "Post" liberal crowded h
  exact ⟨h, (hrestrict Filter Nat options Filter.empty 0 1).1, hquery Nat q 0 1 rfl,
    htable Nat t 0 1 rfl⟩

end Policy

end RowAccess
