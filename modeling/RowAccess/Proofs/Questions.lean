/-
RowAccess.Proofs.Questions — what a relation hook is asked, and what comes of its
answers.

A hook may keep a state of its own and answer as it likes. So that its questions
can be spoken of, `RelationHook.noted` lets any hook keep a list of them beside its
state. A reading asked of the one and a reading asked of the other go through the
same steps (`Pass.read_noted`), and what stands in the list at the end is what was
asked, no matter what was answered.

* `Rule.liveFields` — the fields of the conditions of the live rules.
* `RuleSource.questions` — the questions about them.
* `RuleSource.hook_observes` — these are asked, each once and in their order, and
  the decision is the one reached without a hook.
-/
import RowAccess.Proofs.Precedence

namespace RowAccess

/-! ## 1. Questions -/

/-- A question put to a relation hook. -/
structure Question where
  field : String
  subject : String
  source : RuleSource

/-- The fields of the conditions of the live rules: rule by rule, and of each rule in
the order written. -/
def Rule.liveFields (rules : List Rule) : List String :=
  (live rules).flatMap fun rule => (rule.conditions.map (·.names)).getD []

@[simp] theorem Rule.liveFields_nil : liveFields [] = [] := rfl

@[simp] theorem Rule.liveFields_conditioned (e : Effect) (c : Conditions)
    (older : List Rule) :
    liveFields (⟨e, some c⟩ :: older) = c.names ++ liveFields older := rfl

@[simp] theorem Rule.liveFields_blanket (e : Effect) (older : List Rule) :
    liveFields (⟨e, none⟩ :: older) = [] := rfl

/-- The questions that the rules for an action on a subject give rise to. -/
def RuleSource.questions (source : RuleSource) (action subject : String) :
    List Question :=
  (Rule.liveFields (source.rulesFor action subject).toList).map (⟨·, subject, source⟩)

/-- A hook that answers like another one, and keeps a list of the questions it was
asked. -/
def RelationHook.noted {σ : Type} (hook : RelationHook σ) :
    RelationHook (σ × List Question) :=
  fun field subject source (s, notes) =>
    let (answer, s') := (hook field subject source).run s
    (answer, s', notes ++ [⟨field, subject, source⟩])

theorem RelationHook.run_noted {σ : Type} (hook : RelationHook σ) (field subject : String)
    (source : RuleSource) (s : σ) (notes : List Question) :
    (hook.noted field subject source).run (s, notes) =
      let answer := (hook field subject source).run s
      (answer.1, answer.2, notes ++ [⟨field, subject, source⟩]) := rfl

/-! ## 2. A reading under way -/

namespace Pass

variable {β σ : Type}

/-! Asking about fields, like reading rules, gives a pair of a result and the state
of the hook. -/

theorem askFields_nil (ask : String → StateM σ Bool) (s : σ) :
    (askFields ask []).run s = ([], s) := rfl

theorem askFields_cons (ask : String → StateM σ Bool) (field : String)
    (fields : List String) (s : σ) :
    (askFields ask (field :: fields)).run s =
      let answer := (ask field).run s
      let later := (askFields ask fields).run answer.2
      (if answer.1 then .relationField field :: later.1 else later.1, later.2) := rfl

variable (hook : RelationHook σ) (subject : String) (source : RuleSource)

/-- Asking about fields notes each of them, and changes nothing else. -/
theorem askFields_noted : ∀ (fields : List String) (s : σ) (notes : List Question),
    (askFields (fun field => hook.noted field subject source) fields).run (s, notes) =
      let asked := (askFields (fun field => hook field subject source) fields).run s
      (asked.1, asked.2, notes ++ fields.map (⟨·, subject, source⟩))
  | [], s, notes => by
      rw [askFields_nil, askFields_nil]
      simp
  | field :: fields, s, notes => by
      rw [askFields_cons, askFields_cons, RelationHook.run_noted]
      simp only
      rw [askFields_noted fields]
      simp

variable [Restriction β]

/-- **A reading notes the fields of the live rules that it has still to read**, and
comes to the same ruling. -/
theorem read_noted (n : Nat) : ∀ (rules : List Rule) (pass : Pass β) (s : σ)
    (notes : List Question),
    (read (fun field => hook.noted field subject source) n pass rules).run (s, notes) =
      let ruled := (read (fun field => hook field subject source) n pass rules).run s
      (ruled.1, ruled.2, notes ++ (Rule.liveFields rules).map (⟨·, subject, source⟩))
  | [], pass, s, notes => by
      rw [read_nil, read_nil]
      simp
  | ⟨.deny, none⟩ :: _, pass, s, notes => by
      rw [read_blanketDeny, read_blanketDeny]
      simp
  | ⟨.allow, none⟩ :: _, pass, s, notes => by
      rw [read_blanketAllow, read_blanketAllow]
      simp
  | ⟨e, some c⟩ :: older, pass, s, notes => by
      rw [read_conditioned, read_conditioned, askFields_noted]
      simp only
      rw [read_noted n older]
      simp

end Pass

/-! ## 3. The rules of a source -/

/-- **A relation hook observes a decision and has no part in it.** Whatever hook is
asked, in whatever state, the verdict and the predicate are those of the rules alone.
The hook is asked about each field of the live rules once, in the order of the rules
and within a rule in the order written, always with the subject and the source at
hand, and it is asked nothing else: this is what is noted by a hook that notes its
questions, while it answers and changes its state as the hook without notes. -/
theorem RuleSource.hook_observes {β σ : Type} [Restriction β] (source : RuleSource)
    (options : Options σ) (action subject : String) (start : β) (s : σ)
    (notes : List Question) :
    let rules := source.rulesFor action subject
    let ruled := (source.ruling options action subject start).run s
    let noting : Options (σ × List Question) :=
      { relationHook := some options.hook.noted }
    (ruled.1.verdict, ruled.1.predicate) =
        (rules.restrict start, (rules.ruling start).predicate) ∧
      (source.ruling noting action subject start).run (s, notes) =
        (ruled.1, ruled.2, notes ++ source.questions action subject) := by
  intro rules ruled noting
  constructor
  · rw [ruling_verdict, ruling_predicate, RuleList.restrict_eq, RuleList.ruling_predicate]
  · have hread := Pass.read_noted options.hook subject source rules.size rules.toList
      { predicate := start } s notes
    simp only [ruling, StateT.run_bind]
    simp only [noting, Options.hook, Option.getD_some] at hread ⊢
    rw [hread]
    rfl

end RowAccess
