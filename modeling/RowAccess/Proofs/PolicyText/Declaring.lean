/-
RowAccess.Proofs.PolicyText.Declaring — loading a text, and declaring its statements
one by one.

A text can be turned into a policy in two ways: by loading it, or by reading its
statements and making for each of them the one declaration that it stands for. The
relation `Policy.Declares` says which declaration that is. A statement without braces
allows or denies every record; one with braces needs conditions, so nothing is
declared by it if its pairs are refused, and braces without pairs are.

* `Policy.Declares`, `Policy.DeclaresAll` — one declaration, and one for each statement.
* `Policy.declareAll_eq_ok_iff_declaresAll` — loading makes these declarations.
* `Policy.declareAll_eq_error_iff` — or fails by the first statement that is refused.
* `Policy.ofText_outcomes` — what comes of any text.
-/
import RowAccess.Proofs.PolicyText.Loading

namespace RowAccess

open PolicyText (Statement Layout WritesStatement WritesStatements)

/-! ## 1. Statements -/

namespace PolicyText.Statement

/-- The pairs between the braces of a statement are refused as conditions. -/
def Refused (st : Statement) (fault : Conditions.Fault) : Prop :=
  ∃ pairs, st.pairs = some pairs ∧ Conditions.ofPairs pairs = .error fault

/-- Whether a statement speaks of an action on a subject, by name or of all. -/
def appliesTo (st : Statement) (action subject : String) : Bool :=
  (st.action == action || st.action == Grant.anyAction) &&
    (st.subject == subject || st.subject == Grant.anySubject)

theorem rule_eq_error_iff {st : Statement} {fault : Conditions.Fault} :
    st.rule = .error fault ↔ st.Refused fault := by
  unfold rule Refused
  cases st.pairs with
  | none => simp
  | some pairs => cases h : Conditions.ofPairs pairs <;> simp [h]

/-- A statement that is not refused declares a rule. -/
theorem exists_rule_iff {st : Statement} :
    (∃ rule, st.rule = .ok rule) ↔ ∀ fault, ¬ st.Refused fault := by
  simp only [← rule_eq_error_iff]
  cases st.rule <;> simp

end PolicyText.Statement

namespace Policy

/-! ## 2. Declarations -/

/-- The declaration that a statement stands for, made in a policy. -/
inductive Declares (p : Policy) : Statement → Policy → Prop
  | can {action subject : String} :
      Declares p ⟨.allow, action, subject, none⟩ (p.can action subject)
  | cannot {action subject : String} :
      Declares p ⟨.deny, action, subject, none⟩ (p.cannot action subject)
  | canWhen {action subject : String} {pairs : List (String × Value)} {c : Conditions} :
      Conditions.ofPairs pairs = .ok c →
      Declares p ⟨.allow, action, subject, some pairs⟩ (p.canWhen action subject c)
  | cannotWhen {action subject : String} {pairs : List (String × Value)}
      {c : Conditions} :
      Conditions.ofPairs pairs = .ok c →
      Declares p ⟨.deny, action, subject, some pairs⟩ (p.cannotWhen action subject c)

/-- The declarations of statements, made in a policy one after the other. -/
inductive DeclaresAll : Policy → List Statement → Policy → Prop
  | done {p : Policy} : DeclaresAll p [] p
  | next {p q q' : Policy} {st : Statement} {statements : List Statement} :
      Declares p st q → DeclaresAll q statements q' → DeclaresAll p (st :: statements) q'

theorem declares_iff {p q : Policy} {st : Statement} :
    p.Declares st q ↔
      ∃ rule, st.rule = .ok rule ∧ q = p.declare st.action st.subject rule := by
  simp only [Statement.rule_eq_ok_iff]
  constructor
  · rintro (_ | _ | hc | hc)
    · exact ⟨.allow, ⟨rfl, rfl⟩, rfl⟩
    · exact ⟨.deny, ⟨rfl, rfl⟩, rfl⟩
    · exact ⟨.allowWhen _, ⟨rfl, by rw [← Conditions.ofPairs_eq_ok_iff.mp hc]; rfl⟩, rfl⟩
    · exact ⟨.denyWhen _, ⟨rfl, by rw [← Conditions.ofPairs_eq_ok_iff.mp hc]; rfl⟩, rfl⟩
  · obtain ⟨effect, action, subject, pairs⟩ := st
    rintro ⟨⟨_, conditions⟩, ⟨rfl, hpairs⟩, rfl⟩
    simp only at hpairs
    subst hpairs
    cases conditions with
    | none =>
        cases effect with
        | allow => exact .can
        | deny => exact .cannot
    | some c =>
        have hc : Conditions.ofPairs c.pairs = .ok c :=
          Conditions.ofPairs_eq_ok_iff.mpr rfl
        cases effect with
        | allow => exact .canWhen hc
        | deny => exact .cannotWhen hc

/-- **To declare all statements is to make their declarations one by one.** -/
theorem declareAll_eq_ok_iff_declaresAll {statements : List Statement} {p q : Policy} :
    declareAll p statements = .ok q ↔ DeclaresAll p statements q := by
  induction statements generalizing p with
  | nil =>
      constructor
      · intro h
        cases h
        exact .done
      · rintro ⟨⟩
        rfl
  | cons st statements ih =>
      rw [declareAll]
      constructor
      · intro h
        split at h
        · simp at h
        · rename_i rule hrule
          exact .next (declares_iff.mpr ⟨rule, hrule, rfl⟩) (ih.mp h)
      · rintro (_ | ⟨hst, hall⟩)
        obtain ⟨rule, hrule, rfl⟩ := declares_iff.mp hst
        rw [hrule]
        exact ih.mpr hall

/-- **Declaring fails by the first statement that is refused**, with its fault. -/
theorem declareAll_eq_error_iff {statements : List Statement} {p : Policy}
    {fault : Conditions.Fault} :
    declareAll p statements = .error fault ↔
      ∃ earlier st later, statements = earlier ++ st :: later ∧
        (∀ e ∈ earlier, ∀ f, ¬ e.Refused f) ∧ st.Refused fault := by
  induction statements generalizing p with
  | nil => simp [declareAll]
  | cons st statements ih =>
      rw [declareAll]
      constructor
      · intro h
        split at h
        · rename_i f hfault
          cases h
          exact ⟨[], st, statements, rfl, by simp, Statement.rule_eq_error_iff.mp hfault⟩
        · rename_i rule hrule
          obtain ⟨earlier, st', later, rfl, hearlier, hst'⟩ := ih.mp h
          refine ⟨st :: earlier, st', later, rfl, ?_, hst'⟩
          exact List.forall_mem_cons.mpr
            ⟨Statement.exists_rule_iff.mp ⟨rule, hrule⟩, hearlier⟩
      · rintro ⟨earlier, st', later, heq, hearlier, hst'⟩
        cases earlier with
        | nil =>
            cases heq
            rw [Statement.rule_eq_error_iff.mpr hst']
        | cons e earlier =>
            cases heq
            obtain ⟨he, hearlier⟩ := List.forall_mem_cons.mp hearlier
            obtain ⟨rule, hrule⟩ := Statement.exists_rule_iff.mpr he
            rw [hrule]
            exact ih.mpr ⟨earlier, st', later, rfl, hearlier, hst'⟩

/-- Statements of which none is refused are all declared. -/
theorem exists_declareAll_eq_ok {statements : List Statement}
    (h : ∀ st ∈ statements, ∀ f, ¬ st.Refused f) (p : Policy) :
    ∃ q, declareAll p statements = .ok q := by
  cases hdeclared : declareAll p statements with
  | ok q => exact ⟨q, rfl⟩
  | error fault =>
      obtain ⟨earlier, st, later, rfl, -, hst⟩ := declareAll_eq_error_iff.mp hdeclared
      exact absurd hst (h st (by simp) fault)

/-! ## 3. Texts -/

theorem ofText_eq_malformed_iff {text : String} {mistake : PolicyText.SyntaxError} :
    ofText text = .error (.malformed mistake) ↔
      PolicyText.parse text = .error mistake := by
  unfold ofText
  cases PolicyText.parse text with
  | error => simp
  | ok statements =>
      cases hdeclared : ofStatements statements <;> simp [Except.mapError, hdeclared]

theorem ofText_eq_illFormed_iff {text : String} {fault : Conditions.Fault} :
    ofText text = .error (.illFormed fault) ↔
      ∃ statements, PolicyText.parse text = .ok statements ∧
        ofStatements statements = .error fault := by
  unfold ofText
  cases PolicyText.parse text with
  | error => simp
  | ok statements =>
      cases hdeclared : ofStatements statements <;> simp [Except.mapError, hdeclared]

/-- The rules for an action on a subject are those of the statements that speak of
them, the last one first. -/
theorem rulesFor_statements (p : Policy) (action subject : String) :
    (p.rulesFor action subject).toList.map
        (fun rule => (rule.effect, rule.conditions.map (·.pairs))) =
      ((p.grants.map Grant.statement).reverse.filter (·.appliesTo action subject)).map
        fun st => (st.effect, st.pairs) := by
  rw [rulesFor, ← List.map_reverse, List.filter_map, List.map_map, List.map_map]
  rfl

/-- **What comes of a text.** Loading reports a mistake in the writing just if there is
one, also where a statement before it is refused. If there is none, it fails with the
fault of the first statement that is refused. If no statement is, it gives the policy
in which each statement has made its declaration, in the order of the text, and no
other one; asked for an action on a subject, this policy lists the rules of the
statements that speak of them, the last one first, each with the effect and the pairs
that were written, and without conditions only where no braces were. -/
theorem ofText_outcomes (text : String) :
    (∀ mistake, ofText text = .error (.malformed mistake) ↔
      PolicyText.parse text = .error mistake) ∧
    (∀ fault, ofText text = .error (.illFormed fault) ↔
      ∃ earlier st later, PolicyText.parse text = .ok (earlier ++ st :: later) ∧
        (∀ e ∈ earlier, ∀ f, ¬ e.Refused f) ∧ st.Refused fault) ∧
    ∀ statements, PolicyText.parse text = .ok statements →
      (∀ st ∈ statements, ∀ f, ¬ st.Refused f) →
      ∃ p, ofText text = .ok p ∧ (∀ q, DeclaresAll empty statements q ↔ q = p) ∧
        ∀ action subject,
          (p.rulesFor action subject).toList.map
              (fun rule => (rule.effect, rule.conditions.map (·.pairs))) =
            (statements.reverse.filter (·.appliesTo action subject)).map
              fun st => (st.effect, st.pairs) := by
  refine ⟨fun mistake => ofText_eq_malformed_iff, fun fault => ?_, ?_⟩
  · rw [ofText_eq_illFormed_iff]
    simp only [ofStatements, declareAll_eq_error_iff]
    constructor
    · rintro ⟨_, hparse, earlier, st, later, rfl, hst⟩
      exact ⟨earlier, st, later, hparse, hst⟩
    · rintro ⟨earlier, st, later, hparse, hst⟩
      exact ⟨_, hparse, earlier, st, later, rfl, hst⟩
  · intro statements hparse haccepted
    obtain ⟨p, hp⟩ := exists_declareAll_eq_ok haccepted empty
    have hwritten : statements = p.grants.map Grant.statement :=
      ofStatements_eq_ok_iff.mp hp
    refine ⟨p, ofText_eq_ok_iff.mpr (hwritten ▸ hparse), fun q => ?_,
      fun action subject => ?_⟩
    · rw [← declareAll_eq_ok_iff_declaresAll, hp, Except.ok.injEq, eq_comm]
    · rw [rulesFor_statements, ← hwritten]

theorem ofText_outcomes_hidden :
    let text := "can read Post cannot read Post\x7bprivate:true\x7d"
    let statements : List Statement :=
      [⟨.allow, "read", "Post", none⟩,
        ⟨.deny, "read", "Post", some [("private", .bool true)]⟩]
    PolicyText.parse text = .ok statements ∧ (∀ st ∈ statements, ∀ f, ¬ st.Refused f) ∧
      ∃ p, ofText text = .ok p ∧ DeclaresAll empty statements p ∧
        (p.rulesFor "read" "Post").toList.map
            (fun rule => (rule.effect, rule.conditions.map (·.pairs))) =
          [(.deny, some [("private", .bool true)]), (.allow, none)] := by
  intro text statements
  have hspace : Layout [' '] := .blank (by decide) .nil
  have hallow : WritesStatement ⟨.allow, "read", "Post", none⟩ _ :=
    @WritesStatement.intro _ [' '] [' '] _ (by decide) (by decide) hspace (by decide)
      (by decide) .absent
  have hdeny : WritesStatement
      ⟨.deny, "read", "Post", some [("private", .bool true)]⟩ _ :=
    @WritesStatement.intro _ [' '] [' '] _ (by decide) (by decide) hspace (by decide)
      (by decide) (.braces .nil (.cons .nil (.intro (.bare (by decide)) .nil .nil .yes)
        (.done .nil)))
  have hwrites : WritesStatements false statements text.toList := by
    have hall : WritesStatements false statements _ :=
      .cons .nil nofun hallow (.cons hspace nofun hdeny (.done (.layout .nil)))
    simpa [text, Effect.verb] using hall
  have hparse : PolicyText.parse text = .ok statements :=
    PolicyText.parse_eq_ok_iff.mpr (PolicyText.readStatements_of_writes hwrites)
  have haccepted : ∀ st ∈ statements, ∀ f, ¬ st.Refused f := by
    have hprivate : Conditions.ofPairs [("private", .bool true)] =
        .ok ⟨[("private", .bool true)], by decide, by decide, by decide⟩ :=
      Conditions.ofPairs_eq_ok_iff.mpr rfl
    simp [statements, Statement.Refused, hprivate]
  obtain ⟨-, -, hloads⟩ := ofText_outcomes text
  obtain ⟨p, hp, hdeclares, hrules⟩ := hloads statements hparse haccepted
  exact ⟨hparse, haccepted, p, hp, (hdeclares p).mpr rfl,
    (hrules "read" "Post").trans rfl⟩

end Policy

end RowAccess
