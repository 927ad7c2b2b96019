/-
RowAccess.Proofs.PolicyText.Loading — the policy of a text, and of two texts
written one below the other.

A grant can be read back as the statement that declares it. A text is loaded as a
policy just if the statements read from it are those of the policy's grants
(`Policy.ofText_eq_ok_iff`), so nothing is added, lost or reordered on the way.

Two texts with a line end between them are a way of writing the statements of both
(`WritesStatements.join`). The line end closes a comment that the first text may end
with, and keeps a name at its end from going on in the second.

* `Grant.statement` — a grant as a statement.
* `parse_eq_ok_iff` — reading stops at layout that goes up to the end.
* `texts_compose` — texts compose, and so do the policies they declare.
-/
import RowAccess.PolicyText.Load
import RowAccess.Proofs.PolicyText.Exactness

namespace RowAccess

/-! ## 1. Grants as statements -/

/-- The statement that declares a grant. -/
def Grant.statement (g : Grant) : PolicyText.Statement :=
  ⟨g.rule.effect, g.action, g.subject, g.rule.conditions.map (·.pairs)⟩

/-- A statement declares the rule of its effect and its pairs. -/
theorem PolicyText.Statement.rule_eq_ok_iff {st : PolicyText.Statement} {rule : Rule} :
    st.rule = .ok rule ↔
      st.effect = rule.effect ∧ st.pairs = rule.conditions.map (·.pairs) := by
  unfold Statement.rule
  constructor
  · intro h
    split at h
    · rename_i hnone
      cases h
      exact ⟨rfl, hnone⟩
    · rename_i pairs hpairs
      split at h
      · simp at h
      · rename_i c hc
        cases h
        exact ⟨rfl, by rw [hpairs, Option.map_some, Conditions.ofPairs_eq_ok_iff.mp hc]⟩
  · rintro ⟨heffect, hpairs⟩
    obtain ⟨effect, conditions⟩ := rule
    cases conditions with
    | none => simp [hpairs, heffect]
    | some c =>
        have hc : Conditions.ofPairs c.pairs = .ok c :=
          Conditions.ofPairs_eq_ok_iff.mpr rfl
        simp [hpairs, heffect, hc]

namespace Policy

/-- **Statements are declared one by one**: a grant for each of them, in their
order, behind the grants there are. -/
theorem declareAll_eq_ok_iff : ∀ {statements : List PolicyText.Statement} {p q : Policy},
    declareAll p statements = .ok q ↔
      ∃ grants : List Grant, statements = grants.map Grant.statement ∧
        q = ⟨p.grants ++ grants⟩
  | [], p, q => by
      constructor
      · intro h
        cases h
        exact ⟨[], rfl, by rw [List.append_nil]⟩
      · rintro ⟨grants, hnil, rfl⟩
        obtain rfl := List.map_eq_nil_iff.mp hnil.symm
        rw [declareAll, List.append_nil]
  | st :: statements, p, q => by
      rw [declareAll]
      constructor
      · intro h
        split at h
        · simp at h
        · rename_i rule hrule
          obtain ⟨heffect, hpairs⟩ := PolicyText.Statement.rule_eq_ok_iff.mp hrule
          obtain ⟨grants, rfl, rfl⟩ := declareAll_eq_ok_iff.mp h
          refine ⟨⟨st.action, st.subject, rule⟩ :: grants, ?_, ?_⟩
          · rw [List.map_cons, Grant.statement, ← heffect, ← hpairs]
          · simp [declare]
      · rintro ⟨grants, hgrants, rfl⟩
        obtain ⟨g, grants, rfl, rfl, rfl⟩ := List.map_eq_cons_iff.mp hgrants.symm
        have hrule : g.statement.rule = .ok g.rule :=
          PolicyText.Statement.rule_eq_ok_iff.mpr ⟨rfl, rfl⟩
        rw [hrule]
        exact declareAll_eq_ok_iff.mpr ⟨grants, rfl, by simp [declare, Grant.statement]⟩

theorem ofStatements_eq_ok_iff {statements : List PolicyText.Statement} {p : Policy} :
    ofStatements statements = .ok p ↔ statements = p.grants.map Grant.statement := by
  rw [ofStatements, declareAll_eq_ok_iff]
  constructor
  · rintro ⟨grants, rfl, rfl⟩
    rfl
  · exact fun h => ⟨p.grants, h, rfl⟩

/-- A text is loaded as a policy just if it is read as the statements of the
policy's grants. -/
theorem ofText_eq_ok_iff {text : String} {p : Policy} :
    ofText text = .ok p ↔ PolicyText.parse text = .ok (p.grants.map Grant.statement) := by
  unfold ofText
  split
  · rename_i mistake hparse
    simp [hparse]
  · rename_i statements hparse
    rw [hparse, Except.ok.injEq, ← ofStatements_eq_ok_iff]
    cases ofStatements statements <;> simp [Except.mapError]

/-- The rules of later grants come first. -/
theorem toList_rulesFor_append (earlier later : List Grant) (action subject : String) :
    (rulesFor ⟨earlier ++ later⟩ action subject).toList =
      (rulesFor ⟨later⟩ action subject).toList ++
        (rulesFor ⟨earlier⟩ action subject).toList := by
  simp [rulesFor]

end Policy

namespace PolicyText

/-! ## 2. Two texts -/

/-- A text is read as statements when all that is left behind them is layout. -/
theorem parse_eq_ok_iff {text : String} {statements : List Statement} :
    parse text = .ok statements ↔
      ∃ s, readStatements text.toList = .ok (statements, s) ∧ skipLayout s = [] := by
  unfold parse
  constructor
  · intro h
    split at h
    · simp at h
    · rename_i sts s hread
      split at h
      · rename_i hend
        cases h
        exact ⟨s, hread, hend⟩
      · simp at h
  · rintro ⟨s, hread, hend⟩
    rw [hread]
    simp only
    rw [hend]

/-- A line end completes the layout at the end of a text. -/
theorem FinalLayout.line {l : List Char} (hl : FinalLayout l) : Layout (l ++ ['\n']) := by
  have hline : Layout ['\n'] := .blank (by decide) .nil
  cases hl with
  | layout hl => exact hl.append hline
  | comment hl hbody =>
      rw [List.append_assoc, List.cons_append]
      exact hl.append (.comment hbody (List.mem_cons_self (a := ['\n'])) .nil)

/-- Layout may be written before statements, and separates them from a name. -/
theorem WritesStatements.behind {afterName afterName' : Bool} {sts : List Statement}
    {l w : List Char} (hl : Layout l) (hne : l ≠ [])
    (h : WritesStatements afterName sts w) :
    WritesStatements afterName' sts (l ++ w) := by
  cases h with
  | done hw => exact .done (hw.append hl)
  | cons hl' _ hst hsts =>
      rw [← List.append_assoc]
      exact .cons (hl.append hl') (by simp [hne]) hst hsts

/-- **Texts with a line end between them are a way of writing the statements of
both.** -/
theorem WritesStatements.join {afterName afterName' : Bool} {sts sts' : List Statement}
    {w w' : List Char} (h : WritesStatements afterName sts w)
    (h' : WritesStatements afterName' sts' w') :
    WritesStatements afterName (sts ++ sts') (w ++ '\n' :: w') := by
  induction h with
  | done hl =>
      rw [List.append_cons]
      exact h'.behind hl.line (by simp)
  | cons hl hne hst _ ih =>
      rw [List.append_assoc, List.append_assoc]
      exact .cons hl hne hst ih

/-- Reading two texts as one. -/
theorem parse_join {text text' : String} {sts sts' : List Statement}
    (h : parse text = .ok sts) (h' : parse text' = .ok sts') :
    parse (text ++ "\n" ++ text') = .ok (sts ++ sts') := by
  obtain ⟨s, hread, hend⟩ := parse_eq_ok_iff.mp h
  obtain ⟨s', hread', hend'⟩ := parse_eq_ok_iff.mp h'
  have hwrites := (writes_of_readStatements hread hend false (by simp)).join
    (writes_of_readStatements hread' hend' false (by simp))
  have htext : (text ++ "\n" ++ text').toList = text.toList ++ '\n' :: text'.toList := by
    simp
  rw [parse_eq_ok_iff, htext]
  exact readStatements_of_writes hwrites

/-! ## 3. Two policies -/

/-- **Policy texts compose.** Two texts that are read as statements can be written
one below the other, and are then read as the statements of the first, followed by
those of the second: no statement of either is read differently because of the other.
If both declare policies, so do they together; and in this policy the rules of the
second text take precedence over those of the first, for every action and subject. -/
theorem texts_compose (text text' : String) :
    (∀ sts sts', parse text = .ok sts → parse text' = .ok sts' →
      parse (text ++ "\n" ++ text') = .ok (sts ++ sts')) ∧
    ∀ p p', Policy.ofText text = .ok p → Policy.ofText text' = .ok p' →
      ∃ q, Policy.ofText (text ++ "\n" ++ text') = .ok q ∧ ∀ action subject,
        (q.rulesFor action subject).toList =
          (p'.rulesFor action subject).toList ++ (p.rulesFor action subject).toList := by
  refine ⟨fun sts sts' h h' => parse_join h h', fun p p' h h' => ?_⟩
  rw [Policy.ofText_eq_ok_iff] at h h'
  refine ⟨⟨p.grants ++ p'.grants⟩, ?_, Policy.toList_rulesFor_append p.grants p'.grants⟩
  rw [Policy.ofText_eq_ok_iff, List.map_append]
  exact parse_join h h'

theorem texts_compose_comment :
    let text := "can read Post# all"
    let text' := "cannot read Post\x7bprivate:true\x7d"
    let hidden : Conditions :=
      ⟨[("private", .bool true)], by decide, by decide, by decide⟩
    let p := Policy.empty.can "read" "Post"
    let p' := Policy.empty.cannotWhen "read" "Post" hidden
    parse text = .ok [⟨.allow, "read", "Post", none⟩] ∧
      parse text' = .ok [⟨.deny, "read", "Post", some [("private", .bool true)]⟩] ∧
      Policy.ofText text = .ok p ∧ Policy.ofText text' = .ok p' ∧
      parse (text ++ "\n" ++ text') =
        .ok [⟨.allow, "read", "Post", none⟩,
          ⟨.deny, "read", "Post", some [("private", .bool true)]⟩] ∧
      ∃ q, Policy.ofText (text ++ "\n" ++ text') = .ok q ∧
        (q.rulesFor "read" "Post").toList = [.denyWhen hidden, .allow] := by
  intro text text' hidden p p'
  have hspace : Layout [' '] := .blank (by decide) .nil
  have hallow : WritesStatement ⟨.allow, "read", "Post", none⟩ _ :=
    @WritesStatement.intro _ [' '] [' '] _ (by decide) (by decide)
      hspace (by decide) (by decide)
      .absent
  have hdeny : WritesStatement
      ⟨.deny, "read", "Post", some [("private", .bool true)]⟩ _ :=
    @WritesStatement.intro _ [' '] [' '] _ (by decide) (by decide)
      hspace (by decide) (by decide)
      (.braces .nil (.cons .nil (.intro (.bare (by decide)) .nil .nil .yes) (.done .nil)))
  have hcomment : FinalLayout "# all".toList :=
    @FinalLayout.comment [] " all".toList .nil (by decide)
  have hwrites : WritesStatements false [⟨.allow, "read", "Post", none⟩] text.toList := by
    have hall : WritesStatements false _ _ := .cons .nil nofun hallow (.done hcomment)
    simpa [text, Effect.verb] using hall
  have hwrites' : WritesStatements false
      [⟨.deny, "read", "Post", some [("private", .bool true)]⟩] text'.toList := by
    have hall : WritesStatements false _ _ :=
      .cons .nil nofun hdeny (.done (.layout .nil))
    simpa [text', Effect.verb] using hall
  have hparse := parse_eq_ok_iff.mpr (readStatements_of_writes hwrites)
  have hparse' := parse_eq_ok_iff.mpr (readStatements_of_writes hwrites')
  have hload : Policy.ofText text = .ok p := Policy.ofText_eq_ok_iff.mpr hparse
  have hload' : Policy.ofText text' = .ok p' := Policy.ofText_eq_ok_iff.mpr hparse'
  obtain ⟨hstatements, hpolicies⟩ := texts_compose text text'
  obtain ⟨q, hq, hrules⟩ := hpolicies p p' hload hload'
  exact ⟨hparse, hparse', hload, hload', hstatements _ _ hparse hparse', q, hq,
    hrules "read" "Post"⟩

end PolicyText

end RowAccess
