/-
RowAccess.Proofs.PolicyText.Exactness — what is read as a policy is a way of
writing it.

No character of the text is lost: each reader is shown to divide its text into
layout, a way of writing what it returns, and the rest. Where a reader goes back,
the text it had looked at is accounted for by the reader after it. A policy has no
rest, and its layout at the end is all that may follow the last statement.

Names are read as long as they go on. So a name is never followed directly by
another one, nor by a verb, and the layout between them comes for free
(`IsName.not_stops`).

* `writes_of_readMorePairs`, `writes_of_readConditions` — conditions.
* `writes_of_readStatement`, `exists_writesStatements` — statements.
* `writes_of_parse` — policies.
-/
import Mathlib
import RowAccess.Proofs.PolicyText.Acceptance

namespace RowAccess.PolicyText

open Text (Stops eq_append_of_keyword?)

/-! ## 1. Pairs -/

theorem writes_of_readPair {s rest : List Char} {p : String × Value}
    (h : readPair s = .ok (some (p, rest))) :
    ∃ l w, Layout l ∧ WritesPair p w ∧ s = l ++ (w ++ rest) := by
  unfold readPair at h
  split at h
  · simp at h
  · rename_i name s₁ hname
    obtain ⟨field, hfield, hs⟩ := writesField_of_fieldName? hname
    obtain ⟨l, hl, rfl⟩ := exists_layout hs (by simp [hfield.ne_nil])
    split at h
    · rename_i s₂ hcolon
      obtain ⟨l₁, hl₁, rfl⟩ := exists_layout hcolon (by simp)
      split at h
      · rename_i v s₃ hread
        cases h
        obtain ⟨value, hvalue, hs₂⟩ := writesValue_of_readValue hread
        obtain ⟨l₂, hl₂, rfl⟩ := exists_layout hs₂ (by simp [hvalue.ne_nil])
        exact ⟨l, _, hl, .intro hfield hl₁ hl₂ hvalue, by simp⟩
      · simp at h
    · simp at h

theorem layout_of_comma? {s behind : List Char} (h : comma? s = some behind) :
    ∃ l, Layout l ∧ s = l ++ ',' :: behind := by
  unfold comma? at h
  split at h
  · rename_i t hcomma
    cases h
    exact exists_layout hcomma (by simp)
  · simp at h

/-- Before the brace that closes the conditions there is layout, and at most one
comma in it. -/
theorem writes_of_closes {s r : List Char} (h : Closes s r) :
    ∃ w, WritesMorePairs [] w ∧ s = w ++ '}' :: r := by
  unfold Closes at h
  cases hcomma : comma? s with
  | none =>
      rw [hcomma, Option.getD_none] at h
      obtain ⟨l, hl, hs⟩ := exists_layout h (by simp)
      exact ⟨l, .done hl, hs⟩
  | some behind =>
      rw [hcomma, Option.getD_some] at h
      obtain ⟨l, hl, rfl⟩ := layout_of_comma? hcomma
      obtain ⟨l', hl', rfl⟩ := exists_layout h (by simp)
      exact ⟨_, .comma hl hl', by simp⟩

/-- **Pairs behind commas are written where they are read**, no matter in what way the
text goes on to the closing brace without another pair. -/
theorem writes_of_readMorePairs {s rest : List Char} {ps : List (String × Value)}
    (h : readMorePairs s = .ok (ps, rest)) :
    ∃ w, s = w ++ rest ∧
      ∀ tail, WritesMorePairs [] tail → WritesMorePairs ps (w ++ tail) := by
  fun_induction readMorePairs s generalizing ps with
  | case1 s hcomma =>
      cases h
      exact ⟨[], rfl, fun _ htail => htail⟩
  | case2 => simp at h
  | case3 s behind hcomma hpair =>
      cases h
      exact ⟨[], rfl, fun _ htail => htail⟩
  | case4 => simp at h
  | case5 s behind hcomma p s₁ hpair ps s₂ hmore ih =>
      cases h
      obtain ⟨l, hl, rfl⟩ := layout_of_comma? hcomma
      obtain ⟨l', w, hl', hp, rfl⟩ := writes_of_readPair hpair
      obtain ⟨w', rfl, hps⟩ := ih hmore
      refine ⟨l ++ ',' :: (l' ++ (w ++ w')), by simp, fun tail htail => ?_⟩
      simpa using WritesMorePairs.cons hl hl' hp (hps tail htail)

theorem writes_of_readPairs {s rest : List Char} {ps : List (String × Value)}
    (h : readPairs s = .ok (ps, rest)) :
    ∃ w, s = w ++ rest ∧
      ∀ tail, WritesMorePairs [] tail → WritesPairs ps (w ++ tail) := by
  unfold readPairs at h
  split at h
  · simp at h
  · cases h
    exact ⟨[], rfl, fun _ htail => .none htail⟩
  · rename_i p s₁ hpair
    obtain ⟨l, w, hl, hp, rfl⟩ := writes_of_readPair hpair
    split at h
    · simp at h
    · rename_i hmore
      cases h
      obtain ⟨w', rfl, hps⟩ := writes_of_readMorePairs hmore
      refine ⟨l ++ (w ++ w'), by simp, fun tail htail => ?_⟩
      simpa using WritesPairs.cons hl hp (hps tail htail)

/-! ## 2. Statements -/

/-- **Conditions are written where they are read**, and where none are read there
is nothing. -/
theorem writes_of_readConditions {s rest : List Char}
    {pairs : Option (List (String × Value))} (h : readConditions s = .ok (pairs, rest)) :
    ∃ w, WritesConditions pairs w ∧ s = w ++ rest := by
  unfold readConditions at h
  split at h
  · rename_i body hopen
    obtain ⟨l, hl, rfl⟩ := exists_layout hopen (by simp)
    split at h
    · simp at h
    · rename_i ps s₁ hpairs
      split at h
      · rename_i s₂ hclose
        cases h
        obtain ⟨w, rfl, hps⟩ := writes_of_readPairs hpairs
        obtain ⟨tail, htail, rfl⟩ := writes_of_closes hclose
        exact ⟨_, .braces hl (hps tail htail), by simp⟩
      · simp at h
  · cases h
    exact ⟨[], .absent, rfl⟩

theorem eq_append_of_verb? {s rest : List Char} {e : Effect}
    (h : verb? s = some (e, rest)) :
    s = e.verb.toList ++ rest := by
  unfold verb? at h
  split at h
  · rename_i hword
    cases h
    exact eq_append_of_keyword? hword
  · obtain ⟨r, hword, heq⟩ := Option.map_eq_some_iff.mp h
    cases heq
    exact eq_append_of_keyword? hword

theorem blanks_of_afterBlanks? {s rest : List Char} (h : afterBlanks? s = some rest) :
    ∃ b, Blanks b ∧ s = b ++ rest := by
  unfold afterBlanks? at h
  split at h
  · simp at h
  · rename_i c s
    split at h
    · rename_i hc
      cases h
      refine ⟨c :: s.takeWhile isBlank, ⟨by simp, ?_⟩, ?_⟩
      · exact List.forall_mem_cons.mpr ⟨hc, List.all_eq_true.mp List.all_takeWhile⟩
      · rw [List.cons_append, List.takeWhile_append_dropWhile]
    · simp at h

/-- A name goes on whatever name it is written behind. -/
theorem IsName.not_stops {w : List Char} (h : IsName w) (r : List Char) :
    ¬ Stops isIdentifierRest (w ++ r) := by
  obtain ⟨hc, -⟩ := h
  intro hstops
  have hrest := (Text.stops_cons ..).mp hstops
  simp_all [isIdentifierStart, isIdentifierRest, Char.isAlphanum]

/-- Behind layout there is a name. If there is another name before that layout, it is
not empty: that name would have gone on. -/
theorem exists_layout_name {s rest : List Char} {name : String}
    (hstops : Stops isIdentifierRest s)
    (h : identifier? (skipLayout s) = some (name, rest)) :
    ∃ l, Layout l ∧ l ≠ [] ∧ IsName name.toList ∧ Stops isIdentifierRest rest ∧
      s = l ++ (name.toList ++ rest) := by
  obtain ⟨hname, hstops', hs⟩ := isName_of_identifier? h
  obtain ⟨l, hl, rfl⟩ := exists_layout hs (by simp [hname.ne_nil])
  refine ⟨l, hl, ?_, hname, hstops', rfl⟩
  intro hnil
  rw [hnil] at hstops
  exact hname.not_stops rest hstops

/-- **A statement is written where it is read**, behind layout. If it has no
conditions, its subject does not go on behind it. -/
theorem writes_of_readStatement {s rest : List Char} {st : Statement}
    (h : readStatement s = .ok (some (st, rest))) :
    ∃ l w, Layout l ∧ WritesStatement st w ∧ s = l ++ (w ++ rest) ∧
      (st.pairs = none → Stops isIdentifierRest rest) := by
  unfold readStatement at h
  split at h
  · simp at h
  · rename_i e s₁ hverb
    obtain ⟨l, hl, rfl⟩ :=
      exists_layout (eq_append_of_verb? hverb) (by cases e <;> simp [Effect.verb])
    split at h
    · simp at h
    · rename_i s₂ hblanks
      obtain ⟨b, hb, rfl⟩ := blanks_of_afterBlanks? hblanks
      split at h
      · simp at h
      · rename_i action s₃ hread
        obtain ⟨haction, hstops, rfl⟩ := isName_of_identifier? hread
        split at h
        · simp at h
        · rename_i subject s₄ hread'
          obtain ⟨l', hl', hne, hsubject, hstops', rfl⟩ :=
            exists_layout_name hstops hread'
          split at h
          · simp at h
          · rename_i pairs s₅ hconditions
            cases h
            obtain ⟨w, hw, rfl⟩ := writes_of_readConditions hconditions
            refine ⟨l, _, hl, .intro hb haction hl' hne hsubject hw, by simp, ?_⟩
            rintro rfl
            cases hw
            exact hstops'

/-- A verb goes on whatever name it is written behind. -/
theorem verb_not_stops (e : Effect) (r : List Char) :
    ¬ Stops isIdentifierRest (e.verb.toList ++ r) := by
  cases e <;> simp [Effect.verb, isIdentifierRest]

theorem WritesStatement.not_stops {st : Statement} {w : List Char}
    (h : WritesStatement st w) (r : List Char) : ¬ Stops isIdentifierRest (w ++ r) := by
  obtain ⟨-, -, -, -, -, -⟩ := h
  rw [List.append_assoc]
  exact verb_not_stops _ _

/-- **Statements are written where they are read**, and layout up to the end of the text
is all that need follow. -/
theorem exists_writesStatements {s rest : List Char} {sts : List Statement}
    (h : readStatements s = .ok (sts, rest)) (afterName : Bool)
    (hname : afterName = true → Stops isIdentifierRest s) :
    ∃ w, s = w ++ rest ∧
      ∀ tail, FinalLayout tail → WritesStatements afterName sts (w ++ tail) := by
  fun_induction readStatements s generalizing sts afterName with
  | case1 => simp at h
  | case2 s hst =>
      cases h
      exact ⟨[], rfl, fun _ htail => .done htail⟩
  | case3 => simp at h
  | case4 s st s₁ hst sts s₂ hmore ih =>
      cases h
      obtain ⟨l, w, hl, hw, rfl, hstops⟩ := writes_of_readStatement hst
      have hne : afterName = true → l ≠ [] := by
        rintro hafter rfl
        exact hw.not_stops s₁ (hname hafter)
      obtain ⟨w', rfl, hsts⟩ := ih hmore st.pairs.isNone
        fun hnone => hstops (Option.isNone_iff_eq_none.mp hnone)
      refine ⟨l ++ (w ++ w'), by simp, fun tail htail => ?_⟩
      simpa using WritesStatements.cons hl hne hw (hsts tail htail)

/-- Statements up to the end of the text are written there. -/
theorem writes_of_readStatements {s rest : List Char} {sts : List Statement}
    (h : readStatements s = .ok (sts, rest)) (hend : skipLayout rest = [])
    (afterName : Bool) (hname : afterName = true → Stops isIdentifierRest s) :
    WritesStatements afterName sts s := by
  obtain ⟨w, rfl, hw⟩ := exists_writesStatements h afterName hname
  exact hw rest (finalLayout_of_skipLayout hend)

/-! ## 3. Policies -/

/-- **What is read as a policy is a way of writing it.** Character by character
the text is layout, the statements that were read, in their order, and the words
they consist of; and each name, number and string among these is what the grammar
says its characters stand for. -/
theorem writes_of_parse {statements : List Statement} {text : String}
    (h : parse text = .ok statements) : WritesPolicy statements text := by
  unfold parse at h
  split at h
  · simp at h
  · rename_i sts s hread
    split at h
    · rename_i hend
      cases h
      exact writes_of_readStatements hread hend false (by simp)
    · simp at h

theorem writes_of_parse_adjacent :
    let text := "# who\ncannot edit.all\tPost\x7b,\x7dcan read Post# end"
    let statements : List Statement :=
      [⟨.deny, "edit.all", "Post", some []⟩, ⟨.allow, "read", "Post", none⟩]
    parse text = .ok statements ∧ WritesPolicy statements text := by
  intro text statements
  have hfirst : readStatement text.toList =
      .ok (some (⟨.deny, "edit.all", "Post", some []⟩, "can read Post# end".toList)) := by
    cbv
  have hsecond : readStatement "can read Post# end".toList =
      .ok (some (⟨.allow, "read", "Post", none⟩, "# end".toList)) := by cbv
  have hend : readStatement "# end".toList = .ok none := by cbv
  have hparse : parse text = .ok statements := by
    rw [parse, readStatements_cons hfirst
        (readStatements_cons hsecond (readStatements_none hend))]
    cbv
  exact ⟨hparse, writes_of_parse hparse⟩

end RowAccess.PolicyText
