/-
RowAccess.Proofs.PolicyText.Acceptance — every way of writing a policy is read as
the policy it stands for.

A reader is given the text of its part with anything behind it, and returns the
part and what is behind. What may not be behind is said by `Stops`: a name or a
numeral must not go on. In a policy something else always follows, since layout,
a comma or a brace does.

Twice a reader looks ahead and goes back. A comma behind the last pair is left in
place, to be taken as the further comma that braces may end with (`Closes`); and
layout behind a subject is left in place if no brace follows it. Therefore the
statements about pairs and statements say where reading stops, up to what will be
passed over there.

* `readMorePairs_append`, `readConditions_append` — conditions.
* `readStatement_append`, `readStatements_of_writes` — statements.
* `parse_of_writes` — policies.
-/
import RowAccess.PolicyText.Diagnostic
import RowAccess.Proofs.PolicyText.Words

namespace RowAccess.PolicyText

open Text (keyword?_append keyword?_eq_none Stops stops_nil stops_cons)

/-! ## 1. What words and layout start with -/

/-- The characters with which layout starts. -/
def layoutStarts : List Char := [' ', '\t', '\n', '\r', '\x0c', '#']

theorem mem_layoutStarts {c : Char} (hc : isLayoutStart c = true) : c ∈ layoutStarts := by
  simpa [isLayoutStart, isBlank, layoutStarts, or_assoc] using hc

/-- A character of a class that has none of the starts of layout starts none. -/
theorem isLayoutStart_eq_false {p : Char → Bool} (hp : layoutStarts.all (!p ·) = true)
    {c : Char} (hc : p c = true) : isLayoutStart c = false := by
  rw [Bool.eq_false_iff]
  intro h
  have hnot := List.all_eq_true.mp hp c (mem_layoutStarts h)
  simp [hc] at hnot

/-- Layout does not go on what stands before it. -/
theorem Layout.stops_append {p : Char → Bool} (hp : layoutStarts.all (!p ·) = true)
    {l : List Char} (hl : Layout l) {s : List Char} (hs : l = [] → Stops p s) :
    Stops p (l ++ s) := by
  have hstart : ∀ c, isLayoutStart c = true → p c = false := by
    intro c hc
    simpa using List.all_eq_true.mp hp c (mem_layoutStarts hc)
  cases hl with
  | nil => exact hs rfl
  | blank hc _ => exact (stops_cons ..).mpr (hstart _ (by simp [isLayoutStart, hc]))
  | comment _ _ _ => exact (stops_cons ..).mpr (hstart _ (by decide))

theorem Layout.stops_of_ne_nil {p : Char → Bool} (hp : layoutStarts.all (!p ·) = true)
    {l : List Char} (hl : Layout l) (hne : l ≠ []) (s : List Char) : Stops p (l ++ s) :=
  hl.stops_append hp fun h => absurd h hne

/-- A mark does not go on what stands before it, nor does layout in between. -/
theorem Layout.stops_mark {p : Char → Bool} (hp : layoutStarts.all (!p ·) = true)
    {l : List Char} (hl : Layout l) {c : Char} (hc : p c = false) (s : List Char) :
    Stops p (l ++ c :: s) :=
  hl.stops_append hp fun _ => (stops_cons ..).mpr hc

theorem skipLayout_mark {l : List Char} (hl : Layout l) {c : Char}
    (hc : isLayoutStart c = false) (s : List Char) : skipLayout (l ++ c :: s) = c :: s :=
  skipLayout_append_word hl ((stops_cons ..).mpr hc)

theorem FinalLayout.stops {p : Char → Bool} (hp : layoutStarts.all (!p ·) = true)
    {l : List Char} (hl : FinalLayout l) : Stops p l := by
  cases hl with
  | layout hl => simpa using hl.stops_append hp (s := []) (by simp)
  | comment hl _ =>
      exact hl.stops_mark hp (by simpa using List.all_eq_true.mp hp '#' (by decide)) _

theorem IsName.stops {w : List Char} (h : IsName w) (r : List Char) :
    Stops isLayoutStart (w ++ r) := by
  obtain ⟨hc, -⟩ := h
  exact (stops_cons ..).mpr (isLayoutStart_eq_false (by decide) hc)

theorem IsName.stops_blank {w : List Char} (h : IsName w) (r : List Char) :
    Stops isBlank (w ++ r) :=
  fun c hc => (Bool.or_eq_false_iff.mp (h.stops r c hc)).1

theorem WritesField.stops {name : String} {w : List Char} (h : WritesField name w)
    (r : List Char) : Stops isLayoutStart (w ++ r) := by
  cases h with
  | quoted h =>
      obtain ⟨-⟩ := h
      exact (stops_cons ..).mpr (by decide)
  | bare h => exact h.stops r

theorem Digits.stops {ds : List Char} (h : Digits ds) (negative : Bool) (r : List Char) :
    Stops isLayoutStart (signText negative ++ (ds ++ r)) := by
  obtain ⟨hne, hds⟩ := h
  cases negative with
  | true => exact (stops_cons ..).mpr (by decide)
  | false =>
      cases ds with
      | nil => exact absurd rfl hne
      | cons d ds =>
          exact (stops_cons ..).mpr
            (isLayoutStart_eq_false (p := Char.isDigit) (by decide) (hds d (by simp)))

theorem WritesValue.stops {v : Value} {w : List Char} (h : WritesValue v w)
    (r : List Char) :
    Stops isLayoutStart (w ++ r) := by
  cases h with
  | text h =>
      obtain ⟨-⟩ := h
      exact (stops_cons ..).mpr (by decide)
  | yes => exact (stops_cons ..).mpr (by decide)
  | no => exact (stops_cons ..).mpr (by decide)
  | whole hds _ => simpa using hds.stops _ r
  | decimal hds _ => simpa using hds.stops _ _

/-! ## 2. Pairs -/

/-- **A pair is read**, with the layout before it. -/
theorem readPair_append {p : String × Value} {l w r : List Char} (hl : Layout l)
    (h : WritesPair p w) (hr : Stops continuesNumeral r) :
    readPair (l ++ (w ++ r)) = .ok (some (p, r)) := by
  obtain ⟨hfield, hl₁, hl₂, hvalue⟩ := h
  unfold readPair
  simp only [List.append_assoc, List.cons_append]
  rw [skipLayout_append_word hl (hfield.stops _),
      fieldName?_append hfield (hl₁.stops_mark (by decide) (by decide) _)]
  simp only
  rw [skipLayout_mark hl₁ (by decide)]
  simp only
  rw [skipLayout_append_word hl₂ (hvalue.stops r), readValue_append hvalue hr]

/-- Where no field is named there is no pair. -/
theorem readPair_eq_none {l : List Char} {c : Char} (hl : Layout l) (hc : c ∈ [',', '}'])
    (s : List Char) : readPair (l ++ c :: s) = .ok none := by
  have hname : isLayoutStart c = false ∧ c ≠ '"' ∧ isIdentifierStart c = false := by
    simp only [List.mem_cons, List.not_mem_nil, or_false] at hc
    obtain rfl | rfl := hc <;> decide
  unfold readPair
  rw [skipLayout_mark hl hname.1, fieldName?, quoted?_eq_none (by simpa using hname.2.1),
      Option.none_or, identifier?, if_neg (by simp [hname.2.2])]

theorem comma?_append {l : List Char} (hl : Layout l) (s : List Char) :
    comma? (l ++ ',' :: s) = some s := by
  rw [comma?, skipLayout_mark hl (by decide)]
  rfl

theorem comma?_eq_none {l : List Char} (hl : Layout l) (s : List Char) :
    comma? (l ++ '}' :: s) = none := by
  rw [comma?, skipLayout_mark hl (by decide)]
  rfl

/-- Behind the pairs, and a comma if there is one, a brace closes the conditions.
What follows it is `r`. -/
def Closes (s r : List Char) : Prop := skipLayout ((comma? s).getD s) = '}' :: r

theorem readMorePairs_none {s : List Char} (h : comma? s = none) :
    readMorePairs s = .ok ([], s) := by
  rw [readMorePairs]
  split
  · rfl
  · simp_all

theorem readMorePairs_noPair {s behind : List Char} (hcomma : comma? s = some behind)
    (hpair : readPair behind = .ok none) : readMorePairs s = .ok ([], s) := by
  rw [readMorePairs]
  split
  · simp_all
  · split <;> simp_all

theorem readMorePairs_cons {s behind rest s' : List Char} {p : String × Value}
    {ps : List (String × Value)} (hcomma : comma? s = some behind)
    (hpair : readPair behind = .ok (some (p, rest)))
    (hmore : readMorePairs rest = .ok (ps, s')) :
    readMorePairs s = .ok (p :: ps, s') := by
  rw [readMorePairs]
  split
  · simp_all
  · split <;> simp_all

/-- What stands between the last pair, or the opening brace, and the closing one
is no pair. -/
theorem closes_of_writes {w : List Char} (h : WritesMorePairs [] w) (r : List Char) :
    readMorePairs (w ++ '}' :: r) = .ok ([], w ++ '}' :: r) ∧
      readPair (w ++ '}' :: r) = .ok none ∧ Closes (w ++ '}' :: r) r := by
  cases h with
  | done hl =>
      refine ⟨readMorePairs_none (comma?_eq_none hl r),
        readPair_eq_none hl (by simp) r, ?_⟩
      rw [Closes, comma?_eq_none hl, Option.getD_none]
      exact skipLayout_mark hl (by decide) r
  | comma hl hl' =>
      rw [List.append_assoc, List.cons_append]
      refine ⟨readMorePairs_noPair (comma?_append hl _)
          (readPair_eq_none hl' (by simp) r),
        readPair_eq_none hl (by simp) _, ?_⟩
      rw [Closes, comma?_append hl, Option.getD_some]
      exact skipLayout_mark hl' (by decide) r

/-- No numeral goes on into what follows a pair. -/
theorem WritesMorePairs.stops {ps : List (String × Value)} {w : List Char}
    (h : WritesMorePairs ps w) (r : List Char) :
    Stops continuesNumeral (w ++ '}' :: r) := by
  cases h with
  | done hl => exact hl.stops_mark (by decide) (by decide) _
  | comma hl _ =>
      rw [List.append_assoc]
      exact hl.stops_mark (by decide) (by decide) _
  | cons hl _ _ _ =>
      rw [List.append_assoc]
      exact hl.stops_mark (by decide) (by decide) _

/-- **Pairs behind commas are read**, up to where braces close. -/
theorem readMorePairs_append {ps : List (String × Value)} {w : List Char}
    (h : WritesMorePairs ps w) (r : List Char) :
    ∃ s, readMorePairs (w ++ '}' :: r) = .ok (ps, s) ∧ Closes s r := by
  induction h with
  | done hl =>
      obtain ⟨hread, -, hclose⟩ := closes_of_writes (.done hl) r
      exact ⟨_, hread, hclose⟩
  | comma hl hl' =>
      obtain ⟨hread, -, hclose⟩ := closes_of_writes (.comma hl hl') r
      exact ⟨_, hread, hclose⟩
  | cons hl hl' hp hps ih =>
      obtain ⟨s, hread, hclose⟩ := ih
      have hpair := readPair_append hl' hp (hps.stops r)
      rw [List.append_assoc, List.cons_append, List.append_assoc, List.append_assoc]
      exact ⟨s, readMorePairs_cons (comma?_append hl _) hpair hread, hclose⟩

theorem readPairs_append {ps : List (String × Value)} {w : List Char}
    (h : WritesPairs ps w) (r : List Char) :
    ∃ s, readPairs (w ++ '}' :: r) = .ok (ps, s) ∧ Closes s r := by
  cases h with
  | none h =>
      obtain ⟨-, hread, hclose⟩ := closes_of_writes h r
      exact ⟨_, by rw [readPairs, hread], hclose⟩
  | cons hl hp hps =>
      obtain ⟨s, hread, hclose⟩ := readMorePairs_append hps r
      refine ⟨s, ?_, hclose⟩
      rw [List.append_assoc, List.append_assoc, readPairs,
          readPair_append hl hp (hps.stops r)]
      simp only
      rw [hread]

/-! ## 3. Statements -/

/-- **Conditions are read**, and the lack of them, unless a brace follows. -/
theorem readConditions_append {pairs : Option (List (String × Value))} {w r : List Char}
    (h : WritesConditions pairs w) (hr : pairs = none → (skipLayout r).head? ≠ some '{') :
    readConditions (w ++ r) = .ok (pairs, r) := by
  cases h with
  | absent =>
      rw [List.nil_append, readConditions]
      split
      · rename_i hbrace
        exact absurd (by rw [hbrace]; rfl) (hr rfl)
      · rfl
  | @braces ps l body hl hps =>
      obtain ⟨s, hread, hclose⟩ := readPairs_append hps r
      have hopen : skipLayout ((l ++ '{' :: (body ++ ['}'])) ++ r) =
          '{' :: (body ++ '}' :: r) := by
        rw [List.append_assoc, List.cons_append, skipLayout_mark hl (by decide)]
        simp
      rw [readConditions, hopen]
      simp only
      rw [hread]
      simp only
      rw [hclose]
      rfl

theorem WritesConditions.stops {pairs : Option (List (String × Value))} {w r : List Char}
    (h : WritesConditions pairs w) (hr : pairs = none → Stops isIdentifierRest r) :
    Stops isIdentifierRest (w ++ r) := by
  cases h with
  | absent => exact hr rfl
  | braces hl _ =>
      rw [List.append_assoc]
      exact hl.stops_mark (by decide) (by decide) _

theorem verb_stops (e : Effect) (r : List Char) :
    Stops isLayoutStart (e.verb.toList ++ r) := by
  cases e <;> exact (stops_cons ..).mpr (by decide)

theorem Blanks.head_ne {b : List Char} (hb : Blanks b) (r : List Char) :
    (b ++ r).head? ≠ some 'n' := by
  obtain ⟨hne, hb⟩ := hb
  cases b with
  | nil => exact absurd rfl hne
  | cons c b =>
      intro h
      obtain rfl : c = 'n' := by simpa using h
      exact absurd (hb 'n' (by simp)) (by decide)

theorem verb?_append (e : Effect) {r : List Char} (hr : r.head? ≠ some 'n') :
    verb? (e.verb.toList ++ r) = some (e, r) := by
  cases e with
  | deny => rw [verb?, keyword?_append]
  | allow =>
      have hdeny :
          Text.keyword? Effect.deny.verb (Effect.allow.verb.toList ++ r) = none := by
        rw [Text.keyword?, if_neg]
        rintro ⟨t, ht⟩
        have hnot : r = 'n' :: 'o' :: 't' :: t := by simpa [Effect.verb] using ht.symm
        exact hr (by rw [hnot]; rfl)
      rw [verb?, hdeny, keyword?_append]
      rfl

theorem afterBlanks?_append {b r : List Char} (hb : Blanks b) (hr : Stops isBlank r) :
    afterBlanks? (b ++ r) = some r := by
  obtain ⟨hne, hb⟩ := hb
  cases b with
  | nil => exact absurd rfl hne
  | cons c b =>
      obtain ⟨hc, hb⟩ := List.forall_mem_cons.mp hb
      rw [List.cons_append, afterBlanks?, if_pos hc, (Text.takeWhile_append_stop hb hr).2]

/-- **A statement is read**, with the layout before it. -/
theorem readStatement_append {st : Statement} {l w r : List Char} (hl : Layout l)
    (h : WritesStatement st w) (hname : st.pairs = none → Stops isIdentifierRest r)
    (hbrace : st.pairs = none → (skipLayout r).head? ≠ some '{') :
    readStatement (l ++ (w ++ r)) = .ok (some (st, r)) := by
  obtain ⟨hblanks, haction, hl₁, hne, hsubject, hconditions⟩ := h
  have hstops := hconditions.stops hname
  unfold readStatement
  simp only [List.append_assoc]
  rw [skipLayout_append_word hl (verb_stops _ _), verb?_append _ (hblanks.head_ne _)]
  simp only
  rw [afterBlanks?_append hblanks (haction.stops_blank _)]
  simp only
  rw [identifier?_append haction (hl₁.stops_of_ne_nil (by decide) hne _)]
  simp only
  rw [skipLayout_append_word hl₁ (hsubject.stops _), identifier?_append hsubject hstops]
  simp only
  rw [readConditions_append hconditions hbrace]

theorem readStatement_eq_none {s : List Char} (h : skipLayout s = []) :
    readStatement s = .ok none := by
  rw [readStatement, h]
  rfl

theorem readStatements_error {s : List Char} {f : Failure}
    (h : readStatement s = .error f) :
    readStatements s = .error f := by
  rw [readStatements]
  split <;> simp_all

theorem readStatements_none {s : List Char} (h : readStatement s = .ok none) :
    readStatements s = .ok ([], s) := by
  rw [readStatements]
  split <;> simp_all

theorem readStatements_cons {s rest s' : List Char} {st : Statement}
    {sts : List Statement} (hst : readStatement s = .ok (some (st, rest)))
    (hsts : readStatements rest = .ok (sts, s')) :
    readStatements s = .ok (st :: sts, s') := by
  rw [readStatements]
  split <;> simp_all

/-- Statements do not go on the name before them. -/
theorem WritesStatements.stops {sts : List Statement} {w : List Char}
    (h : WritesStatements true sts w) : Stops isIdentifierRest w := by
  cases h with
  | done hl => exact hl.stops (by decide)
  | cons hl hne _ _ => exact hl.stops_of_ne_nil (by decide) (hne rfl) _

/-- Statements do not start with a brace. -/
theorem WritesStatements.head_ne {afterName : Bool} {sts : List Statement} {w : List Char}
    (h : WritesStatements afterName sts w) : (skipLayout w).head? ≠ some '{' := by
  cases h with
  | done hl => simp [skipLayout_eq_nil hl]
  | @cons _ st _ _ _ _ hl _ hst _ =>
      obtain ⟨-, -, -, -, -, -⟩ := hst
      rw [List.append_assoc, skipLayout_append_word hl (verb_stops _ _)]
      cases st.effect <;> simp [Effect.verb]

/-- **Statements are read**, up to the layout at the end of the text. -/
theorem readStatements_of_writes {afterName : Bool} {sts : List Statement} {w : List Char}
    (h : WritesStatements afterName sts w) :
    ∃ s, readStatements w = .ok (sts, s) ∧ skipLayout s = [] := by
  induction h with
  | done hl =>
      have hnil := skipLayout_eq_nil hl
      exact ⟨_, readStatements_none (readStatement_eq_none hnil), hnil⟩
  | cons hl _ hst hsts ih =>
      obtain ⟨s, hread, hend⟩ := ih
      refine ⟨s, readStatements_cons (readStatement_append hl hst ?_ ?_) hread, hend⟩
      · intro hnone
        exact WritesStatements.stops (by simpa [hnone] using hsts)
      · exact fun _ => hsts.head_ne

/-! ## 4. Policies -/

/-- **Every way of writing a policy is read as that policy.** Whatever layout
stands between the words, whichever fields are quoted, characters escaped and
numerals padded, and whether or not braces end with a comma: the statements come
back, all of them and in their order. -/
theorem parse_of_writes {statements : List Statement} {text : String}
    (h : WritesPolicy statements text) : parse text = .ok statements := by
  obtain ⟨s, hread, hend⟩ := readStatements_of_writes h
  rw [parse, hread]
  simp only
  rw [hend]

/-- A grant with braces but no pair, a denial with a field named twice, and a grant
whose names are verbs. -/
def oddStatements : List Statement :=
  [⟨.allow, "read", "Post", some []⟩,
    ⟨.deny, "a.b", "all",
      some [("\"\\k", .int (-7)), ("n", .bool true), ("n", .text "\n")]⟩,
    ⟨.allow, "can", "can", none⟩]

/-- A way of writing them, with line ends of all kinds and as little layout as
there may be. -/
def oddText : String :=
  "#1\r\ncan\x0c\nread#\nPost\x7b,\x7dcannot a.b all\r\x7b" ++
    "\"\\\"\\k\":-007 , n\n: true,n:\"\\n\",\x7dcan can #\ncan#"

theorem writesPolicy_odd : WritesPolicy oddStatements oddText := by
  have hspace : Layout [' '] := .blank (by decide) .nil
  have hline : Layout ['\n'] := .blank (by decide) .nil
  have hreturn : Layout ['\r'] := .blank (by decide) .nil
  have hcomment : Layout "#\n".toList :=
    @Layout.comment [] ['\n'] _ (by decide) (by decide) .nil
  have hstart : Layout "#1\r\n".toList :=
    @Layout.comment ['1'] ['\r', '\n'] _ (by decide) (by decide) .nil
  have hquoted : WritesField "\"\\k" "\"\\\"\\k\"".toList :=
    .quoted (.intro (.quote (.other (by decide) .nil)))
  have hbare : WritesField "n" "n".toList := .bare (by decide)
  have hnumber : WritesValue (.int (-7)) "-007".toList :=
    @WritesValue.whole true "007".toList _ (by decide) (by decide)
  have htext : WritesValue (.text "\n") "\"\\n\"".toList := .text (.intro (.newline .nil))
  have hfirst : WritesStatement ⟨.allow, "read", "Post", some []⟩ _ :=
    @WritesStatement.intro _ "\x0c\n".toList _ _ (by decide) (by decide)
      hcomment (by decide) (by decide) (.braces .nil (.none (.comma .nil .nil)))
  have hsecond : WritesStatement
      ⟨.deny, "a.b", "all",
        some [("\"\\k", .int (-7)), ("n", .bool true), ("n", .text "\n")]⟩ _ :=
    @WritesStatement.intro _ [' '] _ _ (by decide) (by decide)
      hspace (by decide) (by decide)
      (.braces hreturn (.cons .nil (.intro hquoted .nil .nil hnumber)
        (.cons hspace hspace (.intro hbare hline hspace .yes)
          (.cons .nil .nil (.intro hbare .nil .nil htext) (.comma .nil .nil)))))
  have hthird : WritesStatement ⟨.allow, "can", "can", none⟩ _ :=
    @WritesStatement.intro _ [' '] " #\n".toList _ (by decide) (by decide)
      (hspace.append hcomment) (by decide) (by decide) .absent
  have hend : FinalLayout "#".toList := @FinalLayout.comment [] [] .nil (by decide)
  have hall : WritesStatements false oddStatements _ :=
    .cons hstart nofun hfirst
      (.cons .nil nofun hsecond (.cons .nil nofun hthird (.done hend)))
  unfold WritesPolicy oddText
  simpa [Effect.verb] using hall

theorem parse_of_writes_odd : WritesPolicy oddStatements oddText ∧
    parse oddText = .ok oddStatements :=
  ⟨writesPolicy_odd, parse_of_writes writesPolicy_odd⟩

end RowAccess.PolicyText
