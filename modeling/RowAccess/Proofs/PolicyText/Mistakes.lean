/-
RowAccess.Proofs.PolicyText.Mistakes — where the mistake of a text is shown.

A diagnostic points at the place where reading stopped. That place is never behind the
first mistake: what stands before it is the beginning of some policy, so up to there
nothing need be changed.

Each reader that fails is shown to stop behind the beginning of something it reads
(`Begins`), by giving a completion. Where a reader is due, its shortest text completes
what there is: a name behind a verb, a colon and a value behind a field, a brace behind
pairs. A whole number that is too large becomes a value by a point and a digit. Layout
takes care: if the text ends in a comment without line end, a completion has to end the
line first, or it would belong to the comment (`Begins.behindLayout`).

* `Begins` — what was read is the beginning of a text of some kind.
* `begins_of_missingColon`, `begins_of_missingBrace`, `begins_of_missingSubject` — what
  is missing can be put where it was looked for.
* `begins_of_readValue`, `begins_of_readConditions`, `begins_of_readStatements` — each
  reader stops behind the beginning of what it reads.
* `caret_before_mistake` — so does the reader of policies.
-/
import RowAccess.Proofs.PolicyText.Loading

namespace RowAccess.PolicyText

open Text (Stops)

/-! ## 1. Beginnings -/

/-- What stands in `s` before `rest` is the beginning of a text with `P`. -/
def Begins (P : List Char → Prop) (s rest : List Char) : Prop :=
  ∃ before completion, s = before ++ rest ∧ P (before ++ completion)

namespace Begins

variable {P Q : List Char → Prop} {s rest : List Char}

/-- Where nothing was read, anything may be due. -/
theorem here (w s : List Char) : Begins (· = w) s s := ⟨[], w, rfl, rfl⟩

/-- What was read before is part of the beginning. -/
theorem prepend (h : Begins P s rest) (u : List Char) (hQ : ∀ w, P w → Q (u ++ w)) :
    Begins Q (u ++ s) rest := by
  obtain ⟨before, completion, rfl, hP⟩ := h
  exact ⟨u ++ before, completion, (List.append_assoc ..).symm, by
    rw [List.append_assoc]; exact hQ _ hP⟩

/-- A completion goes on with what has to follow. -/
theorem complete (h : Begins P s rest) (c : List Char) (hQ : ∀ w, P w → Q (w ++ c)) :
    Begins Q s rest := by
  obtain ⟨before, completion, hs, hP⟩ := h
  refine ⟨before, completion ++ c, hs, ?_⟩
  rw [← List.append_assoc]
  exact hQ _ hP

theorem mono (h : Begins P s rest) (hQ : ∀ w, P w → Q w) : Begins Q s rest :=
  h.prepend [] hQ

/-- Layout before a beginning is part of it. A comment at the end of the text is ended
together with its line. -/
theorem behindLayout (h : Begins P (skipLayout s) rest)
    (hQ : ∀ l w, Layout l → P w → Q (l ++ w)) : Begins Q s rest := by
  obtain ⟨l, hs, hl | ⟨hnil, hl⟩⟩ := passesOver_skipLayout s
  · rw [hs]
    exact h.prepend l fun w => hQ l w hl
  · rw [hnil] at h hs
    obtain ⟨before, completion, hbefore, hP⟩ := h
    obtain ⟨rfl, rfl⟩ := List.append_eq_nil_iff.mp hbefore.symm
    refine ⟨l, '\n' :: completion, hs, ?_⟩
    have hline := hQ (l ++ ['\n']) completion hl.line (by simpa using hP)
    simpa using hline

end Begins

/-! ## 2. Values -/

/-- The shortest whole number, with a sign or without. -/
theorem writesValue_zero (negative : Bool) :
    WritesValue (.int 0) (signText negative ++ ['0']) :=
  .whole (by decide) (by cases negative <;> decide)

/-- **Where no number can be read, one begins**: a sign is completed by a digit, and
digits of which 64 bits do not hold the number by a point and a digit. -/
theorem begins_of_readNumber {s : List Char} {f : Failure} (h : readNumber s = .error f) :
    Begins (fun w => ∃ v, WritesValue v w) s f.rest := by
  have hsign := eq_signText_append s
  unfold readNumber at h
  generalize sign s = signed at h hsign
  obtain ⟨negative, s'⟩ := signed
  simp only at h hsign
  split at h
  · cases h
    exact ⟨signText negative, ['0'], hsign, _, writesValue_zero negative⟩
  · rename_i ds s₁ hdigits
    obtain ⟨hds, rfl⟩ := digits_of_digits? hdigits
    split at h
    · simp at h
    · split at h
      · simp at h
      · cases h
        have hplaces : Digits ['0'] := by decide
        have hpoint := @WritesValue.decimal negative _ _ hds hplaces
        exact ⟨signText negative ++ ds, ['.', '0'], by simp [hsign],
          _, by simpa using hpoint⟩

theorem begins_of_readValue {s : List Char} {f : Failure} (h : readValue s = .error f) :
    Begins (fun w => ∃ v, WritesValue v w) s f.rest := by
  unfold readValue at h
  split at h
  · simp at h
  · split at h
    · simp at h
    · split at h
      · simp at h
      · exact begins_of_readNumber h

/-! ## 3. Conditions -/

/-- What follows the field of a pair. -/
def EndsPair (w : List Char) : Prop :=
  ∃ l l' v value, Layout l ∧ Layout l' ∧ WritesValue v value ∧
    w = l ++ ':' :: (l' ++ value)

/-- A pair and the layout before it. -/
def SpacedPair (w : List Char) : Prop :=
  ∃ l p w', Layout l ∧ WritesPair p w' ∧ w = l ++ w'

/-- Where a colon is missing behind a field, a colon and a value can be put there. -/
theorem begins_of_missingColon (s : List Char) : Begins EndsPair s (skipLayout s) := by
  refine (Begins.here [':', '0'] _).behindLayout ?_
  rintro l _ hl rfl
  exact ⟨l, [], _, _, hl, .nil, writesValue_zero false, rfl⟩

theorem begins_of_valueBehindColon {s s' : List Char} {f : Failure}
    (hcolon : skipLayout s = ':' :: s') (h : readValue (skipLayout s') = .error f) :
    Begins EndsPair s f.rest := by
  obtain ⟨l, hl, rfl⟩ := exists_layout hcolon (by simp)
  have hvalue : Begins (fun w => EndsPair (l ++ ':' :: w)) s' f.rest := by
    refine (begins_of_readValue h).behindLayout ?_
    rintro l' value hl' ⟨v, hvalue⟩
    exact ⟨l, l', v, value, hl, hl', hvalue, rfl⟩
  rw [List.append_cons]
  exact hvalue.prepend _ fun w hw => by simpa using hw

/-- **Where a pair cannot be read to its end, one begins.** -/
theorem begins_of_readPair {s : List Char} {f : Failure} (h : readPair s = .error f) :
    Begins SpacedPair s f.rest := by
  unfold readPair at h
  split at h
  · simp at h
  · rename_i name s₁ hname
    obtain ⟨field, hfield, hs⟩ := writesField_of_fieldName? hname
    obtain ⟨l, hl, rfl⟩ := exists_layout hs (by simp [hfield.ne_nil])
    have hends : Begins EndsPair s₁ f.rest := by
      split at h
      · rename_i s₂ hcolon
        split at h
        · simp at h
        · rename_i hread
          cases h
          exact begins_of_valueBehindColon hcolon hread
      · cases h
        exact begins_of_missingColon s₁
    rw [← List.append_assoc]
    refine hends.prepend (l ++ field) ?_
    rintro _ ⟨l₁, l₂, v, value, hl₁, hl₂, hvalue, rfl⟩
    exact ⟨l, _, _, hl, .intro hfield hl₁ hl₂ hvalue, by simp⟩

/-- **Where one of several pairs cannot be read to its end, pairs begin.** -/
theorem begins_of_readMorePairs {s : List Char} {f : Failure}
    (h : readMorePairs s = .error f) :
    Begins (fun w => ∃ ps, WritesMorePairs ps w) s f.rest := by
  fun_induction readMorePairs s with
  | case1 => simp at h
  | case2 s behind hcomma f' hpair =>
      cases h
      obtain ⟨l, hl, rfl⟩ := layout_of_comma? hcomma
      rw [List.append_cons]
      refine (begins_of_readPair hpair).prepend _ ?_
      rintro _ ⟨l', p, w, hl', hp, rfl⟩
      exact ⟨[p], by simpa using WritesMorePairs.cons hl hl' hp (.done .nil)⟩
  | case3 => simp at h
  | case4 s behind hcomma p s₁ hpair f' hmore ih =>
      cases h
      obtain ⟨l, hl, rfl⟩ := layout_of_comma? hcomma
      obtain ⟨l', w, hl', hp, rfl⟩ := writes_of_readPair hpair
      have hpairs := (ih hmore).prepend (Q := fun w' => ∃ ps, WritesMorePairs ps w')
        (l ++ ',' :: (l' ++ w)) ?_
      · simpa using hpairs
      · rintro w' ⟨ps, hps⟩
        exact ⟨p :: ps, by simpa using WritesMorePairs.cons hl hl' hp hps⟩
  | case5 => simp at h

theorem begins_of_readPairs {s : List Char} {f : Failure} (h : readPairs s = .error f) :
    Begins (fun w => ∃ ps, WritesPairs ps w) s f.rest := by
  unfold readPairs at h
  split at h
  · rename_i hpair
    cases h
    refine (begins_of_readPair hpair).mono ?_
    rintro _ ⟨l, p, w, hl, hp, rfl⟩
    exact ⟨[p], by simpa using WritesPairs.cons hl hp (.done .nil)⟩
  · simp at h
  · rename_i p s₁ hpair
    obtain ⟨l, w, hl, hp, rfl⟩ := writes_of_readPair hpair
    split at h
    · rename_i hmore
      cases h
      rw [← List.append_assoc]
      refine (begins_of_readMorePairs hmore).prepend _ ?_
      rintro w' ⟨ps, hps⟩
      exact ⟨p :: ps, by simpa using WritesPairs.cons hl hp hps⟩
    · simp at h

/-- Where a brace is missing behind pairs, it can be put there. A comma that stands
there, and layout, may stand before it. -/
theorem begins_of_missingBrace (s : List Char) :
    Begins (fun w => ∃ tail, WritesMorePairs [] tail ∧ w = tail ++ ['}']) s
      (skipLayout ((comma? s).getD s)) := by
  cases hcomma : comma? s with
  | none =>
      refine (Begins.here ['}'] _).behindLayout ?_
      rintro l _ hl rfl
      exact ⟨l, .done hl, rfl⟩
  | some behind =>
      obtain ⟨l, hl, rfl⟩ := layout_of_comma? hcomma
      have hbrace : Begins (fun w => ∃ l', Layout l' ∧ w = l' ++ ['}']) behind
          (skipLayout behind) := by
        refine (Begins.here ['}'] _).behindLayout ?_
        rintro l' _ hl' rfl
        exact ⟨l', hl', rfl⟩
      rw [List.append_cons]
      refine hbrace.prepend _ ?_
      rintro _ ⟨l', hl', rfl⟩
      exact ⟨_, .comma hl hl', by simp⟩

/-- **Where conditions cannot be read to their closing brace, conditions begin.** -/
theorem begins_of_readConditions {s : List Char} {f : Failure}
    (h : readConditions s = .error f) :
    Begins (fun w => ∃ pairs, WritesConditions pairs w) s f.rest := by
  unfold readConditions at h
  split at h
  · rename_i body hopen
    obtain ⟨l, hl, rfl⟩ := exists_layout hopen (by simp)
    suffices hbody :
        Begins (fun w => ∃ ps r, WritesPairs ps r ∧ w = r ++ ['}']) body f.rest by
      rw [List.append_cons]
      refine hbody.prepend _ ?_
      rintro _ ⟨ps, r, hps, rfl⟩
      exact ⟨some ps, by simpa using WritesConditions.braces hl hps⟩
    split at h
    · rename_i hpairs
      cases h
      refine (begins_of_readPairs hpairs).complete ['}'] ?_
      rintro w ⟨ps, hps⟩
      exact ⟨ps, w, hps, rfl⟩
    · rename_i ps s₁ hpairs
      obtain ⟨w, rfl, hps⟩ := writes_of_readPairs hpairs
      split at h
      · simp at h
      · cases h
        refine (begins_of_missingBrace s₁).prepend w ?_
        rintro _ ⟨tail, htail, rfl⟩
        exact ⟨ps, w ++ tail, hps tail htail, by simp⟩
  · simp at h

/-! ## 4. Statements -/

/-- What follows the action of a statement. -/
def EndsNames (w : List Char) : Prop :=
  ∃ (l : List Char) (subject : String) (pairs : Option (List (String × Value)))
    (conditions : List Char), Layout l ∧ l ≠ [] ∧ IsName subject.toList ∧
      WritesConditions pairs conditions ∧ w = l ++ (subject.toList ++ conditions)

/-- What follows the verb of a statement. -/
def EndsStatement (w : List Char) : Prop :=
  ∃ (blanks : List Char) (action : String) (ends : List Char), Blanks blanks ∧
    IsName action.toList ∧ EndsNames ends ∧ w = blanks ++ (action.toList ++ ends)

/-- A statement and the layout before it, which keeps it apart from a name. -/
def SpacedStatement (afterName : Bool) (w : List Char) : Prop :=
  ∃ l st w', Layout l ∧ (afterName = true → l ≠ []) ∧ WritesStatement st w' ∧ w = l ++ w'

theorem endsNames_short : EndsNames [' ', 'a'] :=
  ⟨[' '], "a", none, [], .blank (by decide) .nil, by simp, by decide, .absent, rfl⟩

/-- Where the subject is missing behind an action, a blank and a name can be put there. -/
theorem begins_of_missingSubject (s : List Char) : Begins EndsNames s (skipLayout s) := by
  refine (Begins.here [' ', 'a'] _).behindLayout ?_
  rintro l _ hl rfl
  exact ⟨l ++ [' '], "a", none, [],
    hl.append (.blank (by decide) .nil), by simp, by decide, .absent, by simp⟩

theorem begins_of_conditionsBehindSubject {s s' : List Char} {subject : String}
    {f : Failure} (hstops : Stops isIdentifierRest s)
    (hsubject : identifier? (skipLayout s) = some (subject, s'))
    (h : readConditions s' = .error f) : Begins EndsNames s f.rest := by
  obtain ⟨l, hl, hne, hname, -, rfl⟩ := exists_layout_name hstops hsubject
  rw [← List.append_assoc]
  refine (begins_of_readConditions h).prepend _ ?_
  rintro w ⟨pairs, hw⟩
  exact ⟨l, subject, pairs, w, hl, hne, hname, hw, by simp⟩

/-- **Where a statement cannot be read to its end, one begins.** -/
theorem begins_of_readStatement {s : List Char} {f : Failure}
    (h : readStatement s = .error f) {afterName : Bool}
    (hname : afterName = true → Stops isIdentifierRest s) :
    Begins (SpacedStatement afterName) s f.rest := by
  unfold readStatement at h
  split at h
  · simp at h
  · rename_i e s₁ hverb
    obtain ⟨l, hl, rfl⟩ :=
      exists_layout (eq_append_of_verb? hverb) (by cases e <;> simp [Effect.verb])
    have hne : afterName = true → l ≠ [] := by
      rintro hafter rfl
      exact verb_not_stops e s₁ (hname hafter)
    suffices hends : Begins EndsStatement s₁ f.rest by
      rw [← List.append_assoc]
      refine hends.prepend (l ++ e.verb.toList) ?_
      rintro _ ⟨blanks, action, _, hblanks, haction,
        ⟨l', subject, pairs, conditions, hl', hne', hsubject, hconditions, rfl⟩, rfl⟩
      exact ⟨l, ⟨e, action, subject, pairs⟩, _, hl, hne,
        .intro hblanks haction hl' hne' hsubject hconditions, by simp⟩
    split at h
    · cases h
      exact (Begins.here " a a".toList s₁).mono fun w hw =>
        ⟨[' '], "a", [' ', 'a'], by decide, by decide, endsNames_short, hw⟩
    · rename_i s₂ hblanks
      obtain ⟨b, hb, rfl⟩ := blanks_of_afterBlanks? hblanks
      split at h
      · cases h
        refine (Begins.here "a a".toList s₂).prepend b fun w hw => ?_
        exact ⟨b, "a", [' ', 'a'], hb, by decide, endsNames_short, by rw [hw]; rfl⟩
      · rename_i action s₃ hread
        obtain ⟨haction, hstops, rfl⟩ := isName_of_identifier? hread
        have hends : Begins EndsNames s₃ f.rest := by
          split at h
          · cases h
            exact begins_of_missingSubject s₃
          · rename_i subject s₄ hread'
            split at h
            · rename_i hconditions
              cases h
              exact begins_of_conditionsBehindSubject hstops hread' hconditions
            · simp at h
        rw [← List.append_assoc]
        exact hends.prepend _ fun w hw => ⟨b, action, w, hb, haction, hw, by simp⟩

/-- **Where one of several statements cannot be read to its end, statements begin.** -/
theorem begins_of_readStatements {s : List Char} {f : Failure}
    (h : readStatements s = .error f) (afterName : Bool)
    (hname : afterName = true → Stops isIdentifierRest s) :
    Begins (fun w => ∃ sts, WritesStatements afterName sts w) s f.rest := by
  fun_induction readStatements s generalizing afterName with
  | case1 s f' hst =>
      cases h
      refine (begins_of_readStatement hst hname).mono ?_
      rintro _ ⟨l, st, w, hl, hne, hw, rfl⟩
      exact ⟨[st], by simpa using WritesStatements.cons hl hne hw (.done (.layout .nil))⟩
  | case2 => simp at h
  | case3 s st s₁ hst f' hmore ih =>
      cases h
      obtain ⟨l, w, hl, hw, rfl, hstops⟩ := writes_of_readStatement hst
      have hne : afterName = true → l ≠ [] := by
        rintro hafter rfl
        exact hw.not_stops s₁ (hname hafter)
      rw [← List.append_assoc]
      refine (ih hmore st.pairs.isNone fun hnone =>
        hstops (Option.isNone_iff_eq_none.mp hnone)).prepend _ ?_
      rintro w' ⟨sts, hsts⟩
      exact ⟨st :: sts, by simpa using WritesStatements.cons hl hne hw hsts⟩
  | case4 => simp at h

/-! ## 5. Policies -/

/-- **Where a text is found not to be a policy, a policy begins.** The mistake divides
the text there. -/
theorem begins_of_parse {text : String} {e : SyntaxError} (h : parse text = .error e) :
    e.before ++ e.after = text.toList ∧
      ∃ completion sts, WritesStatements false sts (e.before ++ completion) := by
  obtain ⟨f, rfl, before, completion, htext, hbegins⟩ :
      ∃ f, e = .ofFailure text.toList f ∧
      Begins (fun w => ∃ sts, WritesStatements false sts w) text.toList f.rest := by
    unfold parse at h
    split at h
    · rename_i f hread
      exact ⟨f, (Except.error.inj h).symm, begins_of_readStatements hread false (by simp)⟩
    · rename_i sts s hread
      split at h
      · simp at h
      · refine ⟨⟨skipLayout s, none⟩, (Except.error.inj h).symm, ?_⟩
        obtain ⟨w, hs, hw⟩ := exists_writesStatements hread false (by simp)
        have hlayout : Begins FinalLayout s (skipLayout s) := by
          refine (Begins.here [] _).behindLayout ?_
          rintro l _ hl rfl
          exact .layout (by simpa using hl)
        rw [hs]
        exact hlayout.prepend w fun tail htail => ⟨sts, hw tail htail⟩
  have hbefore : (SyntaxError.ofFailure text.toList f).before = before := by
    simp [SyntaxError.ofFailure, htext]
  rw [hbefore]
  exact ⟨htext.symm, completion, hbegins⟩

theorem byteLength_eq (s : List Char) :
    byteLength s = (String.ofList s).utf8ByteSize := by
  induction s with
  | nil => rfl
  | cons c s ih =>
      rw [String.ofList_cons, String.utf8ByteSize_append,
          String.utf8ByteSize_singleton, ← ih]
      rfl

/-- **The caret is never behind the first mistake.** In bytes, the place at which
reading stopped is within the text and between two of its characters, and what stands
before it is the beginning of a text that is read as a policy. -/
theorem caret_before_mistake {text : String} {e : SyntaxError}
    (h : parse text = .error e) :
    e.offset ≤ text.utf8ByteSize ∧
      ∃ caret : text.Pos, caret.offset.byteIdx = e.offset ∧
        (text.sliceTo caret).copy = String.ofList e.before ∧
        (text.sliceFrom caret).copy = String.ofList e.after ∧
        ∃ completion statements,
          parse ((text.sliceTo caret).copy ++ completion) = .ok statements := by
  obtain ⟨htext, completion, sts, hbegins⟩ := begins_of_parse h
  have hsplit : text = String.ofList e.before ++ String.ofList e.after := by
    rw [← String.ofList_append, htext, String.ofList_toList]
  have hcaret := String.Pos.splits_ofEqAppend hsplit
  refine ⟨?_, String.Pos.ofEqAppend hsplit, ?_, hcaret.copy_sliceTo_eq,
    hcaret.copy_sliceFrom_eq, String.ofList completion, sts, ?_⟩
  · rw [SyntaxError.offset, byteLength_eq, hsplit, String.utf8ByteSize_append]
    exact Nat.le_add_right _ _
  · rw [hcaret.offset_eq_rawEndPos, SyntaxError.offset, byteLength_eq]
    rfl
  · rw [hcaret.copy_sliceTo_eq, parse_eq_ok_iff, ← String.ofList_append,
        String.toList_ofList]
    exact readStatements_of_writes hbegins

theorem caret_before_mistake_overflow :
    let text := "can a b\x7b\"é\":9223372036854775808\x7d"
    let e : SyntaxError :=
      ⟨"can a b\x7b\"é\":9223372036854775808".toList, ['}'], some .value⟩
    parse text = .error e ∧ e.offset = 32 ∧
      ∃ caret : text.Pos, caret.offset.byteIdx = 32 ∧ ∃ completion statements,
        parse ((text.sliceTo caret).copy ++ completion) = .ok statements := by
  intro text e
  have hread : readStatement text.toList = .error ⟨['}'], some .value⟩ := by cbv
  have hparse : parse text = .error e := by
    rw [parse, readStatements_error hread]
    cbv
  have hoffset : e.offset = 32 := by decide
  obtain ⟨-, caret, hcaret, -, -, hviable⟩ := caret_before_mistake hparse
  exact ⟨hparse, hoffset, caret, hcaret.trans hoffset, hviable⟩

end RowAccess.PolicyText
