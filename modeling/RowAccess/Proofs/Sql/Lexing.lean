/-
RowAccess.Proofs.Sql.Lexing — from the text of a where clause to its tokens.

Identifiers stand between the marks of the dialect and strings between single
quotes; in both, two marks in a row stand for one mark, and nothing else stands
for anything but itself. Blanks separate, `=` and the parentheses are tokens of
their own, and a run of letters, digits, points and signs is a word, which may
be a keyword. Not every database reads strings in this way, so the reader of
strings is a parameter of the lexer, and `lex` is the lexer with doubled quotes.

`LexesTo d text ts` says that a text gives the tokens `ts` whatever follows it,
as long as the continuation starts at a `Boundary`: the end, a blank or a
closing parenthesis. Without that, `not` followed by a letter would be another
word, and a string followed by a quote would not end. The statements about
parts of a clause are put together by `lexesTo_intercalate`, once for all lists
with a separator.

* `lexWith`, `lex` — the lexer.
* `lexesTo_literal`, `lexesTo_equality` — values and names come back.
* `Formula.lexesTo` — the text of a formula gives the tokens of the formula.
-/
import RowAccess.Proofs.Decimal.Numeral
import RowAccess.Proofs.Sql.Formula
import RowAccess.Text.Scan

namespace RowAccess.Sql

/-! ## 1. The lexer -/

/-- What stands before the closing mark, where the opening mark has been read,
and what follows it. Two marks in a row stand for one and close nothing. -/
def upToMark? (mark : Char) : List Char → Option (List Char × List Char)
  | [] => none
  | [c] => if c = mark then some ([], []) else none
  | c :: c' :: rest =>
    if c = mark then
      if c' = mark then (upToMark? mark rest).map fun (s, r) => (mark :: s, r)
      else some ([], c' :: rest)
    else (upToMark? mark (c' :: rest)).map fun (s, r) => (c :: s, r)

theorem length_lt_of_upToMark? {mark : Char} {s t r : List Char}
    (h : upToMark? mark s = some (t, r)) : r.length < s.length := by
  fun_induction upToMark? mark s generalizing t r with
  | case1 => simp at h
  | case2 => simp_all
  | case3 => simp at h
  | case4 rest ih =>
      obtain ⟨⟨u, v⟩, hu, huv⟩ := Option.map_eq_some_iff.mp h
      have hlt := ih hu
      simp only [Prod.mk.injEq] at huv
      simp only [← huv.2, List.length_cons]
      omega
  | case5 => simp_all
  | case6 c c' rest hc ih =>
      obtain ⟨⟨u, v⟩, hu, huv⟩ := Option.map_eq_some_iff.mp h
      have hlt := ih hu
      simp only [Prod.mk.injEq] at huv
      simp only [← huv.2, List.length_cons] at hlt ⊢
      omega

/-- A character of words and numerals. -/
def isWordChar (c : Char) : Bool := c.isAlphanum || c == '.' || c == '-'

/-- A word: a keyword, or else a literal. -/
def Token.ofWord (w : List Char) : Token :=
  if w = "not".toList then .neg
  else if w = "and".toList then .conj
  else if w = "or".toList then .disj
  else .literal (.word (String.ofList w))

/-- A way to read strings. From behind the opening quote, it finds the content
and what follows the closing quote. -/
structure StringReader where
  read? : List Char → Option (List Char × List Char)
  length_lt : ∀ {s t r : List Char}, read? s = some (t, r) → r.length < s.length

/-- Strings in which two quotes stand for one, and nothing else stands for
anything but itself. -/
def doubledQuotes : StringReader := ⟨upToMark? '\'', length_lt_of_upToMark?⟩

/-- The tokens of a text whose strings are read by `strings`, if all of it can be
read. -/
def lexWith (d : Dialect) (strings : StringReader) : List Char → Option (List Token)
  | [] => some []
  | c :: rest =>
    if c = ' ' then lexWith d strings rest
    else if c = '=' then (lexWith d strings rest).map (.equals :: ·)
    else if c = '(' then (lexWith d strings rest).map (.opening :: ·)
    else if c = ')' then (lexWith d strings rest).map (.closing :: ·)
    else if c = d.identifierMark then
      match _h : upToMark? c rest with
      | none => none
      | some (s, rest') => (lexWith d strings rest').map (.name (String.ofList s) :: ·)
    else if c = '\'' then
      match _h : strings.read? rest with
      | none => none
      | some (s, rest') =>
        (lexWith d strings rest').map (.literal (.quoted (String.ofList s)) :: ·)
    else if isWordChar c then
      (lexWith d strings (rest.dropWhile isWordChar)).map
        (.ofWord (c :: rest.takeWhile isWordChar) :: ·)
    else none
  termination_by s => s.length
  decreasing_by
    all_goals simp only [List.length_cons]
    all_goals first
      | omega
      | exact Nat.lt_succ_of_lt (length_lt_of_upToMark? _h)
      | exact Nat.lt_succ_of_lt (strings.length_lt _h)
      | exact Nat.lt_succ_of_le (List.dropWhile_suffix isWordChar).length_le

theorem lexWith_cons (d : Dialect) (strings : StringReader) (c : Char)
    (rest : List Char) :
    lexWith d strings (c :: rest) =
      if c = ' ' then lexWith d strings rest
      else if c = '=' then (lexWith d strings rest).map (.equals :: ·)
      else if c = '(' then (lexWith d strings rest).map (.opening :: ·)
      else if c = ')' then (lexWith d strings rest).map (.closing :: ·)
      else if c = d.identifierMark then
        (upToMark? c rest).bind fun (s, r) =>
          (lexWith d strings r).map (.name (String.ofList s) :: ·)
      else if c = '\'' then
        (strings.read? rest).bind fun (s, r) =>
          (lexWith d strings r).map (.literal (.quoted (String.ofList s)) :: ·)
      else if isWordChar c then
        (lexWith d strings (rest.dropWhile isWordChar)).map
          (.ofWord (c :: rest.takeWhile isWordChar) :: ·)
      else none := by
  rw [lexWith]
  congr
  · split <;> simp_all
  · split <;> simp_all

/-- The tokens of a text as the dialects write it. -/
def lex (d : Dialect) (s : List Char) : Option (List Token) := lexWith d doubledQuotes s

/-! ## 2. One equation for each kind of token -/

section

variable (d : Dialect)

@[simp] theorem lex_nil : lex d [] = some [] := by rw [lex, lexWith]

@[simp] theorem lex_blank (r : List Char) : lex d (' ' :: r) = lex d r := by
  rw [lex, lexWith_cons, if_pos rfl]
  rfl

@[simp] theorem lex_equals (r : List Char) :
    lex d ('=' :: r) = (lex d r).map (.equals :: ·) := by
  rw [lex, lexWith_cons, if_neg (by decide), if_pos rfl]
  rfl

@[simp] theorem lex_opening (r : List Char) :
    lex d ('(' :: r) = (lex d r).map (.opening :: ·) := by
  rw [lex, lexWith_cons, if_neg (by decide), if_neg (by decide), if_pos rfl]
  rfl

@[simp] theorem lex_closing (r : List Char) :
    lex d (')' :: r) = (lex d r).map (.closing :: ·) := by
  rw [lex, lexWith_cons, if_neg (by decide), if_neg (by decide),
      if_neg (by decide), if_pos rfl]
  rfl

/-- A text between marks comes back, unless a further mark follows it. -/
theorem upToMark?_delimited (mark : Char) (r : List Char) (hr : r.head? ≠ some mark) :
    ∀ s : List Char,
      upToMark? mark
          (s.flatMap (fun c => if c = mark then [mark, mark] else [c]) ++ mark :: r) =
        some (s, r)
  | [] => by
      cases r with
      | nil => simp [upToMark?]
      | cons c r =>
          have hc : c ≠ mark := by simpa using hr
          simp [upToMark?, hc]
  | c :: s => by
      have ih := upToMark?_delimited mark r hr s
      by_cases hc : c = mark
      · simp [upToMark?, hc, ih]
      · -- What follows `c` is not empty, as the closing mark is part of it.
        rw [List.flatMap_cons, if_neg hc, List.append_assoc, List.singleton_append]
        cases hs :
            s.flatMap (fun c => if c = mark then [mark, mark] else [c]) ++ mark :: r with
        | nil => simp at hs
        | cons c' t => rw [upToMark?, if_neg hc, ← hs, ih]; rfl

/-- A text is cut where the first single mark stands. -/
theorem eq_of_upToMark? {mark : Char} {text s r : List Char}
    (h : upToMark? mark text = some (s, r)) :
    text = s.flatMap (fun c => if c = mark then [mark, mark] else [c]) ++ mark :: r ∧
      r.head? ≠ some mark := by
  fun_induction upToMark? mark text generalizing s r with
  | case1 => simp at h
  | case2 => simp_all
  | case3 => simp at h
  | case4 rest ih =>
      obtain ⟨⟨u, v⟩, hu, huv⟩ := Option.map_eq_some_iff.mp h
      cases huv
      simpa using ih hu
  | case5 c' rest hc =>
      cases h
      simpa using hc
  | case6 c c' rest hc ih =>
      obtain ⟨⟨u, v⟩, hu, huv⟩ := Option.map_eq_some_iff.mp h
      cases huv
      simpa [hc] using ih hu

theorem lex_name (s : String) (r : List Char) (hr : r.head? ≠ some d.identifierMark) :
    lex d (d.identifier s ++ r) = (lex d r).map (.name s :: ·) := by
  have hscan := upToMark?_delimited d.identifierMark r hr s.toList
  rw [Dialect.identifier, delimited, List.cons_append, List.cons_append,
      List.append_assoc, List.singleton_append, lex, lexWith_cons,
      if_neg (by cases d <;> decide), if_neg (by cases d <;> decide),
      if_neg (by cases d <;> decide), if_neg (by cases d <;> decide), if_pos rfl, hscan,
      Option.bind_some]
  show (lex d r).map (.name (String.ofList s.toList) :: ·) = _
  rw [String.ofList_toList]

theorem lex_string (s : List Char) (r : List Char) (hr : r.head? ≠ some '\'') :
    lex d (delimited '\'' s ++ r) =
      (lex d r).map (.literal (.quoted (String.ofList s)) :: ·) := by
  have hscan : doubledQuotes.read? _ = some (s, r) := upToMark?_delimited '\'' r hr s
  rw [delimited, List.cons_append, List.cons_append, List.append_assoc,
      List.singleton_append, lex, lexWith_cons, if_neg (by decide), if_neg (by decide),
      if_neg (by decide), if_neg (by decide), if_neg (by cases d <;> decide), if_pos rfl,
      hscan, Option.bind_some]
  rfl

/-- A word ends where no word character follows. -/
theorem lex_word (w : List Char) (r : List Char) (hne : w ≠ [])
    (hw : ∀ c ∈ w, isWordChar c = true) (hr : ∀ c ∈ r.head?, isWordChar c = false) :
    lex d (w ++ r) = (lex d r).map (.ofWord w :: ·) := by
  cases w with
  | nil => exact absurd rfl hne
  | cons c w =>
      have hc : isWordChar c = true := hw c (by simp)
      have hother : ∀ c', isWordChar c' = false → c ≠ c' := by
        rintro c' hc' rfl
        simp [hc] at hc'
      have hrest : ∀ c ∈ w, isWordChar c = true := fun c hc => hw c (by simp [hc])
      obtain ⟨htake, hdrop⟩ := Text.takeWhile_append_stop hrest hr
      rw [List.cons_append, lex, lexWith_cons, if_neg (hother _ (by decide)),
          if_neg (hother _ (by decide)), if_neg (hother _ (by decide)),
          if_neg (hother _ (by decide)), if_neg (hother _ (by cases d <;> decide)),
          if_neg (hother _ (by decide)), if_pos hc, htake, hdrop]
      rfl

end

/-! ## 3. Parts of a clause -/

/-- What may stand behind a part of a clause: nothing, a blank or a closing
parenthesis. -/
def Boundary (r : List Char) : Prop := ∀ c ∈ r.head?, c = ' ' ∨ c = ')'

theorem Boundary.head_ne {r : List Char} (hr : Boundary r) {c : Char} (hblank : c ≠ ' ')
    (hclosing : c ≠ ')') : r.head? ≠ some c := by
  intro hc
  rcases hr c hc with h | h
  · exact hblank h
  · exact hclosing h

theorem Boundary.not_wordChar {r : List Char} (hr : Boundary r) :
    ∀ c ∈ r.head?, isWordChar c = false := by
  intro c hc
  rcases hr c hc with rfl | rfl <;> decide

/-- `text` gives exactly the tokens `ts` and leaves what follows to be read. -/
def LexesTo (d : Dialect) (text : List Char) (ts : List Token) : Prop :=
  ∀ r, Boundary r → lex d (text ++ r) = (lex d r).map (ts ++ ·)

/-- The marks of formulas as text. -/
def textMarks : Marks Char := ⟨"not ".toList, " and ".toList, " or ".toList, ['('], [')']⟩

section

variable (d : Dialect)

/-- A keyword between blanks, the first of which may be missing. -/
theorem lex_keyword (w : List Char) (r : List Char) (hne : w ≠ [])
    (hw : ∀ c ∈ w, isWordChar c = true) :
    lex d (w ++ ' ' :: r) = (lex d r).map (.ofWord w :: ·) := by
  rw [lex_word d w (' ' :: r) hne hw (by simp [isWordChar]), lex_blank]

theorem lex_neg (r : List Char) :
    lex d (textMarks.neg ++ r) = (lex d r).map ([.neg] ++ ·) :=
  lex_keyword d "not".toList r (by decide) (List.all_eq_true.mp (by decide))

theorem lex_conj (r : List Char) :
    lex d (textMarks.conj ++ r) = (lex d r).map ([.conj] ++ ·) :=
  (lex_blank d _).trans
    (lex_keyword d "and".toList r (by decide) (List.all_eq_true.mp (by decide)))

theorem lex_disj (r : List Char) :
    lex d (textMarks.disj ++ r) = (lex d r).map ([.disj] ++ ·) :=
  (lex_blank d _).trans
    (lex_keyword d "or".toList r (by decide) (List.all_eq_true.mp (by decide)))

/-- A list of parts gives the tokens of the parts, when the separator can be
read whatever follows it and starts with a blank. -/
theorem lexesTo_intercalate {ι : Type} (text : ι → List Char) (tokens : ι → List Token)
    (sep : List Char) (token : Token)
    (hsep : ∀ r, lex d (sep ++ r) = (lex d r).map ([token] ++ ·))
    (hblank : ∀ r, Boundary (sep ++ r)) :
    ∀ xs : List ι, (∀ x ∈ xs, LexesTo d (text x) (tokens x)) →
      LexesTo d (sep.intercalate (xs.map text)) ([token].intercalate (xs.map tokens))
  | [], _ => fun r _ => by simp
  | [x], h => by simpa using h x (by simp)
  | x :: y :: xs, h => fun r hr => by
      have ih := lexesTo_intercalate text tokens sep token hsep hblank (y :: xs)
        (fun z hz => h z (List.mem_cons_of_mem _ hz)) r hr
      simp only [List.map_cons] at ih
      simp only [List.map_cons, List.intercalate_cons_cons, List.append_assoc]
      rw [h x (by simp) _ (hblank _), hsep, ih]
      simp [Option.map_map, Function.comp_def]

end

/-! ## 4. Names, values and formulas -/

/-- The literal that a value is written as. -/
def Dialect.literalOf (d : Dialect) : Value → Literal
  | .bool b => .word (String.ofList (d.boolean b))
  | .int n => .word n.toInt.repr
  | .float x =>
    if x.isNaN then .quoted "NaN"
    else if x.isInf then
      .quoted (if Decimal.isNegative x then "-Infinity" else "Infinity")
    else .word (Value.floatText x)
  | .text s => .quoted s

/-- A literal as it stands in a text. -/
def Literal.written : Literal → List Char
  | .word s => s.toList
  | .quoted s => delimited '\'' s.toList

/-- The literal of a value is written like the value. -/
theorem Dialect.written_literalOf (d : Dialect) : ∀ v : Value,
    (d.literalOf v).written = d.literal v
  | .bool b => String.toList_ofList
  | .int n => rfl
  | .text s => rfl
  | .float x => by
      simp only [literalOf, literal, Dialect.float]
      split
      · rfl
      · split
        · split <;> rfl
        · rfl

/-- A field and a value as they come back from the text of an equality. -/
def Dialect.decoded (d : Dialect) (p : String × Value) : String × Literal :=
  (p.1, d.literalOf p.2)

section

variable (d : Dialect)

theorem lexesTo_string (s : String) :
    LexesTo d (delimited '\'' s.toList) [.literal (.quoted s)] := by
  intro r hr
  rw [lex_string d s.toList r (hr.head_ne (by decide) (by decide)), String.ofList_toList]
  rfl

theorem lexesTo_word {w : String} (hne : w.toList ≠ [])
    (hw : ∀ c ∈ w.toList, isWordChar c = true)
    (hliteral : Token.ofWord w.toList = .literal (.word w)) :
    LexesTo d w.toList [.literal (.word w)] := by
  intro r hr
  rw [lex_word d w.toList r hne hw hr.not_wordChar, hliteral]
  rfl

/-- A numeral is no keyword, since keywords have letters. -/
theorem lexesTo_numeral {w : String} (h : Decimal.IsNumeral w.toList) :
    LexesTo d w.toList [.literal (.word w)] := by
  have hchars : ∀ c ∈ w.toList, isWordChar c = true := by
    intro c hc
    have hc := h.2 c hc
    simp only [Decimal.isNumeralChar, isWordChar, Char.isAlphanum,
      Bool.or_eq_true] at hc ⊢
    rcases hc with (hdigit | hpoint) | hsign
    · exact Or.inl (Or.inl (Or.inr hdigit))
    · exact Or.inl (Or.inr hpoint)
    · exact Or.inr hsign
  have hkeyword : ∀ (letter : Char) (k : List Char),
      Decimal.isNumeralChar letter = false → letter ∈ k → w.toList ≠ k := by
    rintro letter k hletter hmem rfl
    simp [h.2 letter hmem] at hletter
  refine lexesTo_word d h.1 hchars ?_
  rw [Token.ofWord, if_neg (hkeyword 'n' _ (by decide) (by decide)),
      if_neg (hkeyword 'a' _ (by decide) (by decide)),
      if_neg (hkeyword 'o' _ (by decide) (by decide)), String.ofList_toList]

theorem lexesTo_boolean (b : Bool) :
    LexesTo d (d.boolean b) [.literal (.word (String.ofList (d.boolean b)))] := by
  have h := lexesTo_word d (w := String.ofList (d.boolean b))
    (by cases d <;> cases b <;> decide)
    (List.all_eq_true.mp (by cases d <;> cases b <;> decide))
    (by cases d <;> cases b <;> decide)
  rwa [String.toList_ofList] at h

/-- **A value comes back as the literal it is written as.** -/
theorem lexesTo_literal : ∀ v : Value, LexesTo d (d.literal v) [.literal (d.literalOf v)]
  | .bool b => lexesTo_boolean d b
  | .int n => lexesTo_numeral d (Decimal.isNumeral_intText n.toInt)
  | .text s => lexesTo_string d s
  | .float x => by
      simp only [Dialect.literal, Dialect.literalOf, Dialect.float]
      by_cases hnan : x.isNaN = true
      · rw [if_pos hnan, if_pos hnan]
        exact lexesTo_string d "NaN"
      · rw [if_neg hnan, if_neg hnan]
        by_cases hinf : x.isInf = true
        · rw [if_pos hinf, if_pos hinf]
          split
          · exact lexesTo_string d "-Infinity"
          · exact lexesTo_string d "Infinity"
        · rw [if_neg hinf, if_neg hinf]
          exact lexesTo_numeral d (Decimal.isNumeral_floatText (by simpa using hnan)
            (by simpa using hinf))

/-- **A field comes back as it is, whatever characters it has.** -/
theorem lexesTo_equality (p : String × Value) :
    LexesTo d (d.equality p.1 p.2) (equalityTokens (d.decoded p)) := by
  intro r hr
  have hliteral := lexesTo_literal d p.2 r hr
  have hmark : (" = ".toList ++ (d.literal p.2 ++ r)).head? ≠ some d.identifierMark := by
    cases d <;> simp [Dialect.identifierMark]
  rw [Dialect.equality, List.append_assoc, List.append_assoc, lex_name d p.1 _ hmark]
  simp [hliteral, equalityTokens, Dialect.decoded, Option.map_map, Function.comp_def]

end

/-- The text of a factor. -/
def Factor.text (d : Dialect) : Factor (String × Value) → List Char :=
  Factor.written textMarks fun p => d.equality p.1 p.2

/-- The text of a formula. -/
def Formula.text (d : Dialect) : Formula (String × Value) → List Char :=
  Formula.written textMarks fun p => d.equality p.1 p.2

/-- Formulas give their tokens if their factors do. -/
theorem Formula.lexesTo_of_factors (d : Dialect) (f : Formula (String × Value))
    (h : ∀ c ∈ f, ∀ x ∈ c, LexesTo d (x.text d) (x.map d.decoded).tokens) :
    LexesTo d (f.text d) (f.map d.decoded).tokens := by
  have hconjunction : ∀ c ∈ f, LexesTo d
      (writtenConjunction textMarks (fun p => d.equality p.1 p.2) c)
      (writtenConjunction tokenMarks equalityTokens
        (List.map (Factor.map d.decoded) c)) := by
    intro c hc
    have hfactors :=
      lexesTo_intercalate d (Factor.text d) (fun x => (x.map d.decoded).tokens)
        textMarks.conj .conj (lex_conj d) (fun r => by simp [Boundary, textMarks])
        c (h c hc)
    rw [writtenConjunction, writtenConjunction, List.map_map]
    exact hfactors
  have hformula := lexesTo_intercalate d _ _ textMarks.disj .disj (lex_disj d)
    (fun r => by simp [Boundary, textMarks]) f hconjunction
  rw [Formula.tokens, Formula.written, Formula.map, List.map_map]
  exact hformula

theorem Factor.lexesTo (d : Dialect) (f : Factor (String × Value)) :
    LexesTo d (f.text d) (f.map d.decoded).tokens := by
  induction f using Factor.induct with
  | equality p => exact lexesTo_equality d p
  | negated f ih =>
      intro r hr
      have htext : f.negated.text d = textMarks.neg ++ f.text d := rfl
      rw [htext, List.append_assoc, lex_neg, ih r hr, map_negated, tokens_negated,
          Option.map_map]
      rfl
  | group ds ih =>
      intro r hr
      have hds := Formula.lexesTo_of_factors d ds ih (')' :: r) (by simp [Boundary])
      have htext : (Factor.group ds).text d = '(' :: (Formula.text d ds ++ [')']) :=
        written_group ..
      rw [htext, List.cons_append, List.append_assoc, List.singleton_append, lex_opening,
          hds, lex_closing, map_group, tokens_group]
      simp [Option.map_map, Function.comp_def]

/-- **The text of a formula gives the tokens of the formula.** -/
theorem Formula.lexesTo (d : Dialect) (f : Formula (String × Value)) :
    LexesTo d (f.text d) (f.map d.decoded).tokens :=
  f.lexesTo_of_factors d fun _ _ x _ => x.lexesTo d

end RowAccess.Sql
