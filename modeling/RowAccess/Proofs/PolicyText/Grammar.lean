/-
RowAccess.Proofs.PolicyText.Grammar — the ways of writing a policy.

The relations of this module say what the texts of a policy are and which
statements they stand for, without mention of the readers:

    policy      ::=  (layout statement)* layout
    statement   ::=  verb blank+ name layout name (layout "{" pairs "}")?
    pairs       ::=  (layout pair (layout "," layout pair)*)? (layout ",")? layout
    pair        ::=  field layout ":" layout value

A statement or a value can be written in many ways, since layout is free, fields
may be quoted or bare, characters may be escaped or not, and numerals may have
leading zeros. A text, on the other hand, stands for one list of statements; that
this is so is a result about the readers, not part of the grammar.

Two names in a row, or a name and a verb behind it, need layout between them, or
they would be one name. The comment that ends a text may go without its line end.

* `Layout`, `FinalLayout` — blanks and comments.
* `Escapes`, `WritesField`, `WritesValue` — the words of a condition.
* `WritesPolicy` — a text is a way of writing a list of statements.
-/
import RowAccess.PolicyText.Statement

namespace RowAccess.PolicyText

/-! ## 1. Layout -/

/-- What a comment may have between its `#` and its end. -/
def CommentBody (body : List Char) : Prop := ∀ c ∈ body, c ≠ '\n' ∧ c ≠ '\r'

instance (body : List Char) : Decidable (CommentBody body) :=
  decidable_of_iff (body.all fun c => c != '\n' && c != '\r') (by simp [CommentBody])

/-- Blanks and comments, each comment with the end of its line. -/
inductive Layout : List Char → Prop
  | nil : Layout []
  | blank {c : Char} {l : List Char} : isBlank c = true → Layout l → Layout (c :: l)
  | comment {body lineEnd l : List Char} :
      CommentBody body → lineEnd ∈ [['\n'], ['\r', '\n']] →
      Layout l → Layout ('#' :: (body ++ (lineEnd ++ l)))

/-- Layout at the end of a text. The last comment may go without a line end. -/
inductive FinalLayout : List Char → Prop
  | layout {l : List Char} : Layout l → FinalLayout l
  | comment {l body : List Char} :
      Layout l → CommentBody body → FinalLayout (l ++ '#' :: body)

theorem Layout.append {l l' : List Char} (hl : Layout l) (hl' : Layout l') :
    Layout (l ++ l') := by
  induction hl with
  | nil => exact hl'
  | blank hc _ ih => exact .blank hc ih
  | comment hbody hend _ ih =>
      rw [List.cons_append, List.append_assoc, List.append_assoc]
      exact .comment hbody hend ih

theorem FinalLayout.append {l l' : List Char} (hl : Layout l) (hl' : FinalLayout l') :
    FinalLayout (l ++ l') := by
  cases hl' with
  | layout hl' => exact .layout (hl.append hl')
  | comment hl' hbody =>
      rw [← List.append_assoc]
      exact .comment (hl.append hl') hbody

/-- One or more of the characters that separate a verb from its action. -/
def Blanks (l : List Char) : Prop := l ≠ [] ∧ ∀ c ∈ l, isBlank c = true

instance (l : List Char) : Decidable (Blanks l) :=
  decidable_of_iff (l ≠ [] ∧ l.all isBlank = true) (by simp [Blanks])

/-! ## 2. Words -/

/-- A letter or `_`, then letters, digits, `_` and `.`. -/
inductive IsName : List Char → Prop
  | intro {c : Char} {s : List Char} : isIdentifierStart c = true →
      (∀ x ∈ s, isIdentifierRest x = true) → IsName (c :: s)

instance : ∀ w : List Char, Decidable (IsName w)
  | [] => isFalse nofun
  | c :: s =>
    decidable_of_iff (isIdentifierStart c = true ∧ s.all isIdentifierRest = true)
      ⟨fun h => .intro h.1 (List.all_eq_true.mp h.2),
        fun | .intro hc hs => ⟨hc, List.all_eq_true.mpr hs⟩⟩

theorem IsName.ne_nil {w : List Char} (h : IsName w) : w ≠ [] := by
  obtain ⟨-, -⟩ := h
  simp

/-- `Escapes t w`: between quotes, `w` stands for `t`. A backslash before a
character that needs none stands for itself, as does that character. -/
inductive Escapes : List Char → List Char → Prop
  | nil : Escapes [] []
  | plain {c : Char} {t w : List Char} : c ≠ '"' → c ≠ '\\' → Escapes t w →
      Escapes (c :: t) (c :: w)
  | quote {t w : List Char} : Escapes t w → Escapes ('"' :: t) ('\\' :: '"' :: w)
  | backslash {t w : List Char} : Escapes t w → Escapes ('\\' :: t) ('\\' :: '\\' :: w)
  | newline {t w : List Char} : Escapes t w → Escapes ('\n' :: t) ('\\' :: 'n' :: w)
  | tab {t w : List Char} : Escapes t w → Escapes ('\t' :: t) ('\\' :: 't' :: w)
  | other {c : Char} {t w : List Char} : c ∉ ['"', '\\', 'n', 't'] → Escapes t w →
      Escapes ('\\' :: c :: t) ('\\' :: c :: w)

/-- `w` is a text between double quotes that stands for `t`. -/
inductive WritesText : String → List Char → Prop
  | intro {t w : List Char} :
      Escapes t w → WritesText (String.ofList t) ('"' :: (w ++ ['"']))

theorem WritesText.ne_nil {t : String} {w : List Char} (h : WritesText t w) : w ≠ [] := by
  obtain ⟨-⟩ := h
  simp

/-- `w` names a field: it is quoted, or bare if it has the form of a name. -/
inductive WritesField : String → List Char → Prop
  | quoted {name : String} {w : List Char} : WritesText name w → WritesField name w
  | bare {name : String} : IsName name.toList → WritesField name name.toList

theorem WritesField.ne_nil {name : String} {w : List Char} (h : WritesField name w) :
    w ≠ [] := by
  cases h with
  | quoted h => exact h.ne_nil
  | bare h => exact h.ne_nil

/-- One or more digits. -/
def Digits (ds : List Char) : Prop := ds ≠ [] ∧ ∀ c ∈ ds, c.isDigit = true

instance (ds : List Char) : Decidable (Digits ds) :=
  decidable_of_iff (ds ≠ [] ∧ ds.all Char.isDigit = true) (by simp [Digits])

/-- The number that digits stand for. -/
def numberOf (ds : List Char) : Nat := Nat.ofDigitChars 10 ds 0

/-- What is written of a sign: nothing, unless it is negative. -/
def signText (negative : Bool) : List Char := if negative then ['-'] else []

/-- `w` stands for the value `v`. A whole number is written without a point and
has to be one of 64 bits; with a point, a number stands for the nearest float. -/
inductive WritesValue : Value → List Char → Prop
  | text {t : String} {w : List Char} : WritesText t w → WritesValue (.text t) w
  | yes : WritesValue (.bool true) "true".toList
  | no : WritesValue (.bool false) "false".toList
  | whole {negative : Bool} {ds : List Char} {n : Int64} : Digits ds →
      n.toInt = (if negative then -(numberOf ds : Int) else numberOf ds) →
      WritesValue (.int n) (signText negative ++ ds)
  | decimal {negative : Bool} {ds places : List Char} : Digits ds → Digits places →
      WritesValue
        (.float (Decimal.toSignedFloat negative
          ⟨numberOf (ds ++ places), -places.length⟩))
        (signText negative ++ (ds ++ '.' :: places))

theorem WritesValue.ne_nil {v : Value} {w : List Char} (h : WritesValue v w) :
    w ≠ [] := by
  cases h with
  | text h => exact h.ne_nil
  | yes => simp
  | no => simp
  | whole h _ => simp [h.1]
  | decimal h _ => simp

/-! ## 3. Conditions -/

/-- A field, a colon and a value. -/
inductive WritesPair : String × Value → List Char → Prop
  | intro {name : String} {v : Value} {field l l' value : List Char} :
      WritesField name field → Layout l → Layout l' → WritesValue v value →
      WritesPair (name, v) (field ++ (l ++ ':' :: (l' ++ value)))

/-- Pairs that follow another, each behind a comma, up to the closing brace. -/
inductive WritesMorePairs : List (String × Value) → List Char → Prop
  | done {l : List Char} : Layout l → WritesMorePairs [] l
  | comma {l l' : List Char} : Layout l → Layout l' → WritesMorePairs [] (l ++ ',' :: l')
  | cons {p : String × Value} {ps : List (String × Value)} {l l' w r : List Char} :
      Layout l → Layout l' → WritesPair p w → WritesMorePairs ps r →
      WritesMorePairs (p :: ps) (l ++ ',' :: (l' ++ (w ++ r)))

/-- Pairs up to the closing brace. Without any, a comma may stand all the same. -/
inductive WritesPairs : List (String × Value) → List Char → Prop
  | none {r : List Char} : WritesMorePairs [] r → WritesPairs [] r
  | cons {p : String × Value} {ps : List (String × Value)} {l w r : List Char} :
      Layout l → WritesPair p w → WritesMorePairs ps r →
      WritesPairs (p :: ps) (l ++ (w ++ r))

/-- What follows the names of a statement: pairs between braces, or nothing. -/
inductive WritesConditions : Option (List (String × Value)) → List Char → Prop
  | absent : WritesConditions none []
  | braces {ps : List (String × Value)} {l r : List Char} : Layout l → WritesPairs ps r →
      WritesConditions (some ps) (l ++ '{' :: (r ++ ['}']))

/-! ## 4. Statements -/

/-- A verb, an action, a subject and conditions. -/
inductive WritesStatement : Statement → List Char → Prop
  | intro {st : Statement} {blanks l conditions : List Char} : Blanks blanks →
      IsName st.action.toList → Layout l → l ≠ [] → IsName st.subject.toList →
      WritesConditions st.pairs conditions →
      WritesStatement st (st.effect.verb.toList ++ (blanks ++ (st.action.toList ++
        (l ++ (st.subject.toList ++ conditions)))))

/-- Statements up to the end of a text. `afterName` tells whether a name stands
directly before them, from which a verb has to be kept apart. -/
inductive WritesStatements : (afterName : Bool) → List Statement → List Char → Prop
  | done {afterName : Bool} {l : List Char} :
      FinalLayout l → WritesStatements afterName [] l
  | cons {afterName : Bool} {st : Statement} {sts : List Statement} {l w r : List Char} :
      Layout l → (afterName = true → l ≠ []) → WritesStatement st w →
      WritesStatements st.pairs.isNone sts r →
      WritesStatements afterName (st :: sts) (l ++ (w ++ r))

/-- `text` is a way of writing the statements, in their order. -/
def WritesPolicy (statements : List Statement) (text : String) : Prop :=
  WritesStatements false statements text.toList

end RowAccess.PolicyText
