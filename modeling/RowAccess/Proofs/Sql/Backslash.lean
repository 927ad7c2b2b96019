/-
RowAccess.Proofs.Sql.Backslash — where clauses in a database that reads
backslashes.

Strings are written with their quotes doubled and all else as it is. MySQL, in
its default mode, reads a backslash in a string together with the character
behind it, so the content that comes back may be another one, and the string may
end elsewhere than it was meant to.

The lexer is run with either way to read strings, and the two are compared on any
text that can be read with doubled quotes alone: they give the same tokens exactly
when the content of each string is left as it is (`lexWith_eq_some_iff`).
This is so if each backslash stands before `%` or `_`, the two characters from
which MySQL does not take it (`upToQuote?_eq_some_iff`).

* `Where.fragments_lex_iff` — which requirements come back from their text.
-/
import RowAccess.Proofs.Sql.Selection

namespace RowAccess.Sql

/-! ## 1. Two ways to read strings -/

/-- Every string among the tokens has a content that is `kept`. -/
def StringsKept (kept : List Char → Prop) (ts : List Token) : Prop :=
  ∀ s : String, .literal (.quoted s) ∈ ts → kept s.toList

theorem stringsKept_cons_string (kept : List Char → Prop) (s : List Char)
    (ts : List Token) :
    StringsKept kept (.literal (.quoted (String.ofList s)) :: ts) ↔
      kept s ∧ StringsKept kept ts := by
  simp [StringsKept, or_imp, forall_and]

/-- A token that is no string keeps every content. -/
theorem stringsKept_cons {kept : List Char → Prop} {t : Token} {ts : List Token}
    (ht : ∀ s, t ≠ .literal (.quoted s)) :
    StringsKept kept (t :: ts) ↔ StringsKept kept ts := by
  simp [StringsKept, fun s => (ht s).symm]

theorem Token.ofWord_ne_string (w : List Char) (s : String) :
    ofWord w ≠ .literal (.quoted s) := by
  simp only [ofWord]
  repeat' split
  all_goals simp

/-- Two readers that agree behind a token agree on the token, if it is no
string. -/
theorem map_cons_eq_some_iff {kept : List Char → Prop} {x x' : Option (List Token)}
    {t : Token} {ts : List Token} (ht : ∀ s, t ≠ .literal (.quoted s))
    (ih : ∀ ts, x = some ts → (x' = some ts ↔ StringsKept kept ts))
    (h : x.map (t :: ·) = some ts) : x'.map (t :: ·) = some ts ↔ StringsKept kept ts := by
  obtain ⟨ts', hx, rfl⟩ := Option.map_eq_some_iff.mp h
  rw [stringsKept_cons ht, ← ih ts' hx]
  simp

/-- Two readers that agree behind a string agree on the string where its content is
kept. -/
theorem bind_string_eq_some_iff {strings' : StringReader} {kept : List Char → Prop}
    {lex' : List Char → Option (List Token)} {rest s r : List Char} {ts : List Token}
    (hkept : ∀ r', strings'.read? rest = some (s, r') ↔ kept s ∧ r' = r)
    (ih : lex' r = some ts ↔ StringsKept kept ts) :
    (strings'.read? rest).bind (fun (s, r) =>
        (lex' r).map (.literal (.quoted (String.ofList s)) :: ·)) =
          some (.literal (.quoted (String.ofList s)) :: ts) ↔
      StringsKept kept (.literal (.quoted (String.ofList s)) :: ts) := by
  rw [Option.bind_eq_some_iff, stringsKept_cons_string, ← ih]
  constructor
  · rintro ⟨⟨s', r'⟩, hread, htokens⟩
    obtain ⟨us, hus, heq⟩ := Option.map_eq_some_iff.mp htokens
    simp only [List.cons.injEq, Token.literal.injEq, Literal.quoted.injEq,
      String.ofList_inj] at heq
    obtain ⟨rfl, rfl⟩ := heq
    obtain ⟨hs, rfl⟩ := (hkept r').mp hread
    exact ⟨hs, hus⟩
  · rintro ⟨hs, hus⟩
    exact ⟨(s, r), (hkept r).mpr ⟨hs, rfl⟩, by simp [hus]⟩

/-- **Readers of strings that keep some contents and no other.** If one way to
read strings finds the contents that another one finds where they are `kept`, and
never where they are not, then the two give the same tokens of a text exactly
when all strings in it are kept. -/
theorem lexWith_eq_some_iff (d : Dialect) {strings strings' : StringReader}
    {kept : List Char → Prop}
    (hkept : ∀ {rest s r}, strings.read? rest = some (s, r) →
      ∀ r', strings'.read? rest = some (s, r') ↔ kept s ∧ r' = r) (text : List Char) :
    ∀ ts, lexWith d strings text = some ts →
      (lexWith d strings' text = some ts ↔ StringsKept kept ts) := by
  fun_induction lexWith d strings text with
  | case1 =>
      rintro ts ⟨rfl⟩
      rw [lexWith]
      simp [StringsKept]
  | case2 rest ih =>
      intro ts h
      rw [lexWith_cons, if_pos rfl]
      exact ih ts h
  | case3 rest h1 ih =>
      intro ts h
      rw [lexWith_cons, if_neg h1, if_pos rfl]
      exact map_cons_eq_some_iff (by simp) ih h
  | case4 rest h1 h2 ih =>
      intro ts h
      rw [lexWith_cons, if_neg h1, if_neg h2, if_pos rfl]
      exact map_cons_eq_some_iff (by simp) ih h
  | case5 rest h1 h2 h3 ih =>
      intro ts h
      rw [lexWith_cons, if_neg h1, if_neg h2, if_neg h3, if_pos rfl]
      exact map_cons_eq_some_iff (by simp) ih h
  | case6 => simp
  | case7 rest s r h1 h2 h3 h4 hname ih =>
      intro ts h
      rw [lexWith_cons, if_neg h1, if_neg h2, if_neg h3, if_neg h4, if_pos rfl, hname,
          Option.bind_some]
      exact map_cons_eq_some_iff (by simp) ih h
  | case8 => simp
  | case9 rest s r hstring h1 h2 h3 h4 h5 ih =>
      intro ts h
      obtain ⟨ts', hrest, rfl⟩ := Option.map_eq_some_iff.mp h
      rw [lexWith_cons, if_neg h1, if_neg h2, if_neg h3, if_neg h4, if_neg h5, if_pos rfl]
      exact bind_string_eq_some_iff (hkept hstring) (ih ts' hrest)
  | case10 c rest h1 h2 h3 h4 h5 h6 hc ih =>
      intro ts h
      rw [lexWith_cons, if_neg h1, if_neg h2, if_neg h3, if_neg h4, if_neg h5, if_neg h6,
          if_pos hc]
      exact map_cons_eq_some_iff (Token.ofWord_ne_string _) ih h
  | case11 => simp

/-! ## 2. Strings with backslashes -/

/-- What a backslash and the character behind it stand for. The two wildcards of
patterns keep their backslash; a character without a meaning of its own loses
it. -/
def unescaped : Char → List Char
  | '0' => ['\x00']
  | 'b' => ['\x08']
  | 'n' => ['\n']
  | 'r' => ['\r']
  | 't' => ['\t']
  | 'Z' => ['\x1a']
  | '%' => ['\\', '%']
  | '_' => ['\\', '_']
  | c => [c]

/-- What stands before the closing quote, where the opening quote has been read,
and what follows it. -/
def upToQuote? : List Char → Option (List Char × List Char)
  | [] => none
  | [c] => if c = '\'' then some ([], []) else none
  | c :: c' :: rest =>
    if c = '\\' then (upToQuote? rest).map (Prod.map (unescaped c' ++ ·) id)
    else if c = '\'' then
      if c' = '\'' then (upToQuote? rest).map (Prod.map ('\'' :: ·) id)
      else some ([], c' :: rest)
    else (upToQuote? (c' :: rest)).map (Prod.map (c :: ·) id)

theorem upToQuote?_escape (c : Char) (r : List Char) :
    upToQuote? ('\\' :: c :: r) =
      (upToQuote? r).map (Prod.map (unescaped c ++ ·) id) := by
  rw [upToQuote?, if_pos rfl]

theorem upToQuote?_doubled (r : List Char) :
    upToQuote? ('\'' :: '\'' :: r) = (upToQuote? r).map (Prod.map ('\'' :: ·) id) := by
  rw [upToQuote?, if_neg (by decide), if_pos rfl, if_pos rfl]

theorem upToQuote?_close : ∀ {r : List Char}, r.head? ≠ some '\'' →
    upToQuote? ('\'' :: r) = some ([], r)
  | [], _ => by rw [upToQuote?, if_pos rfl]
  | c :: r, hr => by
      rw [upToQuote?, if_neg (by decide), if_pos rfl, if_neg (by simpa using hr)]

theorem upToQuote?_cons {c : Char} (hescape : c ≠ '\\') (hquote : c ≠ '\'') :
    ∀ r : List Char, upToQuote? (c :: r) = (upToQuote? r).map (Prod.map (c :: ·) id)
  | [] => by simp [upToQuote?, hquote]
  | _ :: _ => by rw [upToQuote?, if_neg hescape, if_neg hquote]

theorem length_lt_of_upToQuote? {s t r : List Char} (h : upToQuote? s = some (t, r)) :
    r.length < s.length := by
  have hmap :
      ∀ {f : List Char → List Char} {x : Option (List Char × List Char)} {n : Nat},
      (∀ {t r : List Char}, x = some (t, r) → r.length < n) → ∀ {t r : List Char},
        x.map (Prod.map f id) = some (t, r) → r.length < n := by
    intro f x n hlt t r h
    obtain ⟨⟨u, v⟩, hx, heq⟩ := Option.map_eq_some_iff.mp h
    cases heq
    exact hlt hx
  fun_induction upToQuote? s generalizing t r with
  | case1 => simp at h
  | case2 => simp_all
  | case3 => simp at h
  | case4 c' rest ih => exact Nat.lt_add_right 2 (hmap ih h)
  | case5 rest _ ih => exact Nat.lt_add_right 2 (hmap ih h)
  | case6 => simp_all
  | case7 c c' rest _ _ ih => exact Nat.lt_succ_of_lt (hmap ih h)

/-- Strings as MySQL reads them in its default mode. -/
def backslashes : StringReader := ⟨upToQuote?, length_lt_of_upToQuote?⟩

/-- Every backslash stands before one of the characters that keep it. -/
def Kept : List Char → Prop
  | [] => True
  | c :: s => (c = '\\' → s.head? = some '%' ∨ s.head? = some '_') ∧ Kept s

/-- A text as it stands between quotes. -/
def doubled (s : List Char) : List Char :=
  s.flatMap fun c => if c = '\'' then ['\'', '\''] else [c]

theorem doubled_quote (s : List Char) :
    doubled ('\'' :: s) = '\'' :: '\'' :: doubled s := rfl

theorem doubled_cons {c : Char} (hc : c ≠ '\'') (s : List Char) :
    doubled (c :: s) = c :: doubled s := by
  rw [doubled, List.flatMap_cons, if_neg hc]
  rfl

/-- Whatever its first character is, a text in quotes begins with it. -/
theorem exists_doubled_cons (c : Char) (s : List Char) :
    ∃ rest, doubled (c :: s) = c :: rest := by
  by_cases hc : c = '\''
  · exact ⟨_, by rw [hc, doubled_quote]⟩
  · exact ⟨_, doubled_cons hc s⟩

/-- A backslash and a character give no backslash, unless the character keeps it
or is one itself. -/
theorem upToQuote?_escape_ne {c : Char} (hkeep : ¬ (c = '%' ∨ c = '_')) (hc : c ≠ '\\')
    (rest s r : List Char) : upToQuote? ('\\' :: c :: rest) ≠ some ('\\' :: s, r) := by
  have hhead : ∀ t, unescaped c ++ t ≠ '\\' :: s := by
    intro t
    unfold unescaped
    split <;> simp_all
  rw [upToQuote?_escape]
  intro h
  obtain ⟨⟨t, r'⟩, -, heq⟩ := Option.map_eq_some_iff.mp h
  exact hhead t (Prod.mk.inj heq).1

/-- The last of some backslashes may as well be the first. -/
theorem replicate_append_backslash (k : Nat) (s : List Char) :
    List.replicate k '\\' ++ '\\' :: s = '\\' :: (List.replicate k '\\' ++ s) := by
  rw [← List.singleton_append, ← List.append_assoc, ← List.replicate_succ',
      List.replicate_succ]
  rfl

theorem upToQuote?_doubled_cons {c : Char} (hc : c ≠ '\\') (s r : List Char) :
    upToQuote? (doubled (c :: s) ++ r) =
      (upToQuote? (doubled s ++ r)).map (Prod.map (c :: ·) id) := by
  by_cases hquote : c = '\''
  · rw [hquote, doubled_quote]
    exact upToQuote?_doubled _
  · rw [doubled_cons hquote]
    exact upToQuote?_cons hc hquote _

/-- **Which contents come back.** A text between quotes, with the quotes in it
doubled, is read as itself exactly when all of its backslashes are kept; and it is
never read as itself behind further backslashes. -/
theorem upToQuote?_eq_some_iff {r : List Char} (hr : r.head? ≠ some '\'') :
    ∀ (s : List Char) (k : Nat) (r' : List Char),
      upToQuote? (doubled s ++ '\'' :: r) = some (List.replicate k '\\' ++ s, r') ↔
        k = 0 ∧ Kept s ∧ r' = r
  | [], k, r' => by
      have hdoubled : doubled [] ++ '\'' :: r = '\'' :: r := rfl
      rw [hdoubled, upToQuote?_close hr]
      simp [Kept, eq_comm (a := r)]
  | c :: s, k, r' => by
      by_cases hescape : c = '\\'
      · rw [hescape, doubled_cons (by decide), List.cons_append,
            replicate_append_backslash]
        cases s with
        | nil =>
            -- The backslash is read together with the closing quote.
            exact iff_of_false (upToQuote?_escape_ne (by decide) (by decide) _ _ _)
              (by simp [Kept])
        | cons c s =>
            by_cases hkeep : c = '%' ∨ c = '_'
            · have ih := upToQuote?_eq_some_iff hr s 0 r'
              have hc : c ≠ '\'' ∧ c ≠ '\\' ∧ unescaped c = ['\\', c] := by
                rcases hkeep with rfl | rfl <;> decide
              rw [doubled_cons hc.1, List.cons_append, upToQuote?_escape, hc.2.2]
              cases k with
              | zero => simpa [Kept, hkeep, hc.2.1] using ih
              | succ k => simp [List.replicate_succ, hc.2.1]
            · by_cases hbackslash : c = '\\'
              · -- Of two backslashes one is left, so the rest has to bring one more.
                have ih := upToQuote?_eq_some_iff hr s (k + 1) r'
                rw [hbackslash, replicate_append_backslash, doubled_cons (by decide),
                    List.cons_append, upToQuote?_escape]
                simpa [Kept, unescaped, List.replicate_succ] using ih
              · obtain ⟨rest, hrest⟩ := exists_doubled_cons c s
                rw [hrest]
                exact iff_of_false (upToQuote?_escape_ne hkeep hbackslash _ _ _)
                  (by simp_all [Kept])
      · have ih := upToQuote?_eq_some_iff hr s 0 r'
        rw [upToQuote?_doubled_cons hescape]
        cases k with
        | zero => simpa [Kept, hescape] using ih
        | succ k => simp [List.replicate_succ, hescape]

/-- A content found with doubled quotes is found with backslashes if it is
kept. -/
theorem backslashes_read?_iff {rest s r : List Char}
    (h : doubledQuotes.read? rest = some (s, r)) (r' : List Char) :
    backslashes.read? rest = some (s, r') ↔ Kept s ∧ r' = r := by
  obtain ⟨hrest, hr⟩ := eq_of_upToMark? h
  have hiff : upToQuote? (doubled s ++ '\'' :: r) = some (s, r') ↔ Kept s ∧ r' = r := by
    simpa using upToQuote?_eq_some_iff hr s 0 r'
  rw [hrest]
  exact hiff

/-! ## 3. Requirements -/

/-- What is not the separator is in a joined list if it is in one of its
parts. -/
theorem mem_intercalate_iff {ι α : Type} {a sep : α} (ha : a ≠ sep) (w : ι → List α) :
    ∀ xs : List ι, a ∈ [sep].intercalate (xs.map w) ↔ ∃ x ∈ xs, a ∈ w x
  | [] => by simp
  | [x] => by simp
  | x :: y :: xs => by
      have ih := mem_intercalate_iff ha w (y :: xs)
      rw [List.map_cons] at ih
      rw [List.map_cons, List.map_cons, List.intercalate_cons_cons, List.mem_append,
          List.mem_append, List.mem_singleton, or_iff_left ha, ih]
      simp

/-- A literal among the tokens of a formula is one among those of its factors. -/
theorem Formula.literal_mem_tokens_iff (l : Literal) (f : Formula (String × Literal)) :
    .literal l ∈ f.tokens ↔ ∃ c ∈ f, ∃ x ∈ c, .literal l ∈ x.tokens := by
  have hconjunction : ∀ c : List (Factor (String × Literal)),
      .literal l ∈ writtenConjunction tokenMarks equalityTokens c ↔
        ∃ x ∈ c, .literal l ∈ x.tokens :=
    fun c => mem_intercalate_iff (by simp) _ c
  have hformula : .literal l ∈ f.tokens ↔
      ∃ c ∈ f, .literal l ∈ writtenConjunction tokenMarks equalityTokens c :=
    mem_intercalate_iff (by simp) _ f
  simp only [hformula, hconjunction]

theorem Formula.literal_mem_tokens_of_factors {d : Dialect} {l : Literal}
    {f : Formula (String × Value)}
    (h : ∀ c ∈ f, ∀ x ∈ c, .literal l ∈ (x.map d.decoded).tokens ↔
      ∃ p ∈ x.atoms, d.literalOf p.2 = l) :
    .literal l ∈ (f.map d.decoded).tokens ↔ ∃ p ∈ f.atoms, d.literalOf p.2 = l := by
  rw [literal_mem_tokens_iff]
  constructor
  · rintro ⟨_, hconjunction, _, hfactor, hmem⟩
    obtain ⟨c, hc, rfl⟩ := List.mem_map.mp hconjunction
    obtain ⟨x, hx, rfl⟩ := List.mem_map.mp hfactor
    obtain ⟨p, hp, hl⟩ := (h c hc x hx).mp hmem
    exact ⟨p, List.mem_flatMap_of_mem hc (List.mem_flatMap_of_mem hx hp), hl⟩
  · rintro ⟨p, hp, hl⟩
    obtain ⟨c, hc, hp⟩ := List.mem_flatMap.mp hp
    obtain ⟨x, hx, hp⟩ := List.mem_flatMap.mp hp
    exact ⟨_, List.mem_map_of_mem hc, _, List.mem_map_of_mem hx,
      (h c hc x hx).mpr ⟨p, hp, hl⟩⟩

theorem Factor.literal_mem_tokens (d : Dialect) (l : Literal)
    (f : Factor (String × Value)) :
    .literal l ∈ (f.map d.decoded).tokens ↔ ∃ p ∈ f.atoms, d.literalOf p.2 = l := by
  induction f using Factor.induct with
  | equality p => simp [Dialect.decoded, eq_comm]
  | negated f ih => simpa using ih
  | group ds ih => simpa using Formula.literal_mem_tokens_of_factors ih

/-- The literals of a formula are those of its values. -/
theorem Formula.literal_mem_tokens (d : Dialect) (l : Literal)
    (f : Formula (String × Value)) :
    .literal l ∈ (f.map d.decoded).tokens ↔ ∃ p ∈ f.atoms, d.literalOf p.2 = l :=
  literal_mem_tokens_of_factors fun _ _ x _ => x.literal_mem_tokens d l

/-- Of the values that are written between quotes, only strings can lose a
backslash. -/
theorem kept_literalOf_iff (d : Dialect) : ∀ v : Value,
    (∀ s, d.literalOf v = .quoted s → Kept s.toList) ↔ ∀ s, v = .text s → Kept s.toList
  | .bool _ | .int _ | .text _ => by simp [Dialect.literalOf]
  | .float x => by
      have hkept : ∀ s ∈ ["NaN", "Infinity", "-Infinity"], Kept s.toList := by simp [Kept]
      refine iff_of_true (fun s hs => hkept s ?_) (by simp)
      simp only [Dialect.literalOf] at hs
      split at hs
      · simp_all
      · split at hs
        · split at hs <;> simp_all
        · simp at hs

/-- The joined fragments of requirements are the text of their conjunction. -/
theorem Where.toList_fragments (d : Dialect) (calls : List Term) :
    (" and ".intercalate
        (Restriction.addAll ({ dialect := d } : Where) calls).fragments).toList =
      (Clause.formula (calls.map .term)).text d := by
  rw [Clause.text_formula, Where.addAll_eq]
  refine Eq.trans ?_ (toList_intercalate_text d (calls.map .term))
  rw [Where.fragments, List.map_map]
  rfl

/-- **Which requirements come back where backslashes are read.** The joined
fragments of requirements, as they are written for MySQL and read by it, give the
tokens of the conjunction that was meant exactly when every backslash in a string
stands before `%` or `_`. Of any other string some backslash is lost, or the
closing quote is. Field names come back in any case. -/
theorem Where.fragments_lex_iff (calls : List Term) :
    lexWith .mysql backslashes (" and ".intercalate
        (Restriction.addAll ({ dialect := .mysql } : Where) calls).fragments).toList =
      some ((Clause.formula (calls.map .term)).map fun p =>
        (p.1, Dialect.mysql.literalOf p.2)).tokens ↔
    ∀ call ∈ calls, ∀ p ∈ (Clause.term call).pairs, ∀ s, p.2 = .text s →
      Kept s.toList := by
  have hlex : lex .mysql ((Clause.formula (calls.map .term)).text .mysql) =
      some ((Clause.formula (calls.map .term)).map Dialect.mysql.decoded).tokens := by
    have h :=
      Formula.lexesTo .mysql (Clause.formula (calls.map .term)) [] (by simp [Boundary])
    simpa using h
  have hstrings := lexWith_eq_some_iff .mysql (backslashes_read?_iff ·) _ _ hlex
  rw [Where.toList_fragments]
  refine hstrings.trans ?_
  simp only [StringsKept, Formula.literal_mem_tokens, Clause.atoms_formula]
  constructor
  · intro h call hcall p hp
    have hmem := List.mem_flatMap_of_mem (List.mem_map_of_mem hcall) hp
    exact (kept_literalOf_iff .mysql p.2).mp fun s hs => h s ⟨p, hmem, hs⟩
  · rintro h s ⟨p, hp, hs⟩
    obtain ⟨c, hc, hp⟩ := List.mem_flatMap.mp hp
    obtain ⟨call, hcall, rfl⟩ := List.mem_map.mp hc
    exact (kept_literalOf_iff .mysql p.2).mpr (h call hcall p hp) s hs

/-- A string of one backslash takes its closing quote for a part of its
content. -/
theorem Where.fragments_lex_backslash :
    let calls : List Term :=
      [.noneOf ⟨[("a", .text "\\")], by decide, by decide, by decide⟩]
    let text := (" and ".intercalate
      (Restriction.addAll ({ dialect := .mysql } : Where) calls).fragments).toList
    text = "not \x60a\x60 = '\\'".toList ∧ lexWith .mysql backslashes text = none := by
  intro calls text
  have htext : text = "not \x60a\x60 = '\\'".toList := by decide
  refine ⟨htext, ?_⟩
  rw [htext]
  simp [lexWith_cons, isWordChar, Dialect.identifierMark, upToMark?, backslashes,
    upToQuote?, unescaped]

end RowAccess.Sql
