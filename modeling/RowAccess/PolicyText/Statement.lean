/-
RowAccess.PolicyText.Statement — the statements of a policy.

    can read Post
    cannot read Post { private: true, "owner id": 7, }

A statement is a verb, an action, a subject, and optionally conditions between
braces. Conditions are taken as written; whether they are well formed is
decided when the statement becomes a rule. Reading stops at the first place
that no statement can pass.

* `Statement` — one statement.
* `readStatements` — all statements at the front of a text.
-/
import RowAccess.PolicyText.Layout
import RowAccess.PolicyText.Literal
import RowAccess.Rule

namespace RowAccess.PolicyText

open Text (keyword? eq_append_of_keyword?)

/-- A statement of a policy. -/
structure Statement where
  effect : Effect
  action : String
  subject : String
  /-- The pairs between braces, or `none` if there are no braces. -/
  pairs : Option (List (String × Value))
  deriving BEq

/-! ## Conditions -/

/-- The name of a field, between quotes or bare. -/
def fieldName? (s : List Char) : Option (String × List Char) :=
  (quoted? s).or (identifier? s)

/-- The next pair, or `none` if no field name follows. After a field name the
rest of the pair is due. -/
def readPair (s : List Char) : Except Failure (Option ((String × Value) × List Char)) :=
  match fieldName? (skipLayout s) with
  | none => .ok none
  | some (name, s) =>
    match skipLayout s with
    | ':' :: s =>
      match readValue (skipLayout s) with
      | .ok (value, s) => .ok (some ((name, value), s))
      | .error failure => .error failure
    | s => .error ⟨s, some .colon⟩

/-- The text after a comma, if one follows. -/
def comma? (s : List Char) : Option (List Char) :=
  match skipLayout s with
  | ',' :: s => some s
  | _ => none

theorem length_lt_of_comma? {s rest : List Char} (h : comma? s = some rest) :
    rest.length < s.length := by
  have hs := length_skipLayout_le s
  unfold comma? at h
  split at h
  · rename_i t ht
    rw [ht] at hs
    cases h
    exact hs
  · simp at h

theorem length_lt_of_fieldName? {s rest : List Char} {name : String}
    (h : fieldName? s = some (name, rest)) : rest.length < s.length := by
  unfold fieldName? at h
  cases hq : quoted? s with
  | none => rw [hq] at h; exact length_lt_of_identifier? h
  | some read => rw [hq] at h; cases h; exact length_lt_of_quoted? hq

theorem length_lt_of_readPair {s rest : List Char} {pair : String × Value}
    (h : readPair s = .ok (some (pair, rest))) : rest.length < s.length := by
  have hs := length_skipLayout_le s
  unfold readPair at h
  split at h
  · simp at h
  · rename_i name s₁ hn
    have h₁ := length_lt_of_fieldName? hn
    have h₂ := length_skipLayout_le s₁
    split at h
    · rename_i s₂ hc
      rw [hc, List.length_cons] at h₂
      split at h
      · rename_i value s₃ hv
        have h₃ := length_le_of_readValue hv
        have h₄ := length_skipLayout_le s₂
        simp only [Except.ok.injEq, Option.some.injEq, Prod.mk.injEq] at h
        rw [← h.2]
        omega
      · simp at h
    · simp at h

/-- The pairs that follow, each behind a comma. A comma without a pair behind
it is left in place. -/
def readMorePairs (s : List Char) : Reading (List (String × Value)) :=
  match _hc : comma? s with
  | none => .ok ([], s)
  | some behind =>
    match _hp : readPair behind with
    | .error failure => .error failure
    | .ok none => .ok ([], s)
    | .ok (some (pair, rest)) =>
      match readMorePairs rest with
      | .error failure => .error failure
      | .ok (pairs, s) => .ok (pair :: pairs, s)
termination_by s.length
decreasing_by exact Nat.lt_trans (length_lt_of_readPair _hp) (length_lt_of_comma? _hc)

/-- The pairs at the front of the text, separated by commas. -/
def readPairs (s : List Char) : Reading (List (String × Value)) :=
  match readPair s with
  | .error failure => .error failure
  | .ok none => .ok ([], s)
  | .ok (some (pair, s)) =>
    match readMorePairs s with
    | .error failure => .error failure
    | .ok (pairs, s) => .ok (pair :: pairs, s)

/-- The conditions that follow, or `none` if no brace opens them. A comma may
stand behind the last pair, and also where there is none. -/
def readConditions (s : List Char) : Reading (Option (List (String × Value))) :=
  match skipLayout s with
  | '{' :: body =>
    match readPairs body with
    | .error failure => .error failure
    | .ok (pairs, s) =>
      match skipLayout ((comma? s).getD s) with
      | '}' :: s => .ok (some pairs, s)
      | s => .error ⟨s, some .closingBrace⟩
  | _ => .ok (none, s)

/-! ## Statements -/

/-- The verb at the front of the text. -/
def verb? (s : List Char) : Option (Effect × List Char) :=
  match keyword? Effect.deny.verb s with
  | some s => some (.deny, s)
  | none => (keyword? Effect.allow.verb s).map (.allow, ·)

/-- The text behind the blanks that must separate a verb from its action.
Comments do not separate them. -/
def afterBlanks? : List Char → Option (List Char)
  | [] => none
  | c :: s => if isBlank c then some (s.dropWhile isBlank) else none

/-- The next statement, or `none` if no verb follows. After a verb the rest of
the statement is due. -/
def readStatement (s : List Char) : Except Failure (Option (Statement × List Char)) :=
  match verb? (skipLayout s) with
  | none => .ok none
  | some (effect, s) =>
    match afterBlanks? s with
    | none => .error ⟨s, none⟩
    | some s =>
      match identifier? s with
      | none => .error ⟨s, some .action⟩
      | some (action, s) =>
        match identifier? (skipLayout s) with
        | none => .error ⟨skipLayout s, some .subject⟩
        | some (subject, s) =>
          match readConditions s with
          | .error failure => .error failure
          | .ok (pairs, s) => .ok (some (⟨effect, action, subject, pairs⟩, s))

/-! ### Every statement takes something from the text -/

theorem length_le_of_readMorePairs {s rest : List Char} {pairs : List (String × Value)}
    (h : readMorePairs s = .ok (pairs, rest)) : rest.length ≤ s.length := by
  fun_induction readMorePairs s generalizing pairs with
  | case1 s _ => cases h; exact Nat.le_refl _
  | case2 => simp at h
  | case3 s _ _ _ => cases h; exact Nat.le_refl _
  | case4 => simp at h
  | case5 s behind hc pair s₁ hp pairs s₂ hm ih =>
    cases h
    have h₁ := length_lt_of_comma? hc
    have h₂ := length_lt_of_readPair hp
    have h₃ := ih hm
    omega

theorem length_le_of_readPairs {s rest : List Char} {pairs : List (String × Value)}
    (h : readPairs s = .ok (pairs, rest)) : rest.length ≤ s.length := by
  unfold readPairs at h
  split at h
  · simp at h
  · cases h
    exact Nat.le_refl _
  · rename_i pair s₁ hp
    have h₁ := length_lt_of_readPair hp
    split at h
    · simp at h
    · rename_i hm
      cases h
      have h₂ := length_le_of_readMorePairs hm
      omega

theorem length_le_of_readConditions {s rest : List Char}
    {pairs : Option (List (String × Value))} (h : readConditions s = .ok (pairs, rest)) :
    rest.length ≤ s.length := by
  have hs := length_skipLayout_le s
  unfold readConditions at h
  split at h
  · rename_i body hb
    rw [hb, List.length_cons] at hs
    split at h
    · simp at h
    · rename_i ps s₁ hp
      have h₁ := length_le_of_readPairs hp
      have h₂ : ((comma? s₁).getD s₁).length ≤ s₁.length := by
        cases hc : comma? s₁ with
        | none => exact Nat.le_refl _
        | some t => exact Nat.le_of_lt (length_lt_of_comma? hc)
      have h₃ := length_skipLayout_le ((comma? s₁).getD s₁)
      split at h
      · rename_i s₂ hb₂
        rw [hb₂, List.length_cons] at h₃
        cases h
        omega
      · simp at h
  · cases h
    exact Nat.le_refl _

theorem length_lt_of_verb? {s rest : List Char} {effect : Effect}
    (h : verb? s = some (effect, rest)) : rest.length < s.length := by
  unfold verb? at h
  split at h
  · rename_i hk
    cases h
    rw [eq_append_of_keyword? hk, List.length_append]
    exact Nat.lt_add_of_pos_left (by decide)
  · obtain ⟨r, hr, he⟩ := Option.map_eq_some_iff.1 h
    cases he
    rw [eq_append_of_keyword? hr, List.length_append]
    exact Nat.lt_add_of_pos_left (by decide)

theorem length_lt_of_afterBlanks? {s rest : List Char} (h : afterBlanks? s = some rest) :
    rest.length < s.length := by
  unfold afterBlanks? at h
  split at h
  · simp at h
  · split at h
    · cases h
      exact Nat.lt_succ_of_le (List.dropWhile_sublist _).length_le
    · simp at h

theorem length_lt_of_readStatement {s rest : List Char} {statement : Statement}
    (h : readStatement s = .ok (some (statement, rest))) : rest.length < s.length := by
  have hs := length_skipLayout_le s
  unfold readStatement at h
  split at h
  · simp at h
  · rename_i effect s₁ hv
    have h₁ := length_lt_of_verb? hv
    split at h
    · simp at h
    · rename_i s₂ hb
      have h₂ := length_lt_of_afterBlanks? hb
      split at h
      · simp at h
      · rename_i action s₃ ha
        have h₃ := length_lt_of_identifier? ha
        have h₃' := length_skipLayout_le s₃
        split at h
        · simp at h
        · rename_i subject s₄ hsub
          have h₄ := length_lt_of_identifier? hsub
          split at h
          · simp at h
          · rename_i pairs s₅ hc
            have h₅ := length_le_of_readConditions hc
            cases h
            omega

/-- All statements at the front of the text. Where no verb follows, layout
included, reading ends. -/
def readStatements (s : List Char) : Reading (List Statement) :=
  match _h : readStatement s with
  | .error failure => .error failure
  | .ok none => .ok ([], s)
  | .ok (some (statement, rest)) =>
    match readStatements rest with
    | .error failure => .error failure
    | .ok (statements, s) => .ok (statement :: statements, s)
termination_by s.length
decreasing_by exact length_lt_of_readStatement _h

end RowAccess.PolicyText
