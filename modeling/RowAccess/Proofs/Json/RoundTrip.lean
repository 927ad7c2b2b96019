/-
RowAccess.Proofs.Json.RoundTrip — what is written in JSON is read back.

`LexesTo` says that a written text gives certain tokens whatever follows it. Conditions,
rules and lists of rules end in a bracket, so they lex to their tokens without any
condition on what follows; a value needs the comma or the brace behind it. The tokens
are a way of writing what was written, so the readers return it.

The only assumption is that floats are read back from their own texts (`ReadsBack`).

* `exists_writesConditions`, `exists_writesRule`, `exists_writesRules` — what the writer
  puts down belongs to the grammar.
* `decode_written` — reading undoes writing.
-/
import Mathlib
import RowAccess.Proofs.Json.Reading
import RowAccess.Proofs.Json.Words

namespace RowAccess

/-- Every float among the values is read back from its text. -/
def Conditions.ReadsBack (c : Conditions) : Prop :=
  ∀ pair ∈ c.pairs, Json.ReadsBack pair.2

/-- The conditions are read back, if there are any. -/
def Rule.ReadsBack (r : Rule) : Prop := ∀ c ∈ r.conditions, c.ReadsBack

/-- Every rule is read back. -/
def RuleList.ReadsBack (rules : RuleList) : Prop := ∀ r ∈ rules.toList, r.ReadsBack

instance (c : Conditions) : Decidable c.ReadsBack :=
  inferInstanceAs (Decidable (∀ pair ∈ c.pairs, Json.ReadsBack pair.2))

instance (r : Rule) : Decidable r.ReadsBack :=
  inferInstanceAs (Decidable (∀ c ∈ r.conditions, c.ReadsBack))

instance (rules : RuleList) : Decidable rules.ReadsBack :=
  inferInstanceAs (Decidable (∀ r ∈ rules.toList, r.ReadsBack))

namespace Json

open Text (stops_cons)

/-- A text gives the tokens `w` whatever follows it. -/
def LexesTo (text : List Char) (w : List Token) : Prop :=
  ∀ rest, tokens (text ++ rest) = w ++ tokens rest

/-- What is joined by commas begins with the first part and a comma. -/
theorem intercalate_comma_append (x y : List Char) (xs : List (List Char))
    (rest : List Char) :
    [','].intercalate (x :: y :: xs) ++ rest =
      x ++ ',' :: ([','].intercalate (y :: xs) ++ rest) := by
  rw [List.intercalate_cons_cons, List.append_assoc, List.append_assoc,
      List.singleton_append]

/-! ## 1. Conditions -/

/-- A pair as written. -/
def writePair (pair : String × Value) : List Char :=
  quoted pair.1 ++ ':' :: writeValue pair.2

/-- A pair is written as three tokens. Behind it stands a character that cannot
continue a number. -/
theorem exists_tokens_writePair {pair : String × Value} (h : ReadsBack pair.2) :
    ∃ t, scalar? t = some pair.2 ∧ ∀ c more, continuesNumber c = false →
      tokens (writePair pair ++ c :: more) =
        .string (some pair.1) :: .colon :: t :: tokens (c :: more) := by
  obtain ⟨t, ht, htokens⟩ := exists_token h
  refine ⟨t, ht, fun c more hc => ?_⟩
  rw [writePair, List.append_assoc, List.cons_append, tokens_quoted, tokens_colon,
    htokens _ ((stops_cons _ _ _).mpr hc)]

theorem exists_writesPairs : ∀ {pairs : List (String × Value)}, pairs ≠ [] →
    (∀ pair ∈ pairs, ReadsBack pair.2) →
    ∃ w, WritesPairs pairs w ∧
      LexesTo ([','].intercalate (pairs.map writePair) ++ ['}']) w
  | [pair], _, h => by
      obtain ⟨t, ht, htokens⟩ := exists_tokens_writePair (h pair (by simp))
      refine ⟨_, .last ht, fun rest => ?_⟩
      simp [htokens '}' rest (by decide)]
  | pair :: pair' :: pairs, _, h => by
      obtain ⟨t, ht, htokens⟩ := exists_tokens_writePair (h pair (by simp))
      obtain ⟨w, hw, hlex⟩ := exists_writesPairs (List.cons_ne_nil pair' pairs)
        fun p hp => h p (List.mem_cons_of_mem _ hp)
      -- The comma behind the pair ends a number as the brace does.
      refine ⟨_, .cons ht hw, fun rest => ?_⟩
      rw [List.map_cons, List.map_cons, List.append_assoc, intercalate_comma_append,
        htokens ',' _ (by decide), tokens_comma, ← List.map_cons,
        ← List.append_assoc, hlex]
      rfl

/-- **Conditions are written in the grammar.** -/
theorem exists_writesConditions {c : Conditions} (h : c.ReadsBack) :
    ∃ w, WritesConditions c.pairs w ∧ LexesTo (writeConditions c) w := by
  obtain ⟨w, hw, hlex⟩ := exists_writesPairs c.wellFormed.ne_nil h
  refine ⟨_, .pairs hw, fun rest => ?_⟩
  change tokens ('{' ::
    (([','].intercalate (c.pairs.map writePair) ++ ['}']) ++ rest)) = _
  rw [tokens_openObject, hlex]
  rfl

/-! ## 2. Rules -/

/-- The conditions of a rule as written. -/
def writeRuleConditions : Option Conditions → List Char
  | some c => writeConditions c
  | none => "null".toList

theorem exists_writesRuleConditions {c : Option Conditions} (h : ∀ x ∈ c, x.ReadsBack) :
    ∃ w, WritesRuleConditions (c.map (·.pairs)) w ∧
      LexesTo (writeRuleConditions c) w := by
  cases c with
  | none => exact ⟨_, .null, tokens_null⟩
  | some c =>
      obtain ⟨w, hw, hlex⟩ := exists_writesConditions (h c rfl)
      exact ⟨w, .pairs hw, hlex⟩

/-- The member that gives the effect of a rule. -/
theorem writesMember_effect (c : Option (Option (List (String × Value)))) : ∀ e : Effect,
    WritesMember ⟨c, none⟩ ⟨c, some e⟩
      [.string (some "inverted"), .colon, .bool (e == .deny)]
  | .allow => @WritesMember.inverted c false
  | .deny => @WritesMember.inverted c true

theorem writeRule_append (r : Rule) (rest : List Char) :
    writeRule r ++ rest =
      '{' :: (quoted "conditions" ++ ':' :: (writeRuleConditions r.conditions ++
        ',' :: (quoted "inverted" ++ ':' ::
          ((Value.boolText (r.effect == .deny)).toList ++ '}' :: rest)))) := by
  unfold writeRule writeRuleConditions
  cases r.conditions <;> simp

/-- **A rule is written in the grammar**, as an object of both members. -/
theorem exists_writesRule {r : Rule} (h : r.ReadsBack) :
    ∃ w, WritesRule r.draft w ∧ LexesTo (writeRule r) w := by
  obtain ⟨w, hw, hlex⟩ := exists_writesRuleConditions h
  have hmembers : WritesMembers {} r.draft _ :=
    .cons (.conditions hw) (.last (writesMember_effect _ r.effect))
  refine ⟨_, .object hmembers, fun rest => ?_⟩
  rw [writeRule_append, tokens_openObject, tokens_quoted, tokens_colon, hlex,
    tokens_comma, tokens_quoted, tokens_colon, tokens_bool, tokens_closeObject]
  simp

theorem exists_writesMoreRules :
    ∀ {rules : List Rule}, rules ≠ [] → (∀ r ∈ rules, r.ReadsBack) →
    ∃ w, WritesMoreRules (rules.map Rule.draft) w ∧
      LexesTo ([','].intercalate (rules.map writeRule) ++ [']']) w
  | [r], _, h => by
      obtain ⟨w, hw, hlex⟩ := exists_writesRule (h r (by simp))
      refine ⟨_, .last hw, fun rest => ?_⟩
      simp [hlex (']' :: rest)]
  | r :: r' :: rules, _, h => by
      obtain ⟨w, hw, hlex⟩ := exists_writesRule (h r (by simp))
      obtain ⟨w', hw', hlex'⟩ := exists_writesMoreRules (List.cons_ne_nil r' rules)
        fun x hx => h x (List.mem_cons_of_mem _ hx)
      refine ⟨_, .cons hw hw', fun rest => ?_⟩
      rw [List.map_cons, List.map_cons, List.append_assoc, intercalate_comma_append, hlex,
        tokens_comma, ← List.map_cons, ← List.append_assoc, hlex', List.append_assoc]
      rfl

/-- **A list of rules is written in the grammar.** -/
theorem exists_writesRules {rules : RuleList} (h : rules.ReadsBack) :
    ∃ w, WritesRules (rules.toList.map Rule.draft) w ∧ LexesTo (writeRules rules) w := by
  obtain ⟨rules⟩ := rules
  cases rules with
  | nil => exact ⟨_, .none, fun rest => by simp [writeRules]⟩
  | cons r rules =>
      obtain ⟨w, hw, hlex⟩ := exists_writesMoreRules (List.cons_ne_nil r rules) h
      refine ⟨_, .rules hw, fun rest => ?_⟩
      change tokens ('[' ::
        (([','].intercalate ((r :: rules).map writeRule) ++ [']']) ++ rest)) = _
      rw [tokens_openArray, hlex]
      rfl

/-! ## 3. Whole texts -/

/-- The tokens of a whole text that lexes. -/
theorem LexesTo.tokens_eq {text : List Char} {w : List Token} (h : LexesTo text w) :
    tokens (String.ofList text).toList = w := by
  have htokens := h []
  rwa [tokens_nil, List.append_nil, List.append_nil,
      ← String.toList_ofList (l := text)] at htokens

theorem decode_writeConditions {c : Conditions} (h : c.ReadsBack) :
    decode readConditions (String.ofList (writeConditions c)) = .ok c := by
  obtain ⟨w, hw, hlex⟩ := exists_writesConditions h
  rwa [decode_conditions_eq_ok_iff, hlex.tokens_eq]

theorem decode_writeRule {r : Rule} (h : r.ReadsBack) :
    decode readRule (String.ofList (writeRule r)) = .ok r := by
  obtain ⟨w, hw, hlex⟩ := exists_writesRule h
  rwa [decode_rule_eq_ok_iff, hlex.tokens_eq]

theorem decode_writeRules {rules : RuleList} (h : rules.ReadsBack) :
    decode readRules (String.ofList (writeRules rules)) = .ok rules := by
  obtain ⟨w, hw, hlex⟩ := exists_writesRules h
  rwa [decode_rules_eq_ok_iff, hlex.tokens_eq]

/-- **Reading undoes writing**, for conditions, rules and lists of rules whose floats
are read back. What is read is equal in every part: the order of rules and of pairs, the
effect of each rule, whether it has conditions, and the kind of each value. So a text that
was accepted says the same as what is written of its content. Every finite float has a
point or an exponent in its text. -/
theorem decode_written :
    (∀ c : Conditions, c.ReadsBack →
      decode readConditions (String.ofList (writeConditions c)) = .ok c ∧
        ∀ text, decode readConditions text = .ok c →
          decode readConditions (String.ofList (writeConditions c)) =
            decode readConditions text) ∧
    (∀ r : Rule, r.ReadsBack →
      decode readRule (String.ofList (writeRule r)) = .ok r ∧
        ∀ text, decode readRule text = .ok r →
          decode readRule (String.ofList (writeRule r)) = decode readRule text) ∧
    (∀ rules : RuleList, rules.ReadsBack →
      decode readRules (String.ofList (writeRules rules)) = .ok rules ∧
        ∀ text, decode readRules text = .ok rules →
          decode readRules (String.ofList (writeRules rules)) = decode readRules text) ∧
    ∀ x : Float, x.isNaN = false → x.isInf = false →
      '.' ∈ floatText x ∨ 'e' ∈ floatText x := by
  refine ⟨fun c h => ⟨decode_writeConditions h, fun text htext => ?_⟩,
    fun r h => ⟨decode_writeRule h, fun text htext => ?_⟩,
    fun rules h => ⟨decode_writeRules h, fun text htext => ?_⟩, fun x hnan hinf => ?_⟩
  · rw [decode_writeConditions h, htext]
  · rw [decode_writeRule h, htext]
  · rw [decode_writeRules h, htext]
  · rw [floatText, hnan, hinf]
    exact mark_mem_write x

/-- Conditions whose values are easily taken for others: the least whole number, a whole
float, and texts that spell a truth value, a number and controls between quotes. -/
def deceptive : Conditions where
  pairs := [("least", .int Int64.minValue), ("whole", .float 2.0), ("true", .text "true"),
    ("seven", .text "7"), ("quote", .text "\"a\\\n\u0001\"")]
  wellFormed := ⟨by decide, by decide, by decide⟩

/-- A rule on every record stands in front of a rule with conditions. An array of the
members of a rule is accepted, too, but it is not what the writer puts down. -/
theorem decode_written_deceptive :
    (RuleList.ReadsBack ⟨[.deny, .allowWhen deceptive]⟩ ∧
      decode readRules (String.ofList (writeRules ⟨[.deny, .allowWhen deceptive]⟩)) =
        .ok ⟨[.deny, .allowWhen deceptive]⟩) ∧
    Rule.deny.ReadsBack ∧ decode readRule " [ null, true ] " = .ok .deny ∧
      decode readRule (String.ofList (writeRule .deny)) =
        decode readRule " [ null, true ] " := by
  have hrules : RuleList.ReadsBack ⟨[.deny, .allowWhen deceptive]⟩ := by decide +kernel
  have hrule : Rule.deny.ReadsBack := by decide
  have htext : decode readRule " [ null, true ] " = .ok .deny := by cbv
  exact ⟨⟨hrules, (decode_written.2.2.1 _ hrules).1⟩, hrule, htext,
    (decode_written.2.1 _ hrule).2 _ htext⟩

end Json

end RowAccess
