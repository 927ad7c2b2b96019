/-
RowAccess.Proofs.Json.Reading — the readers of JSON and its grammar.

A reader is given the tokens of its part with anything behind them. If they are a way
of writing pairs or rules, it returns these and what is behind, or the fault of the
first pairs that are not well formed (`checked`). Conversely, whatever is read was
written there, token by token.

While the members of a rule are read, what is known of the rule is what its earlier
members have said (`Members.said`). The members that follow complete it.

* `readConditionsWithin_append`, `readRuleWithin_append`, `readRules_append` — what is
  written is read, or refused for the pairs that it is written with.
* `writes_of_readConditionsWithin`, `writes_of_readRuleWithin`, `writes_of_readRules` —
  what is read is written.
* `decode_conditions_eq_ok_iff`, `decode_rule_eq_ok_iff`, `decode_rules_eq_ok_iff` — the
  same for whole texts.
-/
import RowAccess.Proofs.Json.Grammar

namespace RowAccess.Json

/-- The reading of conditions or rules that were checked. -/
def checked {α : Type} (result : Except Conditions.Fault α) (rest : List Token) :
    Reading α :=
  match result with
  | .error fault => .error (.illFormed fault)
  | .ok a => .ok (a, rest)

/-! ## 1. Passing over -/

/-- What is passed over is a part of the text, whatever is behind it. -/
theorem exists_passedOver {care : Care} {due : Due} {frames : List Frame}
    {ts rest : List Token} (h : passOver care due frames ts = some rest) :
    ∃ w, ts = w ++ rest ∧ ∀ more, passOver care due frames (w ++ more) = some more := by
  fun_induction passOver care due frames ts with
  | case1 =>
      cases h
      exact ⟨[], rfl, fun more => by rw [List.nil_append, passOver]⟩
  | case2 frames ts hallowed ih =>
      obtain ⟨w, rfl, hw⟩ := ih h
      exact ⟨.openArray :: .closeArray :: w, rfl,
        fun more => by simp [passOver, hallowed, hw]⟩
  | case4 frames ts hts hallowed ih =>
      obtain ⟨w, rfl, hw⟩ := ih h
      cases w with
      | nil => exact absurd (hw []) (by simp [passOver])
      | cons t w =>
          refine ⟨.openArray :: t :: w, rfl, fun more => ?_⟩
          rw [List.cons_append, List.cons_append, passOver]
          · rw [if_pos hallowed]
            exact hw more
          · rintro ts ⟨⟩
            exact hts _ rfl
  | case6 frames ts hallowed ih =>
      obtain ⟨w, rfl, hw⟩ := ih h
      exact ⟨.openObject :: .closeObject :: w, rfl,
        fun more => by simp [passOver, hallowed, hw]⟩
  | case8 frames ts hts hallowed ih =>
      obtain ⟨w, rfl, hw⟩ := ih h
      cases w with
      | nil => exact absurd (hw []) (by simp [passOver])
      | cons t w =>
          refine ⟨.openObject :: t :: w, rfl, fun more => ?_⟩
          rw [List.cons_append, List.cons_append, passOver]
          · rw [if_pos hallowed]
            exact hw more
          · rintro ts ⟨⟩
            exact hts _ rfl
  | case10 frames t ts _ _ _ _ haccepted ih =>
      obtain ⟨w, rfl, hw⟩ := ih h
      refine ⟨t :: w, rfl, fun more => ?_⟩
      rw [List.cons_append, passOver]
      · rw [if_pos haccepted, hw]
      all_goals simp_all
  | case12 frames s ts haccepted ih =>
      obtain ⟨w, rfl, hw⟩ := ih h
      exact ⟨.string s :: .colon :: w, rfl, fun more => by simp [passOver, haccepted, hw]⟩
  | case14 frames ts ih =>
      obtain ⟨w, rfl, hw⟩ := ih h
      exact ⟨.comma :: w, rfl, fun more => by simp [passOver, hw]⟩
  | case15 frames ts ih =>
      obtain ⟨w, rfl, hw⟩ := ih h
      exact ⟨.comma :: w, rfl, fun more => by simp [passOver, hw]⟩
  | case16 frames ts ih =>
      obtain ⟨w, rfl, hw⟩ := ih h
      exact ⟨.closeArray :: w, rfl, fun more => by simp [passOver, hw]⟩
  | case17 frames ts ih =>
      obtain ⟨w, rfl, hw⟩ := ih h
      exact ⟨.closeObject :: w, rfl, fun more => by simp [passOver, hw]⟩
  | _ => simp at h

theorem passOver_append {care : Care} {due : Due} {frames : List Frame} {w : List Token}
    (h : passOver care due frames w = some []) (rest : List Token) :
    passOver care due frames (w ++ rest) = some rest := by
  obtain ⟨w', hw, hall⟩ := exists_passedOver h
  rw [hw, List.append_nil, hall]

/-! ## 2. Conditions -/

section Conditions

variable {levels : Nat} {pairs : List (String × Value)} {w rest ts : List Token}

/-- **Pairs are read**, up to the brace that closes them. -/
theorem readPairs_append (levels : Nat) (h : WritesPairs pairs w) (rest : List Token) :
    readPairs levels (w ++ rest) = .ok (pairs, rest) := by
  induction h with
  | last hv => simp [readPairs, hv]
  | cons hv _ ih => simp [readPairs, hv, ih]

/-- **Nothing but pairs is read as pairs.** -/
theorem writes_of_readPairs (h : readPairs levels ts = .ok (pairs, rest)) :
    ∃ w, WritesPairs pairs w ∧ ts = w ++ rest := by
  fun_induction readPairs levels ts generalizing pairs with
  | case3 name t v hv ts pairs' rest' hread ih =>
      cases h
      obtain ⟨w, hw, rfl⟩ := ih hread
      exact ⟨_, .cons hv hw, rfl⟩
  | case4 name t v hv ts =>
      cases h
      exact ⟨_, .last hv, rfl⟩
  | _ => simp at h

theorem checkPairs_ok (pairs : List (String × Value)) (rest : List Token) :
    checkPairs (.ok (pairs, rest)) = checked (Conditions.ofPairs pairs) rest := by
  rw [checkPairs]
  cases Conditions.ofPairs pairs <;> rfl

/-- The pairs that were checked are those that were read. -/
theorem read_of_checkPairs {read : Reading (List (String × Value))} {c : Conditions}
    (h : checkPairs read = .ok (c, rest)) : read = .ok (c.pairs, rest) := by
  unfold checkPairs at h
  split at h
  · simp at h
  · split at h
    · simp at h
    · rename_i hc
      cases h
      rw [Conditions.ofPairs_eq_ok_iff.mp hc]

/-- **Conditions are read**, if their pairs are well formed. -/
theorem readConditionsWithin_append (levels : Nat) (h : WritesConditions pairs w)
    (rest : List Token) :
    readConditionsWithin levels (w ++ rest) =
      checked (Conditions.ofPairs pairs) rest := by
  cases h with
  | none => exact checkPairs_ok [] rest
  | pairs h =>
      have hread := readPairs_append levels h rest
      rw [← checkPairs_ok, ← hread]
      cases h <;> rfl

/-- **Nothing but conditions is read as conditions**, and their pairs are those
written, in their order. -/
theorem writes_of_readConditionsWithin {c : Conditions}
    (h : readConditionsWithin levels ts = .ok (c, rest)) :
    ∃ w, WritesConditions c.pairs w ∧ ts = w ++ rest := by
  unfold readConditionsWithin at h
  split at h
  · have hread := read_of_checkPairs h
    simp only [Except.ok.injEq, Prod.mk.injEq] at hread
    obtain ⟨hnil, rfl⟩ := hread
    rw [← hnil]
    exact ⟨_, .none, rfl⟩
  · obtain ⟨w, hw, rfl⟩ := writes_of_readPairs (read_of_checkPairs h)
    exact ⟨_, .pairs hw, rfl⟩
  · simp at h

theorem readRuleConditions_append {pairs : Option (List (String × Value))}
    (levels : Nat) (h : WritesRuleConditions pairs w) (rest : List Token) :
    readRuleConditions levels (w ++ rest) = checked (checkConditions pairs) rest := by
  cases h with
  | null => rfl
  | @pairs pairs _ h =>
      have hread := readConditionsWithin_append levels h rest
      rw [readRuleConditions, hread, checkConditions]
      · cases Conditions.ofPairs pairs <;> rfl
      · cases h <;> simp

theorem writes_of_readRuleConditions {c : Option Conditions}
    (h : readRuleConditions levels ts = .ok (c, rest)) :
    ∃ w, WritesRuleConditions (c.map (·.pairs)) w ∧ ts = w ++ rest := by
  unfold readRuleConditions at h
  split at h
  · cases h
    exact ⟨_, .null, rfl⟩
  · split at h
    · simp at h
    · rename_i hread
      cases h
      obtain ⟨w, hw, rfl⟩ := writes_of_readConditionsWithin hread
      exact ⟨w, .pairs hw, rfl⟩

end Conditions

/-! ## 3. Members of a rule -/

/-- What the members that were read have said. -/
def Members.said (m : Members) : Said := ⟨m.conditions.map (·.map (·.pairs)), m.effect⟩

/-- The members that have been read where `m` was said, if its pairs are well formed. -/
def Said.check (m : Said) : Except Conditions.Fault Members :=
  match m.conditions with
  | none => .ok ⟨none, m.effect⟩
  | some pairs => (checkConditions pairs).map fun c => ⟨some c, m.effect⟩

theorem map_eq_ok_iff {ε α γ : Type} {f : α → γ} {x : Except ε α} {b : γ} :
    x.map f = .ok b ↔ ∃ a, x = .ok a ∧ f a = b := by
  cases x <;> simp [Except.map]

theorem checkConditions_eq_ok_iff {pairs : Option (List (String × Value))}
    {c : Option Conditions} :
    checkConditions pairs = .ok c ↔ pairs = c.map (·.pairs) := by
  constructor
  · intro h
    cases pairs with
    | none =>
        cases h
        rfl
    | some pairs =>
        obtain ⟨c, hc, rfl⟩ := map_eq_ok_iff.mp h
        rw [Option.map_some, Conditions.ofPairs_eq_ok_iff.mp hc]
  · rintro rfl
    exact checkConditions_pairs c

@[simp] theorem Said.check_none (e : Option Effect) :
    check ⟨none, e⟩ = .ok ⟨none, e⟩ := rfl

@[simp] theorem Said.check_some (pairs : Option (List (String × Value)))
    (e : Option Effect) :
    check ⟨some pairs, e⟩ = (checkConditions pairs).map fun c => ⟨some c, e⟩ := rfl

/-- What was said can be checked, with what was read as the result, just if it was said
by that. -/
theorem Said.check_eq_ok_iff {m : Said} {read : Members} :
    m.check = .ok read ↔ m = read.said := by
  obtain ⟨conditions, effect⟩ := m
  obtain ⟨conditions', effect'⟩ := read
  cases conditions with
  | none => cases conditions' <;> simp [check, Members.said]
  | some pairs =>
      rw [check_some, map_eq_ok_iff]
      simp only [checkConditions_eq_ok_iff, Members.said, Members.mk.injEq, Said.mk.injEq]
      constructor
      · rintro ⟨c, rfl, rfl, rfl⟩
        exact ⟨rfl, rfl⟩
      · rintro ⟨hc, rfl⟩
        obtain ⟨c, rfl, rfl⟩ := Option.map_eq_some_iff.mp hc.symm
        exact ⟨c, rfl, rfl, rfl⟩

section Members

variable {levels : Nat} {m m' : Said} {d : Draft} {w rest ts : List Token}
  {read read' : Members}
  {name : String}

/-! The ways in which the reading of members goes on behind the name of one. -/

theorem readMembers_error {fault : Fault} (hnew : read.has name = false)
    (h : readMember levels read name ts = .error fault) :
    readMembers levels read (.string (some name) :: .colon :: ts) = .error fault := by
  rw [readMembers, if_neg (by simp [hnew])]
  split <;> simp_all

theorem readMembers_next (hnew : read.has name = false)
    (h : readMember levels read name ts = .ok (read', .comma :: rest)) :
    readMembers levels read (.string (some name) :: .colon :: ts) =
      readMembers levels read' rest := by
  rw [readMembers, if_neg (by simp [hnew])]
  split <;> simp_all

theorem readMembers_last {rule : Rule} (hnew : read.has name = false)
    (h : readMember levels read name ts = .ok (read', .closeObject :: rest))
    (hrule : read'.rule = .ok rule) :
    readMembers levels read (.string (some name) :: .colon :: ts) = .ok (rule, rest) := by
  rw [readMembers, if_neg (by simp [hnew])]
  split <;> simp_all

/-- **A member is read**, if it was not said before what it says. -/
theorem readMember_append (levels : Nat) (h : WritesMember read.said m' w) :
    ∃ name body, w = .string (some name) :: .colon :: body ∧ read.has name = false ∧
      ∀ rest, readMember levels read name (body ++ rest) = checked m'.check rest := by
  obtain ⟨conditions, effect⟩ := read
  generalize hm : Members.said ⟨conditions, effect⟩ = m at h
  simp only [Members.said] at hm
  cases h with
  | @conditions pairs e body hc =>
      obtain ⟨hnone, rfl⟩ := Said.mk.injEq .. ▸ hm
      obtain rfl := Option.map_eq_none_iff.mp hnone
      refine ⟨_, body, rfl, rfl, fun rest => ?_⟩
      rw [readMember, if_pos rfl, readRuleConditions_append levels hc, Said.check_some]
      cases checkConditions pairs <;> rfl
  | @inverted c inverted =>
      obtain ⟨rfl, rfl⟩ := Said.mk.injEq .. ▸ hm
      refine ⟨_, [.bool inverted], rfl, rfl, fun rest => ?_⟩
      have hcheck :
          Said.check ⟨conditions.map (·.map (·.pairs)), some (effectOf inverted)⟩ =
            .ok ⟨conditions, some (effectOf inverted)⟩ := Said.check_eq_ok_iff.mpr rfl
      rw [hcheck]
      rfl
  | @other m name body hconditions hinverted hspan =>
      obtain rfl := hm
      have hcheck : Said.check ⟨conditions.map (·.map (·.pairs)), effect⟩ =
          .ok ⟨conditions, effect⟩ := Said.check_eq_ok_iff.mpr rfl
      refine ⟨_, body, rfl, by simp [Members.has, hconditions, hinverted], fun rest => ?_⟩
      rw [readMember, if_neg hconditions, if_neg hinverted, passOver_append hspan, hcheck]
      rfl

/-- **Nothing but a member is read as a member.** -/
theorem writes_of_readMember (hnew : read.has name = false)
    (h : readMember levels read name ts = .ok (read', rest)) :
    ∃ body, WritesMember read.said read'.said (.string (some name) :: .colon :: body) ∧
      ts = body ++ rest := by
  obtain ⟨conditions, effect⟩ := read
  unfold readMember at h
  split at h
  · rename_i hname
    subst hname
    obtain rfl : conditions = none := by simpa [Members.has] using hnew
    split at h
    · simp at h
    · rename_i c ts' hread
      cases h
      obtain ⟨body, hbody, rfl⟩ := writes_of_readRuleConditions hread
      exact ⟨body, .conditions hbody, rfl⟩
  · rename_i hconditions
    split at h
    · rename_i hname
      subst hname
      obtain rfl : effect = none := by simpa [Members.has] using hnew
      split at h
      · simp at h
      · rename_i effect ts' hread
        cases h
        unfold readEffect at hread
        split at hread
        · cases hread
          exact ⟨_, .inverted, rfl⟩
        · simp at hread
    · rename_i hinverted
      split at h
      · simp at h
      · rename_i ts' hpass
        cases h
        obtain ⟨body, rfl, hspan⟩ := exists_passedOver hpass
        exact ⟨body, .other hconditions hinverted (by simpa using hspan []), rfl⟩

/-- A rule has the conditions that were said, if any were. -/
theorem rule_said (c : Option (Option (List (String × Value)))) (e : Effect) :
    Draft.rule ⟨e, c.getD none⟩ =
      (Said.check ⟨c, some e⟩).map fun read => ⟨e, read.conditions.getD none⟩ := by
  cases c with
  | none => rfl
  | some pairs =>
      rw [Draft.rule, Said.check_some, Option.getD_some]
      cases checkConditions pairs <;> rfl

/-- A fault of what was said is one of the rule, whatever members follow. -/
theorem WritesMember.check_eq_error {fault : Conditions.Fault} (h : WritesMember m m' w)
    (hm : m.check = .error fault) : m'.check = .error fault := by
  cases h with
  | conditions _ => simp at hm
  | @inverted c inverted =>
      cases c with
      | none => simp at hm
      | some pairs =>
          rw [Said.check_some] at hm ⊢
          cases hpairs : checkConditions pairs with
          | error fault' =>
              rw [hpairs] at hm
              cases hm
              rfl
          | ok c => simp [hpairs, Except.map] at hm
  | other _ _ _ => exact hm

theorem WritesMembers.rule_eq_error {fault : Conditions.Fault} (h : WritesMembers m d w)
    (hm : m.check = .error fault) : d.rule = .error fault := by
  induction h with
  | last h => rw [rule_said, h.check_eq_error hm]; rfl
  | cons h _ ih => exact ih (h.check_eq_error hm)

/-- **The members of a rule are read**, up to the brace that closes them. -/
theorem readMembers_append (levels : Nat) (h : WritesMembers m d w) (read : Members)
    (hm : m = read.said) (rest : List Token) :
    readMembers levels read (w ++ rest) = checked d.rule rest := by
  -- Each member extends what was said, and what was read with it.
  induction h generalizing read with
  | @last m c e w h =>
      subst hm
      obtain ⟨name, body, rfl, hnew, hread⟩ := readMember_append levels h
      have hlast := hread (.closeObject :: rest)
      rw [rule_said]
      simp only [List.cons_append, List.append_assoc, List.nil_append]
      cases hcheck : Said.check ⟨c, some e⟩ with
      | error fault =>
          rw [hcheck] at hlast
          exact readMembers_error hnew hlast
      | ok read' =>
          rw [hcheck] at hlast
          have heffect : read'.effect = some e :=
            (congrArg Said.effect (Said.check_eq_ok_iff.mp hcheck)).symm
          exact readMembers_last hnew hlast (by rw [Members.rule, heffect])
  | @cons m m' d w r h hmore ih =>
      subst hm
      obtain ⟨name, body, rfl, hnew, hread⟩ := readMember_append levels h
      have hnext := hread (.comma :: (r ++ rest))
      simp only [List.cons_append, List.append_assoc]
      cases hcheck : m'.check with
      | error fault =>
          rw [hcheck] at hnext
          rw [hmore.rule_eq_error hcheck]
          exact readMembers_error hnew hnext
      | ok read' =>
          rw [hcheck] at hnext
          rw [readMembers_next hnew hnext]
          exact ih read' (Said.check_eq_ok_iff.mp hcheck)

/-- **Nothing but the members of a rule is read as such**, and they say what the rule
is. -/
theorem writes_of_readMembers {rule : Rule}
    (h : readMembers levels read ts = .ok (rule, rest)) :
    ∃ w, WritesMembers read.said rule.draft w ∧ ts = w ++ rest := by
  fun_induction readMembers levels read ts with
  | case3 read name hnew ts read' rest' hread ih =>
      obtain ⟨body, hbody, rfl⟩ := writes_of_readMember (by simpa using hnew) hread
      obtain ⟨w, hw, rfl⟩ := ih h
      exact ⟨_, .cons hbody hw, by simp⟩
  | case5 read name hnew ts read' rest' hread rule' hrule =>
      cases h
      obtain ⟨body, hbody, rfl⟩ := writes_of_readMember (by simpa using hnew) hread
      unfold Members.rule at hrule
      split at hrule
      · simp at hrule
      · rename_i e heffect
        cases hrule
        have hsaid : read'.said = ⟨read'.said.conditions, some e⟩ := by
          rw [Members.said, heffect]
        have hdraft : Rule.draft ⟨e, read'.conditions.getD none⟩ =
            ⟨e, read'.said.conditions.getD none⟩ := by
          rw [Members.said]
          cases read'.conditions <;> rfl
        rw [hsaid] at hbody
        rw [hdraft]
        exact ⟨_, .last hbody, by simp⟩
  | _ => simp at h

end Members

/-! ## 4. Rules -/

section Rules

variable {levels : Nat} {d : Draft} {w rest ts : List Token}

theorem WritesMembers.head {m : Said} (h : WritesMembers m d w) :
    ∃ name ts, w = .string (some name) :: ts := by
  cases h with
  | last h => cases h <;> exact ⟨_, _, rfl⟩
  | cons h _ => cases h <;> exact ⟨_, _, rfl⟩

theorem WritesRuleConditions.head_ne {pairs : Option (List (String × Value))}
    (h : WritesRuleConditions pairs w) (more : List Token) :
    (w ++ more).head? ≠ some .closeArray := by
  cases h with
  | null => simp
  | pairs h => cases h <;> simp

/-- **A rule is read**, if its pairs are well formed. -/
theorem readRuleWithin_append (levels : Nat) (h : WritesRule d w) (rest : List Token) :
    readRuleWithin levels (w ++ rest) = checked d.rule rest := by
  cases h with
  | object h =>
      have hread := readMembers_append levels h {} rfl rest
      obtain ⟨name, ts, rfl⟩ := h.head
      exact hread
  | @array pairs inverted w h =>
      have hread := readRuleConditions_append levels h
        (.comma :: .bool inverted :: .closeArray :: rest)
      have hhead := h.head_ne (.comma :: .bool inverted :: .closeArray :: rest)
      have helements : readRuleWithin levels
          (.openArray :: (w ++ [.comma, .bool inverted, .closeArray]) ++ rest) =
            readElements levels
              (w ++ .comma :: .bool inverted :: .closeArray :: rest) := by
        simp [readRuleWithin]
      rw [helements]
      unfold readElements
      split
      · rename_i ts hts
        exact absurd (by rw [hts]; rfl) hhead
      · rw [hread, Draft.rule]
        cases checkConditions pairs <;> rfl

/-- **Nothing but a rule is read as a rule.** -/
theorem writes_of_readRuleWithin {rule : Rule}
    (h : readRuleWithin levels ts = .ok (rule, rest)) :
    ∃ w, WritesRule rule.draft w ∧ ts = w ++ rest := by
  unfold readRuleWithin at h
  split at h
  · unfold readElements at h
    split at h
    · simp at h
    · split at h
      · simp at h
      · simp at h
      · rename_i c ts' hconditions
        obtain ⟨w, hw, rfl⟩ := writes_of_readRuleConditions hconditions
        split at h
        · simp at h
        · rename_i e ts'' heffect
          cases h
          unfold readEffect at heffect
          split at heffect
          · rename_i inverted ts'
            cases heffect
            exact ⟨_, .array hw, by simp⟩
          · simp at heffect
        · simp at h
      · simp at h
  · simp at h
  · obtain ⟨w, hw, rfl⟩ := writes_of_readMembers h
    exact ⟨_, .object hw, rfl⟩
  · simp at h

end Rules

/-! ## 5. Lists of rules -/

section RuleLists

variable {levels : Nat} {ds : List Draft} {w rest ts : List Token}

/-- The rules of drafts, or the fault of the first that has one. -/
def checkRules (ds : List Draft) : Except Conditions.Fault RuleList :=
  (ds.mapM Draft.rule).map .mk

/-! The ways in which the reading of rules goes on behind one. -/

theorem readMoreRules_error {fault : Fault}
    (h : readRuleWithin levels ts = .error fault) :
    readMoreRules levels ts = .error fault := by
  rw [readMoreRules]
  split <;> simp_all

theorem readMoreRules_last {rule : Rule}
    (h : readRuleWithin levels ts = .ok (rule, .closeArray :: rest)) :
    readMoreRules levels ts = .ok ([rule], rest) := by
  rw [readMoreRules]
  split <;> simp_all

theorem readMoreRules_next {rule : Rule} {ts' : List Token}
    {rules : Except Conditions.Fault (List Rule)}
    (h : readRuleWithin levels ts = .ok (rule, .comma :: ts'))
    (hmore : readMoreRules levels ts' = checked rules rest) :
    readMoreRules levels ts = checked (rules.map (rule :: ·)) rest := by
  rw [readMoreRules]
  cases rules <;> split <;> simp_all [checked, Except.map]

theorem mapM_rule_cons (d : Draft) (ds : List Draft) :
    (d :: ds).mapM Draft.rule =
      match d.rule with
      | .error fault => .error fault
      | .ok rule => (ds.mapM Draft.rule).map (rule :: ·) := by
  rw [List.mapM_cons]
  cases d.rule with
  | error fault => rfl
  | ok rule => cases ds.mapM Draft.rule <;> rfl

theorem Draft.rule_eq_ok_iff {d : Draft} {rule : Rule} :
    d.rule = .ok rule ↔ d = rule.draft := by
  constructor
  · intro h
    obtain ⟨c, hc, rfl⟩ := map_eq_ok_iff.mp h
    rw [Rule.draft, ← checkConditions_eq_ok_iff.mp hc]
  · rintro rfl
    exact rule_draft rule

theorem mapM_rule_eq_ok_iff {ds : List Draft} {rules : List Rule} :
    ds.mapM Draft.rule = .ok rules ↔ ds = rules.map Rule.draft := by
  constructor
  · intro h
    induction ds generalizing rules with
    | nil =>
        cases h
        rfl
    | cons d ds ih =>
        rw [mapM_rule_cons] at h
        cases hrule : d.rule with
        | error fault => simp [hrule] at h
        | ok rule =>
            rw [hrule] at h
            obtain ⟨rules, hrules, rfl⟩ := map_eq_ok_iff.mp h
            rw [Draft.rule_eq_ok_iff.mp hrule, ih hrules, List.map_cons]
  · rintro rfl
    induction rules with
    | nil => rfl
    | cons rule rules ih =>
        rw [List.map_cons, mapM_rule_cons, rule_draft, ih]
        rfl

theorem checkRules_eq_ok_iff {ds : List Draft} {rules : RuleList} :
    checkRules ds = .ok rules ↔ ds = rules.toList.map Rule.draft := by
  rw [checkRules, map_eq_ok_iff]
  constructor
  · rintro ⟨rules, h, rfl⟩
    exact mapM_rule_eq_ok_iff.mp h
  · exact fun h => ⟨rules.toList, mapM_rule_eq_ok_iff.mpr h, rfl⟩

/-- **Rules are read**, up to the bracket that closes them, if their pairs are well
formed. -/
theorem readMoreRules_append (levels : Nat) (h : WritesMoreRules ds w)
    (rest : List Token) :
    readMoreRules levels (w ++ rest) = checked (ds.mapM Draft.rule) rest := by
  induction h with
  | @last d w h =>
      have hread := readRuleWithin_append levels h (.closeArray :: rest)
      rw [List.append_assoc, List.singleton_append, mapM_rule_cons]
      cases hrule : d.rule with
      | error fault =>
          rw [hrule] at hread
          exact readMoreRules_error hread
      | ok rule =>
          rw [hrule] at hread
          exact readMoreRules_last hread
  | @cons d ds w r h _ ih =>
      have hread := readRuleWithin_append levels h (.comma :: (r ++ rest))
      rw [List.append_assoc, List.cons_append, mapM_rule_cons]
      cases hrule : d.rule with
      | error fault =>
          rw [hrule] at hread
          exact readMoreRules_error hread
      | ok rule =>
          rw [hrule] at hread
          exact readMoreRules_next hread ih

/-- **Nothing but rules is read as rules.** -/
theorem writes_of_readMoreRules {rules : List Rule}
    (h : readMoreRules levels ts = .ok (rules, rest)) :
    ∃ w, WritesMoreRules (rules.map Rule.draft) w ∧ ts = w ++ rest := by
  fun_induction readMoreRules levels ts generalizing rules with
  | case3 ts rule rest' hread rules' rest'' hmore ih =>
      cases h
      obtain ⟨w, hw, rfl⟩ := writes_of_readRuleWithin hread
      obtain ⟨r, hr, rfl⟩ := ih hmore
      exact ⟨_, .cons hw hr, by simp⟩
  | case4 ts rule rest' hread =>
      cases h
      obtain ⟨w, hw, rfl⟩ := writes_of_readRuleWithin hread
      exact ⟨_, .last hw, by simp⟩
  | _ => simp at h

theorem WritesMoreRules.head_ne (h : WritesMoreRules ds w) (more : List Token) :
    (w ++ more).head? ≠ some .closeArray := by
  cases h with
  | last h => cases h <;> simp
  | cons h _ => cases h <;> simp

theorem readRules_append (h : WritesRules ds w) (rest : List Token) :
    readRules (w ++ rest) = checked (checkRules ds) rest := by
  cases h with
  | none => rfl
  | @rules _ w h =>
      have hread := readMoreRules_append (nestingLimit - 3) h rest
      have hhead := h.head_ne rest
      rw [List.cons_append]
      unfold readRules
      split
      · rename_i ts hts
        exact absurd (by simp [List.cons.inj hts]) hhead
      · rename_i ts _ hts
        obtain rfl := (List.cons.inj hts).2
        rw [hread, checkRules]
        cases ds.mapM Draft.rule <;> rfl
      · rename_i hopen
        exact absurd rfl (hopen _)

theorem writes_of_readRules {rules : RuleList} (h : readRules ts = .ok (rules, rest)) :
    ∃ w, WritesRules (rules.toList.map Rule.draft) w ∧ ts = w ++ rest := by
  unfold readRules at h
  split at h
  · cases h
    exact ⟨_, .none, rfl⟩
  · split at h
    · simp at h
    · rename_i hread
      cases h
      obtain ⟨w, hw, rfl⟩ := writes_of_readMoreRules hread
      exact ⟨_, .rules hw, rfl⟩
  · simp at h

end RuleLists

/-! ## 6. Texts -/

section Texts

variable {text : String}

theorem decode_checked {α : Type} {read : List Token → Reading α}
    {result : Except Conditions.Fault α}
    (h : read (tokens text.toList) = checked result []) :
    decode read text = result.mapError .illFormed := by
  rw [decode, h]
  cases result <;> rfl

theorem read_of_decode {α : Type} {read : List Token → Reading α} {a : α}
    (h : decode read text = .ok a) : read (tokens text.toList) = .ok (a, []) := by
  unfold decode at h
  split at h
  · simp at h
  · rename_i hread
    cases h
    exact hread
  · simp at h

/-- A text of written conditions denotes these, or has their fault. -/
theorem decode_of_writesConditions {pairs : List (String × Value)}
    (h : WritesConditions pairs (tokens text.toList)) :
    decode readConditions text = (Conditions.ofPairs pairs).mapError .illFormed := by
  refine decode_checked ?_
  have hread := readConditionsWithin_append (nestingLimit - 1) h []
  rwa [List.append_nil] at hread

/-- A text of a written rule denotes it, or has the fault of its pairs. -/
theorem decode_of_writesRule {d : Draft} (h : WritesRule d (tokens text.toList)) :
    decode readRule text = d.rule.mapError .illFormed := by
  refine decode_checked ?_
  have hread := readRuleWithin_append (nestingLimit - 2) h []
  rwa [List.append_nil] at hread

/-- A text of written rules denotes these, or has the first fault of their pairs. -/
theorem decode_of_writesRules {ds : List Draft}
    (h : WritesRules ds (tokens text.toList)) :
    decode readRules text = (checkRules ds).mapError .illFormed := by
  refine decode_checked ?_
  have hread := readRules_append h []
  rwa [List.append_nil] at hread

/-- **A text denotes conditions just if it is a way of writing them.** -/
theorem decode_conditions_eq_ok_iff {c : Conditions} :
    decode readConditions text = .ok c ↔
      WritesConditions c.pairs (tokens text.toList) := by
  constructor
  · intro h
    obtain ⟨w, hw, hts⟩ := writes_of_readConditionsWithin (read_of_decode h)
    rwa [hts, List.append_nil]
  · intro h
    rw [decode_of_writesConditions h, Conditions.ofPairs_eq_ok_iff.mpr rfl]
    rfl

/-- **A text denotes a rule just if it is a way of writing it.** -/
theorem decode_rule_eq_ok_iff {rule : Rule} :
    decode readRule text = .ok rule ↔ WritesRule rule.draft (tokens text.toList) := by
  constructor
  · intro h
    obtain ⟨w, hw, hts⟩ := writes_of_readRuleWithin (read_of_decode h)
    rwa [hts, List.append_nil]
  · intro h
    rw [decode_of_writesRule h, rule_draft]
    rfl

/-- **A text denotes a list of rules just if it is a way of writing it.** -/
theorem decode_rules_eq_ok_iff {rules : RuleList} :
    decode readRules text = .ok rules ↔
      WritesRules (rules.toList.map Rule.draft) (tokens text.toList) := by
  constructor
  · intro h
    obtain ⟨w, hw, hts⟩ := writes_of_readRules (read_of_decode h)
    rwa [hts, List.append_nil]
  · intro h
    rw [decode_of_writesRules h, checkRules_eq_ok_iff.mpr rfl]
    rfl

end Texts

end RowAccess.Json
