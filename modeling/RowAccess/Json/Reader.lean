/-
RowAccess.Json.Reader — values and rules from JSON.

A reader takes what it needs from the front of a list of tokens. It looks at
them in their order, and the first fault ends it: a text may be refused for
what it says before a later part of it turns out not to be JSON. Values of a
shape that no reader wants are still read to their end, so that a malformed
text is known as such; nesting is limited there, except below members that
are passed over.

* `Fault` — a text is not JSON, or not JSON of the wanted form.
* `readValue`, `readConditions`, `readRule`, `readRules` — the readers.
* `decode` — reads a whole text.
-/
import RowAccess.Json.Token
import RowAccess.Json.Writer

namespace RowAccess.Json

/-! ## Faults -/

/-- What a reader looks for. -/
inductive Wanted where
  | conditions
  | truthValue
  | rule
  | rules
  deriving DecidableEq

/-- A form, as a message names it. -/
def Wanted.phrase : Wanted → String
  | conditions => "a non-empty map of field names to values"
  | truthValue => "a boolean"
  | rule => "struct Rule"
  | rules => "a sequence"

/-- What stands where something else was wanted. -/
inductive Found where
  | null
  | bool (b : Bool)
  | number (n : Number)
  | string (s : String)
  | array
  | object

/-- A finding, as a message names it. Numbers and truth values stand between
backticks, strings between quotes. -/
def Found.phrase : Found → String
  | null => "null"
  | bool b => "boolean `" ++ Value.boolText b ++ "`"
  | number (.whole n) => "integer `" ++ n.repr ++ "`"
  | number (.float x) => "floating point `" ++ String.ofList (floatText x) ++ "`"
  | string s => "string " ++ Text.quoted s
  | array => "sequence"
  | object => "map"

/-- Why a text denotes nothing of the wanted form. -/
inductive Fault where
  /-- The text is not JSON. -/
  | malformed
  /-- The text begins like JSON, but says something else than is wanted. -/
  | mistyped (found : Found) (wanted : Wanted)
  /-- An array or an object where a scalar is wanted, or nothing at all. -/
  | noScalar
  /-- A rule written as an array lacks elements. -/
  | tooShort (elements : Nat)
  /-- A rule has a member twice. -/
  | duplicateMember (name : String)
  /-- A rule lacks a member. -/
  | missingMember (name : String)
  | illFormed (fault : Conditions.Fault)

/-- The text of a fault, unless the text is not JSON. -/
def Fault.message? : Fault → Option String
  | malformed => none
  | mistyped found wanted =>
    some ("invalid type: " ++ found.phrase ++ ", expected " ++ wanted.phrase)
  | noScalar => some "data did not match any variant of untagged enum Value"
  | tooShort elements =>
    some ("invalid length " ++ elements.repr ++ ", expected struct Rule with 2 elements")
  | duplicateMember name => some ("duplicate field `" ++ name ++ "`")
  | missingMember name => some ("missing field `" ++ name ++ "`")
  | illFormed fault => some fault.message

/-- A result with the tokens that remain after it. -/
abbrev Reading (α : Type) := Except Fault (α × List Token)

/-- The fault of tokens that do not begin with what is wanted. -/
def faultOf (wanted : Wanted) : List Token → Fault
  | .null :: _ => .mistyped .null wanted
  | .bool b :: _ => .mistyped (.bool b) wanted
  | .number (some n) :: _ => .mistyped (.number n) wanted
  | .string (some s) :: _ => .mistyped (.string s) wanted
  | .openArray :: _ => .mistyped .array wanted
  | .openObject :: _ => .mistyped .object wanted
  | _ => .malformed

/-! ## Passing over -/

/-- What encloses a place in a text. -/
inductive Frame where
  | array
  | object
  deriving DecidableEq

/-- What is due at a place in a text. -/
inductive Due where
  | value
  | member
  /-- A comma or the end of what encloses the place. -/
  | next
  deriving DecidableEq

/-- How a value is passed over. -/
inductive Care where
  /-- Its content matters, and so many levels of nesting are allowed. -/
  | full (levels : Nat)
  /-- Only its extent matters. -/
  | extent
  deriving DecidableEq

/-- Whether one more level may be opened inside `depth` levels. -/
def Care.allows : Care → Nat → Bool
  | full levels, depth => depth < levels
  | extent, _ => true

/-- Whether a scalar may stand as it is. -/
def Care.accepts : Care → Token → Bool
  | _, .null => true
  | _, .bool _ => true
  | full _, .number n => n.isSome
  | extent, .number _ => true
  | full _, .string s => s.isSome
  | extent, .string _ => true
  | _, _ => false

/-- The tokens after a value, given what is due and what encloses the place.
`none` means that the text is not JSON. -/
def passOver (care : Care) : Due → List Frame → List Token → Option (List Token)
  | .next, [], ts => some ts
  | .value, frames, .openArray :: .closeArray :: ts =>
    if care.allows frames.length then passOver care .next frames ts else none
  | .value, frames, .openArray :: ts =>
    if care.allows frames.length then passOver care .value (.array :: frames) ts else none
  | .value, frames, .openObject :: .closeObject :: ts =>
    if care.allows frames.length then passOver care .next frames ts else none
  | .value, frames, .openObject :: ts =>
    if care.allows frames.length then passOver care .member (.object :: frames) ts
    else none
  | .value, frames, t :: ts =>
    if care.accepts t then passOver care .next frames ts else none
  | .member, frames, .string s :: .colon :: ts =>
    if care.accepts (.string s) then passOver care .value frames ts else none
  | .next, .array :: frames, .comma :: ts => passOver care .value (.array :: frames) ts
  | .next, .object :: frames, .comma :: ts => passOver care .member (.object :: frames) ts
  | .next, .array :: frames, .closeArray :: ts => passOver care .next frames ts
  | .next, .object :: frames, .closeObject :: ts => passOver care .next frames ts
  | _, _, _ => none

theorem length_le_of_passOver {care : Care} {due : Due} {frames : List Frame}
    {ts rest : List Token} (h : passOver care due frames ts = some rest) :
    rest.length ≤ ts.length := by
  fun_induction passOver care due frames ts with
  | case1 => cases h; exact Nat.le_refl _
  | _ => grind

/-- The levels of nesting allowed in a text. -/
def nestingLimit : Nat := 127

/-! ## Values -/

/-- The float or whole number of a column that a number denotes. -/
def Number.toValue : Number → Value
  | .whole n =>
    if n ≤ Int64.maxValue.toInt then .int (Int64.ofInt n) else .float (Float.ofInt n)
  | .float x => .float x

/-- The scalar of a token. -/
def scalar? : Token → Option Value
  | .bool b => some (.bool b)
  | .number n => n.map Number.toValue
  | .string s => s.map .text
  | _ => none

/-- The fault of tokens that do not begin with a scalar. -/
def faultOfScalar (levels : Nat) (ts : List Token) : Fault :=
  if (passOver (.full levels) .value [] ts).isSome then .noScalar else .malformed

/-- The value at the front. -/
def readValue : List Token → Reading Value
  | [] => .error .malformed
  | t :: ts =>
    match scalar? t with
    | some v => .ok (v, ts)
    | none => .error (faultOfScalar nestingLimit (t :: ts))

/-! ## Conditions -/

/-- The members of an object up to its end, which has been opened inside
levels of nesting that leave `levels` to its values. -/
def readPairs (levels : Nat) : List Token → Reading (List (String × Value))
  | .string (some name) :: .colon :: t :: ts =>
    match scalar? t with
    | none => .error (faultOfScalar levels (t :: ts))
    | some value =>
      match ts with
      | .comma :: ts =>
        match readPairs levels ts with
        | .error fault => .error fault
        | .ok (pairs, ts) => .ok ((name, value) :: pairs, ts)
      | .closeObject :: ts => .ok ([(name, value)], ts)
      | _ => .error .malformed
  | _ => .error .malformed

/-- The conditions of pairs that were read. -/
def checkPairs : Reading (List (String × Value)) → Reading Conditions
  | .error fault => .error fault
  | .ok (pairs, ts) =>
    match Conditions.ofPairs pairs with
    | .error fault => .error (.illFormed fault)
    | .ok c => .ok (c, ts)

/-- The conditions at the front. A member that occurs twice is a fault of the
conditions, found when all members have been read. -/
def readConditionsWithin (levels : Nat) : List Token → Reading Conditions
  | .openObject :: .closeObject :: ts => checkPairs (.ok ([], ts))
  | .openObject :: ts => checkPairs (readPairs levels ts)
  | ts => .error (faultOf .conditions ts)

/-- The conditions at the front of a text. -/
def readConditions (ts : List Token) : Reading Conditions :=
  readConditionsWithin (nestingLimit - 1) ts

/-! ## Rules -/

/-- The conditions of a rule, or `null` if it has none. -/
def readRuleConditions (levels : Nat) : List Token → Reading (Option Conditions)
  | .null :: ts => .ok (none, ts)
  | ts =>
    match readConditionsWithin levels ts with
    | .error fault => .error fault
    | .ok (c, ts) => .ok (some c, ts)

/-- The effect of a rule, given by whether it is inverted. -/
def readEffect : List Token → Reading Effect
  | .bool inverted :: ts => .ok (if inverted then .deny else .allow, ts)
  | ts => .error (faultOf .truthValue ts)

/-- The members of a rule that have been read. -/
structure Members where
  conditions : Option (Option Conditions) := none
  effect : Option Effect := none

/-- The rule of the members read. Without conditions it covers every record. -/
def Members.rule (m : Members) : Except Fault Rule :=
  match m.effect with
  | none => .error (.missingMember "inverted")
  | some effect => .ok ⟨effect, m.conditions.getD none⟩

/-- Reads the value of a member of a rule, which stands behind its colon.
Members that rules do not have are passed over. -/
def readMember (levels : Nat) (m : Members) (name : String) (ts : List Token) :
    Reading Members :=
  if name = "conditions" then
    match readRuleConditions levels ts with
    | .error fault => .error fault
    | .ok (c, ts) => .ok ({ m with conditions := some c }, ts)
  else if name = "inverted" then
    match readEffect ts with
    | .error fault => .error fault
    | .ok (effect, ts) => .ok ({ m with effect := some effect }, ts)
  else
    match passOver .extent .value [] ts with
    | none => .error .malformed
    | some ts => .ok (m, ts)

/-- Whether a member of a rule has been read before. -/
def Members.has (m : Members) (name : String) : Bool :=
  (name == "conditions" && m.conditions.isSome) || (name == "inverted" && m.effect.isSome)

/-! ### Readers take something from the tokens -/

theorem length_lt_of_readPairs {levels : Nat} {ts rest : List Token}
    {pairs : List (String × Value)}
    (h : readPairs levels ts = .ok (pairs, rest)) : rest.length < ts.length := by
  fun_induction readPairs levels ts generalizing pairs with
  | case1 => simp at h
  | case2 => simp at h
  | case3 name t value _ ts pairs' ts' hr ih =>
    cases h
    have := ih hr
    simp only [List.length_cons]
    omega
  | case4 =>
    cases h
    simp only [List.length_cons]
    omega
  | case5 => simp at h
  | case6 => simp at h

theorem length_lt_of_readConditionsWithin {levels : Nat} {ts rest : List Token}
    {c : Conditions} (h : readConditionsWithin levels ts = .ok (c, rest)) :
    rest.length < ts.length := by
  have hcheck : ∀ {r : Reading (List (String × Value))}, checkPairs r = .ok (c, rest) →
      ∃ pairs, r = .ok (pairs, rest) := by
    intro r hr
    unfold checkPairs at hr
    split at hr
    · simp at hr
    · rename_i pairs ts'
      split at hr
      · simp at hr
      · cases hr
        exact ⟨pairs, rfl⟩
  unfold readConditionsWithin at h
  split at h
  · obtain ⟨pairs, hp⟩ := hcheck h
    cases hp
    simp only [List.length_cons]
    omega
  · obtain ⟨pairs, hp⟩ := hcheck h
    have := length_lt_of_readPairs hp
    simp only [List.length_cons]
    omega
  · simp at h

theorem length_lt_of_readRuleConditions {levels : Nat} {ts rest : List Token}
    {c : Option Conditions} (h : readRuleConditions levels ts = .ok (c, rest)) :
    rest.length < ts.length := by
  unfold readRuleConditions at h
  split at h
  · cases h; exact Nat.lt_succ_self _
  · split at h
    · simp at h
    · rename_i hr
      cases h
      exact length_lt_of_readConditionsWithin hr

theorem length_le_of_readMember {levels : Nat} {m m' : Members} {name : String}
    {ts rest : List Token} (h : readMember levels m name ts = .ok (m', rest)) :
    rest.length ≤ ts.length := by
  unfold readMember at h
  split at h
  · split at h
    · simp at h
    · rename_i hr
      cases h
      exact Nat.le_of_lt (length_lt_of_readRuleConditions hr)
  · split at h
    · split at h
      · simp at h
      · rename_i hr
        cases h
        unfold readEffect at hr
        split at hr
        · cases hr; exact Nat.le_succ _
        · simp at hr
    · split at h
      · simp at h
      · rename_i hp
        cases h
        exact length_le_of_passOver hp

/-- The members of a rule up to the end of its object. A member that occurs
twice is a fault as soon as its name is read. -/
def readMembers (levels : Nat) (m : Members) : List Token → Reading Rule
  | .string (some name) :: ts =>
    if m.has name then .error (.duplicateMember name)
    else
      match ts with
      | .colon :: ts =>
        match _h : readMember levels m name ts with
        | .error fault => .error fault
        | .ok (m, .comma :: rest) => readMembers levels m rest
        | .ok (m, .closeObject :: rest) =>
          match m.rule with
          | .error fault => .error fault
          | .ok rule => .ok (rule, rest)
        | .ok _ => .error .malformed
      | _ => .error .malformed
  | _ => .error .malformed
termination_by ts => ts.length
decreasing_by
  have := length_le_of_readMember _h
  simp only [List.length_cons] at *
  omega

/-- The elements of a rule written as an array, which has been opened: its
conditions and whether it is inverted. -/
def readElements (levels : Nat) : List Token → Reading Rule
  | .closeArray :: _ => .error (.tooShort 0)
  | ts =>
    match readRuleConditions levels ts with
    | .error fault => .error fault
    | .ok (_, .closeArray :: _) => .error (.tooShort 1)
    | .ok (c, .comma :: ts) =>
      match readEffect ts with
      | .error fault => .error fault
      | .ok (effect, .closeArray :: ts) => .ok (⟨effect, c⟩, ts)
      | .ok _ => .error .malformed
    | .ok _ => .error .malformed

/-- The rule at the front: an object, or an array of its two members. -/
def readRuleWithin (levels : Nat) : List Token → Reading Rule
  | .openArray :: ts => readElements levels ts
  | .openObject :: .closeObject :: _ => .error (.missingMember "inverted")
  | .openObject :: ts => readMembers levels {} ts
  | ts => .error (faultOf .rule ts)

/-- The rule at the front of a text. -/
def readRule (ts : List Token) : Reading Rule := readRuleWithin (nestingLimit - 2) ts

theorem length_lt_of_readMembers {levels : Nat} {m : Members} {ts rest : List Token}
    {r : Rule} (h : readMembers levels m ts = .ok (r, rest)) :
    rest.length < ts.length := by
  fun_induction readMembers levels m ts with
  | case3 m name _ ts m' rest' hr ih =>
    have := ih h
    have := length_le_of_readMember hr
    simp only [List.length_cons] at *
    omega
  | case5 m name _ ts m' rest' hr rule hrule =>
    cases h
    have := length_le_of_readMember hr
    simp only [List.length_cons] at *
    omega
  | _ => simp at h

theorem length_lt_of_readRuleWithin {levels : Nat} {ts rest : List Token} {r : Rule}
    (h : readRuleWithin levels ts = .ok (r, rest)) : rest.length < ts.length := by
  unfold readRuleWithin at h
  split at h
  · unfold readElements at h
    split at h
    · simp at h
    · split at h
      · simp at h
      · simp at h
      · rename_i hc
        have h₁ := length_lt_of_readRuleConditions hc
        split at h
        · simp at h
        · rename_i he
          cases h
          unfold readEffect at he
          split at he
          · cases he
            simp only [List.length_cons] at *
            omega
          · simp at he
        · simp at h
      · simp at h
  · simp at h
  · exact Nat.lt_succ_of_lt (length_lt_of_readMembers h)
  · simp at h

/-- The rules of an array up to its end. -/
def readMoreRules (levels : Nat) (ts : List Token) : Reading (List Rule) :=
  match _h : readRuleWithin levels ts with
  | .error fault => .error fault
  | .ok (rule, .comma :: rest) =>
    match readMoreRules levels rest with
    | .error fault => .error fault
    | .ok (rules, rest) => .ok (rule :: rules, rest)
  | .ok (rule, .closeArray :: rest) => .ok ([rule], rest)
  | .ok _ => .error .malformed
termination_by ts.length
decreasing_by
  have := length_lt_of_readRuleWithin _h
  simp only [List.length_cons] at *
  omega

/-- The list of rules at the front of a text. -/
def readRules : List Token → Reading RuleList
  | .openArray :: .closeArray :: ts => .ok (⟨[]⟩, ts)
  | .openArray :: ts =>
    match readMoreRules (nestingLimit - 3) ts with
    | .error fault => .error fault
    | .ok (rules, ts) => .ok (⟨rules⟩, ts)
  | ts => .error (faultOf .rules ts)

/-! ## Texts -/

/-- What a whole text denotes, by a reader for it. Nothing but blanks may
follow. -/
def decode {α : Type} (read : List Token → Reading α) (text : String) : Except Fault α :=
  match read (tokens text.toList) with
  | .error fault => .error fault
  | .ok (a, []) => .ok a
  | .ok (_, _ :: _) => .error .malformed

end RowAccess.Json
