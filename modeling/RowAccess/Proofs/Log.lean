/-
RowAccess.Proofs.Log — what is reported of a decision is what was decided.

The events of a decision go to a log, one line for each, and whoever keeps the log sees
no more than the level, the message and the named fields of a line. The log is said here
without counting along a reading: `Line.ofDecision` takes the rules that decide, puts
each of them at its position and behind those of its fields that the hook takes for
relations, and ends with the verdict. From there the log is read as its keeper reads it,
by messages and names of fields alone, and compared with the filter.

* `Rule.consult` — which fields of which rules a hook takes for relations.
* `Pass.read_log`, `RuleSource.ruling_log` — a decision reports `Line.ofDecision`.
* `Line.told`, `Verdict.ToldBy` — what a log tells, and when this is the truth about a
  verdict.
* `RuleSource.log_faithful` — the log of every decision tells the truth about it, and
  what queries and tables add to it.

The number of allow rules superseded is told in the middle of a log, yet it counts rules
that were read before. `Pass.read_log` is thus about a number given from the start, which
is that of the rules already put aside and those still to come.
-/
import RowAccess.Proofs.Questions
import RowAccess.Proofs.Relevance

namespace RowAccess

/-! ## 1. Lines of a log -/

/-- A line of a log. -/
structure Line where
  level : Level
  message : String
  fields : List (String × String)

/-- An event, as it stands in a log. -/
def Event.line (e : Event) : Line := ⟨e.level, e.message, e.fields⟩

/-- The log of a decision. -/
def Ruling.log {β : Type} (ruling : Ruling β) : List Line := ruling.events.map (·.line)

theorem Ruling.after_log {β : Type} (ruling : Ruling β) (earlier : List Event) :
    (ruling.after earlier).log = earlier.map (·.line) ++ ruling.log := List.map_append

namespace Line

/-- The line of an event that says under what name the rules were looked up. -/
def resolved (action subject : String) (rules : Nat) : Line :=
  ⟨.debug, "resolved rules",
    [("action", action), ("subject", subject), ("rules", rules.repr)]⟩

/-- The line about a field that names a related entity. -/
def relation (field : String) : Line :=
  ⟨.debug, "relation field, join filtering not performed", [("field", field)]⟩

/-- The message about a rule with conditions. -/
def taken : Effect → String
  | .deny => "deny applied"
  | .allow => "allow deferred"

/-- The line about a rule that is read at a position. An allow rule without conditions
supersedes so many others. -/
def ofRule (superseded position : Nat) : Rule → Line
  | ⟨e, some c⟩ =>
    ⟨.trace, taken e, [("position", position.repr), ("conditions", c.display)]⟩
  | ⟨.deny, none⟩ =>
    ⟨.trace, "unconditioned deny, older rules discarded", [("position", position.repr)]⟩
  | ⟨.allow, none⟩ =>
    ⟨.trace, "unconditioned allow",
      [("position", position.repr), ("superseded", superseded.repr)]⟩

/-- The lines about rules read from a position on, each with the fields that were taken
for relations: of every rule first the lines about these fields, and then its own. -/
def ofRules (superseded position : Nat) (consulted : List (Rule × List String)) :
    List Line :=
  (consulted.zipIdx position).flatMap fun entry =>
    entry.1.2.map relation ++ [ofRule superseded entry.2 entry.1.1]

/-- The last line, about a verdict on rules of which so many were put aside. -/
def decided {β : Type} (rules alternatives : Nat) : Verdict β → Line
  | .noAccess =>
    ⟨.debug, "compiled rules", [("outcome", "no_access"), ("rules", rules.repr)]⟩
  | .unrestricted _ =>
    ⟨.debug, "compiled rules", [("outcome", "unrestricted"), ("rules", rules.repr)]⟩
  | .filtered _ =>
    ⟨.debug, "compiled rules",
      [("outcome", "filtered"), ("rules", rules.repr),
       ("alternatives", alternatives.repr)]⟩

/-- The log of a decision by rules, with the fields taken for relations of each rule that
was consulted. -/
def ofDecision {β : Type} (action subject : String) (rules : List Rule)
    (consulted : List (Rule × List String)) (verdict : Verdict β) : List Line :=
  let alternatives := (Rule.allowed rules).length
  resolved action subject rules.length ::
    (ofRules alternatives 0 consulted ++ [decided rules.length alternatives verdict])

theorem ofRules_cons (superseded position : Nat) (rule : Rule) (related : List String)
    (consulted : List (Rule × List String)) :
    ofRules superseded position ((rule, related) :: consulted) =
      related.map relation ++ ofRule superseded position rule ::
        ofRules superseded (position + 1) consulted := by
  simp [ofRules, List.zipIdx_cons]

end Line

/-! ## 2. The fields taken for relations -/

/-- The fields of a rule's conditions. -/
def Rule.fields (rule : Rule) : List String := (rule.conditions.map (·.names)).getD []

/-- Asks about the fields of rules, rule by rule and field by field, and keeps of every
rule the fields that the answer was yes to. -/
def Rule.consult {σ : Type} (ask : String → StateM σ Bool) (rules : List Rule) :
    StateM σ (List (Rule × List String)) :=
  rules.mapM fun rule => return (rule, ← rule.fields.filterM ask)

theorem Rule.consult_cons {σ : Type} (ask : String → StateM σ Bool) (rule : Rule)
    (older : List Rule) (s : σ) :
    (consult ask (rule :: older)).run s =
      let related := (rule.fields.filterM ask).run s
      let later := (consult ask older).run related.2
      ((rule, related.1) :: later.1, later.2) := by
  rw [consult, List.mapM_cons]
  rfl

/-- Every rule is consulted once, in the order of the rules. -/
theorem Rule.map_fst_consult {σ : Type} (ask : String → StateM σ Bool) :
    ∀ (rules : List Rule) (s : σ), ((consult ask rules).run s).1.map (·.1) = rules
  | [], _ => rfl
  | rule :: older, s => by
      rw [consult_cons]
      simp only [List.map_cons]
      rw [map_fst_consult ask older]

namespace Pass

variable {σ : Type} (ask : String → StateM σ Bool)

/-- `filterM` gathers what it keeps in reverse, and turns it round at the end. -/
theorem filterAuxM_eq_askFields : ∀ (fields found : List String) (s : σ),
    ((List.filterAuxM ask fields found).run s).1.reverse.map Event.relationField =
        found.reverse.map .relationField ++ ((askFields ask fields).run s).1 ∧
      ((List.filterAuxM ask fields found).run s).2 = ((askFields ask fields).run s).2
  | [], found, s => by
      rw [askFields_nil]
      exact ⟨(List.append_nil _).symm, rfl⟩
  | field :: fields, found, s => by
      have hstep : (List.filterAuxM ask (field :: fields) found).run s =
          (List.filterAuxM ask fields
            (cond ((ask field).run s).1 (field :: found) found)).run
            ((ask field).run s).2 := rfl
      obtain ⟨hfound, hstate⟩ := filterAuxM_eq_askFields fields
        (cond ((ask field).run s).1 (field :: found) found) ((ask field).run s).2
      rw [hstep, askFields_cons, hfound, hstate]
      refine ⟨?_, rfl⟩
      cases hanswer : ((ask field).run s).1 <;> simp [hanswer]

/-- Asking about fields reports those that the answer is yes to. -/
theorem run_askFields (fields : List String) (s : σ) :
    (askFields ask fields).run s =
      let related := (fields.filterM ask).run s
      (related.1.map .relationField, related.2) := by
  obtain ⟨hfound, hstate⟩ := filterAuxM_eq_askFields ask fields [] s
  exact Prod.ext hfound.symm hstate.symm

end Pass

/-! ## 3. A reading under way -/

namespace Pass

variable {β σ : Type} [Restriction β] (ask : String → StateM σ Bool)

theorem take_line (pass : Pass β) (superseded : Nat) (e : Effect) (c : Conditions) :
    (pass.take e c).2.line = Line.ofRule superseded pass.position ⟨e, some c⟩ := by
  cases e <;> rfl

theorem finish_log (pass : Pass β) (n : Nat) :
    (pass.finish n).log = [(Event.decided (pass.decision []) n).line] := by
  rw [← (finish_spec pass n).1]
  rfl

/-- **A reading reports the rules that it has still to read**, each at its position and
behind the fields taken for relations, and at last its decision. -/
theorem read_log (n superseded : Nat) : ∀ (rules : List Rule) (pass : Pass β) (s : σ),
    superseded = (pass.pending ++ Rule.allowed rules).length →
      ((read ask n pass rules).run s).1.log =
        Line.ofRules superseded pass.position
          ((Rule.consult ask (Rule.decisive rules)).run s).1 ++
          [(Event.decided (pass.decision rules) n).line]
  | [], pass, s, _ => by
      rw [read_nil]
      exact finish_log pass n
  | ⟨.deny, none⟩ :: older, pass, s, _ => by
      have hdecision : pass.decision (⟨.deny, none⟩ :: older) = pass.decision [] := by
        simp [decision]
      rw [read_blanketDeny, Ruling.after_log, finish_log, hdecision]
      rfl
  | ⟨.allow, none⟩ :: _, pass, s, hsuperseded => by
      rw [Rule.allowed_blanket, List.append_nil] at hsuperseded
      rw [read_blanketAllow, hsuperseded]
      rfl
  | ⟨e, some c⟩ :: older, pass, s, hsuperseded => by
      -- A rule that is put aside is no longer to come, so the number stays.
      have hpending : superseded =
          ((pass.take e c).1.pending ++ Rule.allowed older).length := by
        cases e <;> simp [hsuperseded, take]
      have hdecision : (pass.take e c).1.decision older =
          pass.decision (⟨e, some c⟩ :: older) := by
        cases e <;> simp [decision, take]
      have hposition : (pass.take e c).1.position = pass.position + 1 := by
        cases e <;> rfl
      have hdecisive : Rule.decisive (⟨e, some c⟩ :: older) =
          ⟨e, some c⟩ :: Rule.decisive older := rfl
      rw [read_conditioned, hdecisive, Rule.consult_cons, Line.ofRules_cons]
      simp only [Ruling.after_log]
      rw [read_log n superseded older _ _ hpending, hdecision, hposition, run_askFields]
      simp only [List.map_append, List.map_map, List.map_singleton,
        take_line pass superseded, List.append_assoc, List.cons_append]
      rfl

end Pass

/-! ## 4. The decision of a source -/

namespace Rule

/-- The rules that decide are the live ones and the first one without conditions. -/
theorem decisive_eq : ∀ rules : List Rule,
    decisive rules = live rules ++ (blanket? rules).toList.map (⟨·, none⟩)
  | [] => rfl
  | ⟨_, none⟩ :: _ => rfl
  | ⟨e, some c⟩ :: older => by
      have ih := decisive_eq older
      rw [live_conditioned, blanket?_conditioned, List.cons_append, ← ih]
      rfl

theorem isConditioned_of_mem_live {rules : List Rule} {rule : Rule}
    (h : rule ∈ live rules) :
    rule.isConditioned = true :=
  List.all_eq_true.mp List.all_takeWhile rule h

theorem conditionsOf_decisive (e : Effect) (rules : List Rule) :
    conditionsOf e (decisive rules) = conditionsOf e (live rules) := by
  rw [decisive_eq, conditionsOf, List.filterMap_append]
  cases blanket? rules <;> simp [conditionsOf]

end Rule

/-- What is reported of a decision names its verdict. -/
theorem Line.decided_verdict {β : Type} [Restriction β] (n : Nat) (rules : List Rule)
    (start : β) :
    (Event.decided (Pass.decision { predicate := start } rules) n).line =
      Line.decided n (Rule.allowed rules).length (Rule.verdict rules start) := by
  rw [Pass.decision, Rule.verdict]
  by_cases hblanket : Rule.blanket? rules = some .allow
  · rw [if_pos hblanket, if_pos hblanket]
    rfl
  · rw [if_neg hblanket, if_neg hblanket]
    by_cases hlive : Rule.live rules = []
    · rw [if_pos (by simp [hlive]), if_pos hlive]
      rfl
    · rw [if_neg (by simpa using hlive), if_neg hlive]
      rfl

namespace RuleSource

variable {β σ : Type} [Restriction β] (source : RuleSource) (options : Options σ)
  (action subject : String) (s : σ)

/-- The rules that decide an action on a subject, each with its fields that the hook
takes for relations. -/
def consulted : List (Rule × List String) :=
  let ask field := options.hook field subject source
  ((Rule.consult ask (Rule.decisive (source.rulesFor action subject).toList)).run s).1

/-- **The log of a decision**: how many rules were found, what became of each of those
that decide, and the verdict. -/
theorem ruling_log (start : β) :
    let ruling := ((source.ruling options action subject start).run s).1
    ruling.log =
      Line.ofDecision action subject (source.rulesFor action subject).toList
        (source.consulted options action subject s) ruling.verdict := by
  intro ruling
  have hread := Pass.read_log (fun field => options.hook field subject source)
    (source.rulesFor action subject).size _ (source.rulesFor action subject).toList
    { predicate := start } s rfl
  rw [Line.decided_verdict,
      ← source.ruling_verdict options action subject start s] at hread
  exact congrArg (Line.resolved action subject (source.rulesFor action subject).size :: ·)
    hread

end RuleSource

/-! ## 5. What a log tells -/

namespace Line

/-- What the lines of one message say in one of their fields. -/
def told (log : List Line) (message field : String) : List String :=
  (log.filter (·.message = message)).filterMap (·.fields.lookup field)

variable (message field : String)

theorem told_append (log later : List Line) :
    told (log ++ later) message field =
      told log message field ++ told later message field := by
  rw [told, List.filter_append, List.filterMap_append]
  rfl

theorem told_cons (line : Line) (log : List Line) :
    told (line :: log) message field =
      told [line] message field ++ told log message field :=
  told_append message field [line] log

/-- Lines of another message do not count. -/
theorem told_eq_nil {log : List Line} (h : ∀ line ∈ log, line.message ≠ message) :
    told log message field = [] := by
  rw [told, List.filter_eq_nil_iff.mpr (by simpa using h)]
  rfl

/-- What the lines about rules tell, if the line about each rule tells at most one text
that does not depend on its position. -/
theorem told_ofRules {message field : String} {superseded : Nat}
    (tells : Rule → Option String)
    (hrelation : message ≠ "relation field, join filtering not performed")
    (hrule : ∀ position rule,
      told [ofRule superseded position rule] message field = (tells rule).toList) :
    ∀ (consulted : List (Rule × List String)) (position : Nat),
      told (ofRules superseded position consulted) message field =
        (consulted.map (·.1)).filterMap tells
  | [], _ => rfl
  | (rule, related) :: consulted, position => by
      have hrelated : told (related.map relation) message field = [] := by
        refine told_eq_nil message field fun line hline => ?_
        obtain ⟨name, -, rfl⟩ := List.mem_map.mp hline
        exact hrelation.symm
      rw [ofRules_cons, told_append, hrelated, told_cons, hrule,
          told_ofRules tells hrelation hrule, List.map_cons, List.filterMap_cons]
      cases tells rule <;> rfl

/-- The conditions of the rules of one effect, as a log tells them. -/
def conditions (log : List Line) (e : Effect) : List String :=
  told log (taken e) "conditions"

theorem told_conditions (e : Effect) (superseded position : Nat) (rule : Rule) :
    told [ofRule superseded position rule] (taken e) "conditions" =
      ((if rule.effect = e then rule.conditions else none).map (·.display)).toList := by
  obtain ⟨_ | _, _ | c⟩ := rule <;> cases e <;>
    simp [told, ofRule, taken, List.lookup_cons]

theorem told_superseded (superseded position : Nat) (rule : Rule) :
    told [ofRule superseded position rule] "unconditioned allow" "superseded" =
      (if rule.isConditioned = false ∧ rule.effect = .allow then some superseded.repr
        else none).toList := by
  obtain ⟨_ | _, _ | c⟩ := rule <;>
    simp [told, ofRule, taken, List.lookup_cons, Rule.isConditioned]

theorem told_alternatives (superseded position : Nat) (rule : Rule) :
    told [ofRule superseded position rule] "compiled rules" "alternatives" = [] := by
  obtain ⟨_ | _, _ | c⟩ := rule <;> simp [told, ofRule, taken]

end Line

/-! ## 6. The truth about a verdict -/

/-- The conditions that a term excludes. -/
def Term.excluded? : Term → Option Conditions
  | .noneOf c => some c
  | .anyOf _ => none

/-- The conditions of which a term demands one. -/
def Term.demanded? : Term → Option (List Conditions)
  | .noneOf _ => none
  | .anyOf alternatives => some alternatives

namespace Filter

/-- The conditions that a filter excludes. -/
def excluded (f : Filter) : List Conditions := f.terms.filterMap (·.excluded?)

/-- The demands of a filter, each with its alternatives. -/
def demanded (f : Filter) : List (List Conditions) := f.terms.filterMap (·.demanded?)

theorem excluded_requirements (rules : List Rule) :
    (Restriction.addAll empty (Rule.requirements [] rules)).excluded =
      Rule.denied rules := by
  have hdenied : ((Rule.denied rules).map Term.noneOf).filterMap Term.excluded? =
      Rule.denied rules := by
    rw [List.filterMap_map]
    exact List.filterMap_some
  rw [addAll_eq, excluded, Rule.requirements, empty, List.nil_append, List.nil_append,
      List.filterMap_append, hdenied]
  split <;> exact List.append_nil _

theorem demanded_requirements (rules : List Rule) :
    (Restriction.addAll empty (Rule.requirements [] rules)).demanded =
      if Rule.blanket? rules = some .allow ∨ Rule.allowed rules = [] then []
      else [Rule.allowed rules] := by
  have hdenied : ((Rule.denied rules).map Term.noneOf).filterMap Term.demanded? = [] := by
    simp [Term.demanded?]
  rw [addAll_eq, demanded, Rule.requirements, empty, List.nil_append, List.nil_append,
      List.filterMap_append, hdenied]
  split <;> rfl

end Filter

/-- A log tells the truth about a verdict. The conditions of deny rules are those that the
filter excludes. The conditions of allow rules are the alternatives of its one demand, if
any, and are counted in the last line; where every record is allowed the filter demands
nothing, and they are counted as superseded. -/
inductive Verdict.ToldBy (log : List Line) : Verdict Filter → Prop
  | noAccess (hrules : ∀ e, Line.conditions log e = []) : ToldBy log .noAccess
  | unrestricted {f : Filter}
    (hexcluded : Line.conditions log .deny = f.excluded.map (·.display))
    (hdemanded : f.demanded = [])
    (hsuperseded : Line.told log "unconditioned allow" "superseded" =
      [(Line.conditions log .allow).length.repr]) : ToldBy log (.unrestricted f)
  | filtered {f : Filter}
    (hexcluded : Line.conditions log .deny = f.excluded.map (·.display))
    (hdemanded : Line.conditions log .allow = f.demanded.flatten.map (·.display))
    (honce : f.demanded.length ≤ 1)
    (halternatives : Line.told log "compiled rules" "alternatives" =
      [(Line.conditions log .allow).length.repr]) : ToldBy log (.filtered f)

namespace Line

section OfDecision

variable {β : Type} (action subject : String) {rules : List Rule}
  {consulted : List (Rule × List String)}
  (hconsulted : consulted.map (·.1) = Rule.decisive rules)
  (verdict : Verdict β)

theorem told_ofDecision {message : String} (hresolved : message ≠ "resolved rules")
    (field : String) :
    told (ofDecision action subject rules consulted verdict) message field =
      told (ofRules (Rule.allowed rules).length 0 consulted) message field ++
        told [decided rules.length (Rule.allowed rules).length verdict]
          message field := by
  have hfirst : told [resolved action subject rules.length] message field = [] :=
    told_eq_nil message field (by simpa [resolved] using hresolved.symm)
  rw [ofDecision, told_cons, hfirst, told_append]
  rfl

/-- If access is filtered, the log tells the number of alternatives. -/
theorem alternatives_ofDecision (predicate : β) :
    told (ofDecision action subject rules consulted (.filtered predicate))
      "compiled rules" "alternatives" = [(Rule.allowed rules).length.repr] := by
  rw [told_ofDecision action subject _ (by decide),
      told_ofRules (fun _ => none) (by decide) (told_alternatives _)]
  simp [told, decided, List.lookup_cons]

include hconsulted

/-- A log tells the conditions of the live rules, of either effect. -/
theorem conditions_ofDecision (e : Effect) :
    conditions (ofDecision action subject rules consulted verdict) e =
      (Rule.conditionsOf e (Rule.live rules)).map (·.display) := by
  have hresolved : taken e ≠ "resolved rules" := by cases e <;> decide
  have hrelation : taken e ≠ "relation field, join filtering not performed" := by
    cases e <;> decide
  have hdecided : told [decided rules.length (Rule.allowed rules).length verdict]
      (taken e) "conditions" = [] := by
    cases e <;> cases verdict <;> simp [told, decided, taken]
  rw [conditions, told_ofDecision action subject verdict hresolved, hdecided,
      List.append_nil, told_ofRules _ hrelation (told_conditions e _), hconsulted,
      ← List.map_filterMap]
  exact congrArg (List.map _) (Rule.conditionsOf_decisive e rules)

/-- If all records are allowed in the end, the log tells how many rules that
supersedes. -/
theorem superseded_ofDecision (hblanket : Rule.blanket? rules = some .allow) :
    told (ofDecision action subject rules consulted verdict)
      "unconditioned allow" "superseded" = [(Rule.allowed rules).length.repr] := by
  have hdecided : told [decided rules.length (Rule.allowed rules).length verdict]
      "unconditioned allow" "superseded" = [] := by
    cases verdict <;> simp [told, decided]
  rw [told_ofDecision action subject verdict (by decide), hdecided, List.append_nil,
      told_ofRules _ (by decide) (told_superseded _), hconsulted, Rule.decisive_eq,
      hblanket, List.filterMap_append]
  have hlive : (Rule.live rules).filterMap (fun rule =>
      if rule.isConditioned = false ∧ rule.effect = .allow then
        some (Rule.allowed rules).length.repr else none) = [] := by
    refine List.filterMap_eq_nil_iff.mpr fun rule hrule => if_neg ?_
    simp [Rule.isConditioned_of_mem_live hrule]
  rw [hlive]
  rfl

/-- A log tells the truth about the verdict that rules come to. -/
theorem toldBy_ofDecision :
    (Rule.verdict rules Filter.empty).ToldBy
      (ofDecision action subject rules consulted (Rule.verdict rules Filter.empty)) := by
  have hconditions := fun e =>
    conditions_ofDecision action subject hconsulted (Rule.verdict rules Filter.empty) e
  have hexcluded := Filter.excluded_requirements rules
  have hdemanded := Filter.demanded_requirements rules
  -- The cases are those of the verdict, which is also what the last line is about.
  by_cases hblanket : Rule.blanket? rules = some .allow
  · rw [if_pos (.inl hblanket)] at hdemanded
    have hsuperseded := superseded_ofDecision action subject hconsulted
      (Rule.verdict rules Filter.empty) hblanket
    rw [Rule.verdict, if_pos hblanket] at hconditions hsuperseded ⊢
    refine .unrestricted ?_ hdemanded ?_
    · rw [hconditions, hexcluded, Rule.denied]
    · rw [hconditions, hsuperseded, List.length_map, Rule.allowed]
  · by_cases hlive : Rule.live rules = []
    · rw [Rule.verdict_of_grantsNothing ⟨hblanket, hlive⟩] at hconditions ⊢
      refine .noAccess fun e => ?_
      rw [hconditions, hlive]
      rfl
    · rw [Rule.verdict, if_neg hblanket, if_neg hlive] at hconditions ⊢
      refine .filtered ?_ ?_ ?_ ?_
      · rw [hconditions, hexcluded, Rule.denied]
      · rw [hconditions, hdemanded, ← Rule.allowed]
        by_cases hallowed : Rule.allowed rules = [] <;> simp [hblanket, hallowed]
      · rw [hdemanded]
        split <;> simp
      · rw [hconditions, alternatives_ofDecision, List.length_map, Rule.allowed]

end OfDecision

end Line

/-! ## 7. Queries and tables -/

/-- The log of a result. -/
def Traced.log {α : Type} (traced : Traced α) : List Line := traced.events.map (·.line)

/-- What a log is given in addition if access is denied. The message is another for
queries and for tables. -/
def Line.denial {β : Type} (message subject action : String) : Verdict β → List Line
  | .noAccess => [⟨.debug, message, [("subject", subject), ("action", action)]⟩]
  | .unrestricted _ => []
  | .filtered _ => []

/-- The kind of a verdict does not depend on the predicate. -/
theorem Rule.map_verdict {β γ : Type} [Restriction β] [Restriction γ] (rules : List Rule)
    (start : β) (start' : γ) :
    (verdict rules start).map (fun _ => ()) = (verdict rules start').map fun _ => () :=
  verdict_rel (fun v w => v.map (fun _ => ()) = w.map fun _ => ()) rfl Iff.rfl rfl rfl rfl

/-- A log depends on the kind of the verdict alone. -/
theorem Line.ofDecision_map {β : Type} (action subject : String) (rules : List Rule)
    (consulted : List (Rule × List String)) (verdict : Verdict β) :
    ofDecision action subject rules consulted (verdict.map fun _ => ()) =
      ofDecision action subject rules consulted verdict := by
  cases verdict <;> rfl

theorem Line.denial_map {β : Type} (message subject action : String)
    (verdict : Verdict β) :
    denial message subject action (verdict.map fun _ => ()) =
      denial message subject action verdict := by
  cases verdict <;> rfl

section Accessible

variable {σ : Type} (source : RuleSource) (action : String) (s : σ)

/-- A query reports the decision, and then whether it was emptied. -/
theorem Sql.Select.accessible_log (q : Sql.Select σ) :
    let ruling :=
      ((source.ruling q.settings.access action q.subject.name Filter.empty).run s).1
    ((q.accessible source action).run s).1.log =
      ruling.log ++
        Line.denial "access denied, query emptied" q.subject.name action
          ruling.verdict := by
  intro ruling
  let start : Sql.Where := { dialect := q.settings.dialect }
  have hquery : ((q.accessible source action).run s).1.log =
      let ruled := ((source.ruling q.settings.access action q.subject.name start).run s).1
      ruled.log ++
        Line.denial "access denied, query emptied" q.subject.name action
          ruled.verdict := by
    unfold accessible
    rw [StateT.run_bind]
    generalize (source.ruling q.settings.access action q.subject.name start).run s = ruled
    obtain ⟨⟨decision, w, events⟩, s'⟩ := ruled
    cases decision with
    | noAccess => exact List.map_append
    | unrestricted => exact (List.append_nil _).symm
    | filtered _ => exact (List.append_nil _).symm
  rw [hquery]
  simp only [ruling, RuleSource.ruling_log, RuleSource.ruling_verdict]
  rw [← Line.ofDecision_map, ← Line.denial_map, Rule.map_verdict _ start Filter.empty,
      Line.ofDecision_map, Line.denial_map]

/-- A table reports the decision, and then whether its records were left alone. -/
theorem Table.accessible_log (t : Table σ) :
    let ruling := ((source.ruling t.options action t.subject.name Filter.empty).run s).1
    ((t.accessible source action).run s).1.log =
      ruling.log ++
        Line.denial "access denied, skipping scan" t.subject.name action
          ruling.verdict := by
  unfold accessible
  rw [StateT.run_bind]
  generalize (source.ruling t.options action t.subject.name Filter.empty).run s = ruled
  obtain ⟨⟨decision, f, events⟩, s'⟩ := ruled
  cases decision with
  | noAccess => exact List.map_append
  | unrestricted => exact (List.append_nil _).symm
  | filtered _ => exact (List.append_nil _).symm

end Accessible

/-- **The log of a decision tells the truth about it.** It says how many rules were
found, then for each of the rules that decide, in their order and with their positions,
which of its fields the hook takes for relations and what became of it, and at last the
verdict. The conditions it says are denied are those excluded by the filter, and the
conditions it says are allowed are the alternatives that the filter demands one of, or as
many as it says are superseded where every record is allowed. A query and a table add one
line to the log of the decision if access is denied, and none otherwise. -/
theorem RuleSource.log_faithful {σ : Type} (source : RuleSource) (options : Options σ)
    (action subject : String) (s : σ) :
    (let rules := (source.rulesFor action subject).toList
     let consulted := source.consulted options action subject s
     let ruling := ((source.ruling options action subject Filter.empty).run s).1
     consulted.map (·.1) = Rule.decisive rules ∧
       ruling.log = Line.ofDecision action subject rules consulted ruling.verdict ∧
       ruling.verdict.ToldBy ruling.log) ∧
    (∀ q : Sql.Select σ,
      let ruling :=
        ((source.ruling q.settings.access action q.subject.name Filter.empty).run s).1
      ((q.accessible source action).run s).1.log =
        ruling.log ++
          Line.denial "access denied, query emptied" q.subject.name action
            ruling.verdict) ∧
    ∀ t : Table σ,
      let ruling := ((source.ruling t.options action t.subject.name Filter.empty).run s).1
      ((t.accessible source action).run s).1.log =
        ruling.log ++
          Line.denial "access denied, skipping scan" t.subject.name action
            ruling.verdict := by
  refine ⟨?_, Sql.Select.accessible_log source action s,
    Table.accessible_log source action s⟩
  intro rules consulted ruling
  have hconsulted : consulted.map (·.1) = Rule.decisive rules :=
    Rule.map_fst_consult _ _ s
  have hlog : ruling.log =
      Line.ofDecision action subject rules consulted ruling.verdict :=
    source.ruling_log options action subject s Filter.empty
  have hverdict : ruling.verdict = Rule.verdict rules Filter.empty :=
    source.ruling_verdict options action subject Filter.empty s
  refine ⟨hconsulted, hlog, ?_⟩
  rw [hlog, hverdict]
  exact Line.toldBy_ofDecision action subject hconsulted

end RowAccess
