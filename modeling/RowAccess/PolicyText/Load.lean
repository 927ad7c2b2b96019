/-
RowAccess.PolicyText.Load — policies from their text.

A text is read as a whole before any of its conditions are checked, so a
mistake in the writing is reported before ill-formed conditions, wherever the
two stand. Nothing is loaded of a policy with a mistake.

* `Policy.ofStatements` — the policy of a list of statements.
* `Policy.ofText`, `Policy.ofFile` — the policy of a text or of a file.
-/
import RowAccess.Policy
import RowAccess.PolicyText.Diagnostic

namespace RowAccess

/-- The rule of a statement. Braces without pairs are ill-formed conditions,
not a rule without conditions. -/
def PolicyText.Statement.rule (s : PolicyText.Statement) : Except Conditions.Fault Rule :=
  match s.pairs with
  | none => .ok ⟨s.effect, none⟩
  | some pairs =>
    match Conditions.ofPairs pairs with
    | .error fault => .error fault
    | .ok c => .ok ⟨s.effect, some c⟩

namespace Policy

/-- Why no policy was loaded. -/
inductive LoadError where
  | malformed (mistake : PolicyText.SyntaxError)
  | illFormed (fault : Conditions.Fault)
  | fileMissing
  | fileNotText

/-- The text of an error. -/
def LoadError.message : LoadError → String
  | malformed mistake => mistake.message
  | illFormed fault => fault.message
  | fileMissing => "No such file or directory (os error 2)"
  | fileNotText => "stream did not contain valid UTF-8"

/-- Declares the rules of statements one by one, after those of a policy. -/
def declareAll (p : Policy) : List PolicyText.Statement → Except Conditions.Fault Policy
  | [] => .ok p
  | s :: statements =>
    match s.rule with
    | .error fault => .error fault
    | .ok rule => declareAll (p.declare s.action s.subject rule) statements

/-- The policy that declares the rules of statements, in their order. -/
def ofStatements (statements : List PolicyText.Statement) :
    Except Conditions.Fault Policy :=
  declareAll empty statements

/-- The policy that a text declares. -/
def ofText (text : String) : Except LoadError Policy :=
  match PolicyText.parse text with
  | .error mistake => .error (.malformed mistake)
  | .ok statements => (ofStatements statements).mapError .illFormed

/-- The policy in a file, given the file's bytes if there is such a file. -/
def ofFile (bytes : Option ByteArray) : Except LoadError Policy :=
  match bytes with
  | none => .error .fileMissing
  | some bytes =>
    match String.fromUTF8? bytes with
    | none => .error .fileNotText
    | some text => ofText text

end Policy

end RowAccess
