/-
RowAccess.PolicyText.Diagnostic — how a mistake in a policy is shown.

A diagnostic shows the line of the mistake with a caret below it. A text of
one line is shown whole, and its caret is placed by bytes. Of a longer text
the line is named by number, and its caret is placed by characters, except
that bytes are counted where the mistake stands at a character of several
bytes. A mistake at the end of a longer text is shown behind its last
character, even where that character ends a line.

* `SyntaxError` — a text divided at the place of its mistake.
* `SyntaxError.diagnostic` — what is shown of it.
* `parse` — the statements of a policy, or its mistake.
-/
import RowAccess.PolicyText.Statement

namespace RowAccess.PolicyText

/-- A text that is no policy, divided at the place where reading stopped. -/
structure SyntaxError where
  before : List Char
  after : List Char
  expected : Option Expected
  deriving DecidableEq

/-- What was expected, as a diagnostic says it. -/
def Expected.phrase : Expected → String
  | action => "expected action"
  | subject => "expected subject"
  | value => "expected value"
  | colon => "expected `:`"
  | closingBrace => "expected `\x7d`"

/-- The number of bytes of a text. -/
def byteLength (s : List Char) : Nat := s.foldr (fun c n => c.utf8Size + n) 0

/-- The part of a text behind its last line feed. -/
def lastLine (s : List Char) : List Char :=
  (s.reverse.takeWhile (· ≠ '\n')).reverse

namespace SyntaxError

/-- The mistake at which reading of a text stopped. -/
def ofFailure (text : List Char) (failure : Failure) : SyntaxError where
  before := text.take (text.length - failure.rest.length)
  after := failure.rest
  expected := failure.expected

/-- The number of bytes before the mistake. -/
def offset (e : SyntaxError) : Nat := byteLength e.before

/-- What was expected, if reading stopped for want of it. -/
def context (e : SyntaxError) : String := (e.expected.map Expected.phrase).getD ""

/-- Spaces, for placing a caret. -/
def spaces (n : Nat) : String := String.ofList (List.replicate n ' ')

/-- A mistake in a text of one line. -/
def inLine (e : SyntaxError) : String :=
  String.ofList (e.before ++ e.after) ++ "\n" ++ spaces e.offset ++ "^\n" ++ e.context

/-- A mistake in a text of several lines: the text before the line's end that
decides about the line, the rest of that line, and the width before the caret. -/
def locate (e : SyntaxError) : List Char × List Char × Nat :=
  match e.after with
  | c :: _ =>
    let line := lastLine e.before
    (e.before, e.after.takeWhile (· ≠ '\n'),
      if c.utf8Size = 1 then line.length else byteLength line)
  | [] =>
    let before := e.before.dropLast
    (before, (e.before.drop before.length).takeWhile (· ≠ '\n'),
      (lastLine before).length + 1)

/-- A mistake in a text of several lines. -/
def amongLines (e : SyntaxError) : String :=
  let (before, rest, width) := e.locate
  let number := (before.count '\n' + 1).repr
  let gutter := spaces number.length
  "parse error at line " ++ number ++ ", column " ++ (width + 1).repr ++ "\n" ++
    gutter ++ " |\n" ++
    number ++ " | " ++ String.ofList (lastLine before ++ rest) ++ "\n" ++
    gutter ++ " | " ++ spaces width ++ "^\n" ++
    e.context

/-- What is shown of a mistake. -/
def diagnostic (e : SyntaxError) : String :=
  if '\n' ∈ e.before ++ e.after then e.amongLines else e.inLine

/-- The text of a mistake as an error. -/
def message (e : SyntaxError) : String := "policy parse error: " ++ e.diagnostic

end SyntaxError

/-- The statements of a policy, in the order written. The whole text has to be
read; where statements end too early, nothing in particular is expected. -/
def parse (text : String) : Except SyntaxError (List Statement) :=
  match readStatements text.toList with
  | .error failure => .error (.ofFailure text.toList failure)
  | .ok (statements, s) =>
    match skipLayout s with
    | [] => .ok statements
    | rest => .error (.ofFailure text.toList ⟨rest, none⟩)

end RowAccess.PolicyText
