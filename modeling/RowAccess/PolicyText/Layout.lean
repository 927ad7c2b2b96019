/-
RowAccess.PolicyText.Layout — what may stand between the words of a policy.

Layout is any run of blanks and comments. A comment runs from `#` to the end
of its line or of the text. A line ends with a line feed, with or without a
carriage return before it; a comment with a carriage return elsewhere is no
comment, and its `#` stays.

* `skipLayout` — the text after its leading layout.
* `length_skipLayout_le` — it is no longer than the text.
-/

namespace RowAccess.PolicyText

/-- Space, tab, line feed, carriage return and form feed. -/
def isBlank (c : Char) : Bool :=
  c = ' ' || c = '\t' || c = '\n' || c = '\r' || c = '\x0c'

/-- The text from the end of the line on, which the comment leaves in place,
or `none` if a carriage return breaks the comment. -/
def commentRest? : List Char → Option (List Char)
  | [] => some []
  | c :: s =>
    if c = '\n' then some (c :: s)
    else if c = '\r' then if s.head? = some '\n' then some (c :: s) else none
    else commentRest? s

theorem length_le_of_commentRest? {s rest : List Char} (h : commentRest? s = some rest) :
    rest.length ≤ s.length := by
  fun_induction commentRest? s with
  | case1 => simp_all
  | case2 => simp_all
  | case3 => simp_all
  | case4 => simp_all
  | case5 c s hn hr ih => exact Nat.le_succ_of_le (ih h)

/-- The text after its leading blanks and comments. -/
def skipLayout : List Char → List Char
  | [] => []
  | c :: s =>
    if isBlank c then skipLayout s
    else if c = '#' then
      match _h : commentRest? s with
      | some rest => skipLayout rest
      | none => c :: s
    else c :: s
termination_by s => s.length
decreasing_by
  · exact Nat.lt_succ_self _
  · exact Nat.lt_succ_of_le (length_le_of_commentRest? _h)

theorem length_skipLayout_le (s : List Char) : (skipLayout s).length ≤ s.length := by
  fun_induction skipLayout s with
  | case1 => exact Nat.le_refl _
  | case2 c s _ ih => exact Nat.le_succ_of_le ih
  | case3 s rest h _ ih =>
    exact Nat.le_succ_of_le (Nat.le_trans ih (length_le_of_commentRest? h))
  | case4 => exact Nat.le_refl _
  | case5 => exact Nat.le_refl _

end RowAccess.PolicyText
